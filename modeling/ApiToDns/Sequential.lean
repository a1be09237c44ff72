import ApiToDns.Lib.Runs
import ApiToDns.Serve

/-!
# Sequential

Requests served one after the other through a provider client that keeps its
contract behave like the record map: `ContractClient.serve_step` is one
request, `runs_like_the_map` any number of them.
-/

namespace ApiToDns

open Py

/-! ## the contract of a client -/

/-- What a lookup may report of a stored RRset: nothing when there is none,
else one record with its TTL and values. -/
def Reports (cell : Option RRset) (records : List DnsRecordInfo) : Prop :=
  match cell with
  | none => records = []
  | some rr => ∃ info, records = [info] ∧ info.ttl = rr.ttl ∧ info.values = rr.values

/-- A provider client that keeps the contract of `DnsProviderClient` over
the record map `view`; `owner zone name` is the owner a record name denotes
in a zone. -/
structure ContractClient (O σ : Type) [DecidableEq O] where
  handler : Handler providerSig σ
  owner : Str → Str → O
  view : σ → RecordMap O
  /-- `get_record` reports exactly the stored RRset -/
  lookup : ∀ (s : σ) (name : Str) (t : RecordType) (server : Json) (zone : Str),
    ∃ records s', handler (.getRecord name (some t.text) server zone) s = (.ok records, s') ∧
      Reports (view s (owner zone name) t) records ∧ view s' = view s
  /-- `create_or_update_record` replaces the RRset -/
  replace : ∀ (s : σ) (zoneName : Option Str) (name : Str) (t : RecordType) (ttl : Int)
    (values : List Str) (server : Json) (zone : Str),
    ∃ existed s', handler
        (.createOrUpdateRecord ⟨zoneName, t.text, name, some ttl, values⟩ server zone) s =
          (.ok existed, s') ∧
      view s' = (view s).set (owner zone name) t (some (.full ttl values))
  /-- with the synthetic type it removes the RRset -/
  remove : ∀ (s : σ) (zoneName : Option Str) (name : Str) (t : RecordType) (ttl : Int)
    (server : Json) (zone : Str),
    ∃ existed s', handler
        (.createOrUpdateRecord ⟨zoneName, deleteType, name, some ttl, [t.text]⟩ server zone) s =
          (.ok existed, s') ∧
      view s' = (view s).set (owner zone name) t none

section

variable {O : Type}

/-- The record a lookup reports of a cell. -/
def reportCell (name : Str) (t : RecordType) (cell : Option RRset) : List DnsRecordInfo :=
  match cell with
  | none => []
  | some rr => [⟨name, t.text, rr.ttl, rr.values⟩]

variable [DecidableEq O] (owner : Str → Str → O)

/-- A client whose store is the record map itself. -/
def mapHandler : Handler providerSig (RecordMap O)
  | .getRecord name none _ zone, m =>
      (.ok (RecordType.all.flatMap fun t => reportCell name t (m (owner zone name) t)), m)
  | .getRecord name (some recordType) _ zone, m =>
      match RecordType.ofText? recordType with
      | some t => (.ok (reportCell name t (m (owner zone name) t)), m)
      | none => (.ok [], m)
  | .createOrUpdateRecord payload _ zone, m =>
      let o := owner zone payload.recordName
      match RecordType.ofText? payload.recordType with
      | some t => (.ok (m o t).isSome, m.set o t (some ⟨payload.ttl, some payload.values⟩))
      | none =>
          match payload.values.head?.bind RecordType.ofText? with
          | some t => (.ok (m o t).isSome, m.set o t none)
          | none => (.ok false, m)

/-- DELETE is no type. -/
theorem ofText?_deleteType : RecordType.ofText? deleteType = none := by decide

/-- The record map keeps the contract. -/
def mapClient : ContractClient O (RecordMap O) where
  handler := mapHandler owner
  owner := owner
  view m := m
  lookup m name t server zone := by
    refine ⟨reportCell name t (m (owner zone name) t), m, ?_, ?_, rfl⟩
    · simp only [mapHandler, RecordType.ofText?_text]
    · cases m (owner zone name) t with
      | none => rfl
      | some rr => exact ⟨_, rfl, rfl, rfl⟩
  replace m zoneName name t ttl values server zone := by
    refine ⟨(m (owner zone name) t).isSome, _, ?_, rfl⟩
    simp only [mapHandler, RecordType.ofText?_text]
    rfl
  remove m zoneName name t ttl server zone := by
    refine ⟨(m (owner zone name) t).isSome, _, ?_, rfl⟩
    simp only [mapHandler, ofText?_deleteType, List.head?_cons, Option.bind_some,
      RecordType.ofText?_text]

end

namespace ContractClient

variable {O σ : Type} [DecidableEq O] (C : ContractClient O σ) (U : Ucd)

/-! ## one request -/

section

variable (zoneName zone : Str) (server : Json) (ch : Change)

/-- Run from `s`, the program is answered and changes the cell of `ch` as
`effect` says, and changes nothing else. -/
def EndsWith (s : σ) (p : Prog providerSig Reply) (effect : Outcome × Option RRset) : Prop :=
  (p.run C.handler s).1.outcome = effect.1 ∧
    C.view (p.run C.handler s).2 = (C.view s).set (C.owner zone ch.name) ch.type effect.2

/-- A program that is done ends with its reply. -/
theorem endsWith_ret {s : σ} {cell : Option RRset} (reply : Reply)
    (hcell : C.view s (C.owner zone ch.name) ch.type = cell) :
    C.EndsWith zone ch s (.ret reply) (reply.outcome, cell) := by
  refine ⟨rfl, ?_⟩
  rw [← hcell, RecordMap.set_eq_self]
  rfl

/-- A write answers the change and leaves the written RRset. -/
theorem endsWith_payload (s : σ) (ttl : Int) (action : Str) (values : List Str) :
    C.EndsWith zone ch s
      (ch.writeThen zoneName zone server (ch.payload zoneName ttl values) action values)
      (.answered 200 action values, some (.full ttl values)) := by
  obtain ⟨existed, s', hrun, hview⟩ :=
    C.replace s (some zoneName) ch.name ch.type ttl values server zone
  unfold EndsWith
  rw [Change.writeThen, Prog.run_call, Change.payload, hrun]
  exact ⟨rfl, hview⟩

/-- A deletion ends with no RRset. -/
theorem endsWith_deletion (s : σ) :
    C.EndsWith zone ch s
      (ch.writeThen zoneName zone server (ch.deletion zoneName) (lit "deleted") [])
      (.answered 200 (lit "deleted") [], none) := by
  obtain ⟨existed, s', hrun, hview⟩ :=
    C.remove s (some zoneName) ch.name ch.type 300 server zone
  unfold EndsWith
  rw [Change.writeThen, Prog.run_call, Change.deletion, hrun]
  exact ⟨rfl, hview⟩

/-- After a lookup that found nothing. -/
theorem endsWith_onRecords_none {s : σ}
    (hcell : C.view s (C.owner zone ch.name) ch.type = none) :
    C.EndsWith zone ch s (ch.onRecords zoneName zone server []) (ch.onCell none) := by
  unfold Change.onRecords Change.onCell
  cases ch.verb with
  | create ttl values => exact C.endsWith_payload zoneName zone server ch s ttl _ values
  | replace ttl values => exact C.endsWith_ret zone ch _ hcell
  | patch ttl values => exact C.endsWith_ret zone ch _ hcell
  | delete => exact C.endsWith_ret zone ch _ hcell

/-- After a lookup that found the stored RRset. -/
theorem endsWith_onRecords_some {s : σ} {rr : RRset} {info : DnsRecordInfo}
    (hcell : C.view s (C.owner zone ch.name) ch.type = some rr) (httl : info.ttl = rr.ttl)
    (hvalues : info.values = rr.values) :
    C.EndsWith zone ch s (ch.onRecords zoneName zone server [info]) (ch.onCell (some rr)) := by
  unfold Change.onRecords Change.onCell
  cases hverb : ch.verb with
  | create ttl values => exact C.endsWith_ret zone ch _ hcell
  | replace ttl values => exact C.endsWith_payload zoneName zone server ch s ttl _ values
  | delete => exact C.endsWith_deletion zoneName zone server ch s
  | patch ttl values =>
      obtain ⟨rttl, rvalues⟩ := rr
      simp only at httl hvalues
      obtain ⟨ttl', v, vs, httl', hvalues', hm⟩ | ⟨hno, hm⟩ := mergePatch_cases info ttl values
      · rw [httl] at httl'
        rw [hvalues] at hvalues'
        subst httl' hvalues'
        simp only [hm]
        exact C.endsWith_payload zoneName zone server ch s _ _ _
      · simp only [hm]
        rw [httl, hvalues] at hno
        have hfailure : (ch.failure (.patchMergeError
            (lit "Could not read existing TTL and values for PATCH merge."))).outcome =
            .failed 502 := by
          simp only [Change.failure, hverb]
          rfl
        have hret := C.endsWith_ret zone ch (ch.failure (.patchMergeError
          (lit "Could not read existing TTL and values for PATCH merge."))) hcell
        rw [hfailure] at hret
        cases rttl with
        | none => exact hret
        | some ttl' =>
            cases rvalues with
            | none => exact hret
            | some values' =>
                cases values' with
                | nil => exact hret
                | cons v vs => exact absurd ⟨rfl, rfl⟩ (hno ttl' v vs)

/-- After a lookup whose report still holds. -/
theorem endsWith_onRecords {s : σ} {records : List DnsRecordInfo}
    (h : Reports (C.view s (C.owner zone ch.name) ch.type) records) :
    C.EndsWith zone ch s (ch.onRecords zoneName zone server records)
      (ch.onCell (C.view s (C.owner zone ch.name) ch.type)) := by
  cases hcell : C.view s (C.owner zone ch.name) ch.type with
  | none =>
      rw [hcell] at h
      have hnil : records = [] := h
      rw [hnil]
      exact C.endsWith_onRecords_none zoneName zone server ch hcell
  | some rr =>
      rw [hcell] at h
      obtain ⟨info, hinfo, httl, hvalues⟩ := h
      rw [hinfo]
      exact C.endsWith_onRecords_some zoneName zone server ch hcell httl hvalues

/-- A lookup changes nothing, and what follows does what the change does to
the cell the lookup reported. -/
theorem endsWith_program (s : σ) :
    C.EndsWith zone ch s (ch.program zoneName zone server)
      (ch.onCell (C.view s (C.owner zone ch.name) ch.type)) := by
  obtain ⟨records, s', hrun, hreports, hview⟩ := C.lookup s ch.name ch.type server zone
  have hrest := C.endsWith_onRecords zoneName zone server ch (hview.symm ▸ hreports)
  unfold EndsWith at hrest ⊢
  rw [Change.program, Prog.run_call, hrun]
  rw [hview] at hrest
  exact hrest

end

/-! ## runs -/

/-- A request under a zone configuration. -/
structure Call where
  settings : Dict
  zoneName : Str
  request : RecordRequest

/-- The owners of a configuration's zone, unless it names no zone. -/
def owners (settings : Dict) : Option (Str → O) :=
  match providerDnsZone U settings with
  | .ok zone => some (C.owner zone)
  | .error _ => none

/-- The code as a machine. -/
def server : Machine Call Reply σ := fun c s =>
  (c.request.serve U c.settings c.zoneName).run C.handler s

/-- The record map as a machine. -/
def reference : Machine Call Outcome (RecordMap O) := fun c m =>
  RecordMap.step U (C.owners U c.settings) c.request m

/-- One request, seen by the client and on the map, is one step of the map. -/
theorem reference_step (c : Call) (s : σ) :
    C.reference U c (C.view s) =
      ((C.server U c s).1.outcome, C.view (C.server U c s).2) := by
  unfold reference server RecordMap.step owners
  cases hread : c.request.read U with
  | error status =>
      obtain ⟨reply, hserve, hreply⟩ := serve_of_read_error c.settings c.zoneName hread
      rw [hserve, Prog.run_ret, hreply]
  | ok ch =>
      cases hz : providerDnsZone U c.settings with
      | error exc =>
          obtain ⟨reply, hserve, hreply⟩ := serve_of_no_zone c.zoneName hz hread
          rw [hserve, Prog.run_ret, hreply]
      | ok zone =>
          obtain ⟨houtcome, hview⟩ :=
            C.endsWith_program c.zoneName zone (dnsServer c.settings) ch s
          rw [serve_eq_program c.zoneName hz hread, houtcome, hview]

end ContractClient

/-- Whatever the initial store, the outcomes of a sequence of requests and
the store they leave are those of the record map. -/
theorem runs_like_the_map {O σ : Type} [DecidableEq O] (U : Ucd) (C : ContractClient O σ)
    (calls : List ContractClient.Call) (s : σ) :
    (C.reference U).runAll calls (C.view s) =
      (((C.server U).runAll calls s).1.map Reply.outcome, C.view ((C.server U).runAll calls s).2) :=
  Machine.runAll_commutes (C.reference_step U) calls s

end ApiToDns
