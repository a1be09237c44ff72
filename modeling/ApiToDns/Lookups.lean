import ApiToDns.NameServer
import ApiToDns.Published
import ApiToDns.Serve

/-!
# Lookups

Lookups of the BIND client that fail.  The client takes every exception of a lookup,
and every answer without records, for the absence of records; so a request goes on
with a lookup that failed, or that was answered with a referral.

* `serverHandler` — a server that lookups reach or do not reach, by a pattern;
* `Truthful` — what a request must not do when a lookup fails;
* `lookups_truthful` — in every run whose lookups go well;
* `not_truthful_of_lost`, `not_truthful_of_delegated` — not for a PUT, PATCH or DELETE
  whose lookup fails, or is answered with a referral.
-/

namespace ApiToDns.Bind

open Py

/-! ## a line to a server -/

/-- How a lookup fails: a timeout or a broken connection, or an answer without
records. -/
inductive LookupFault where
  | raises (exc : Exc)
  | servfail
  | refused

/-- What the client gets of a lookup that fails. -/
def LookupFault.reply : LookupFault → Except Exc Response
  | raises exc => .error exc
  | servfail => .ok ⟨2, []⟩
  | refused => .ok ⟨5, []⟩

/-- The line to a server in a state, and what becomes of the lookups to come. -/
structure Line (S : NameServer) where
  state : S.State
  faults : List (Option LookupFault)
  /-- a lookup has failed -/
  failed : Bool

variable {S : NameServer}

namespace Line

/-- Lookups go well. -/
structure Clean (l : Line S) : Prop where
  faults : ∀ fault ∈ l.faults, fault = none
  failed : l.failed = false

/-- A lookup. -/
def lookup (l : Line S) (name : Name) (rt : RecordType) : Except Exc Response × Line S :=
  match l.faults with
  | some fault :: faults => (fault.reply, { l with faults := faults, failed := true })
  | none :: faults => (.ok (S.respond l.state name rt), { l with faults := faults })
  | [] => (.ok (S.respond l.state name rt), l)

/-- An UPDATE. -/
def apply (l : Line S) (u : Update) : Line S := { l with state := S.update l.state u }

end Line

variable (S)

/-- The network with the server in it: every host name has an address, and every UPDATE
is made. -/
def serverHandler : Handler netSig (Line S)
  | .getaddrinfo host, l => (.ok [S.address host], l)
  | .tcp (.query name rt) _, l => l.lookup name rt
  | .tcp (.update u) _, l => (.ok ⟨noError, []⟩, l.apply u)

variable (U : Ucd) (d : DnsPython)

/-! ## requests -/

/-- A zone configuration with the name of a server. -/
structure BindConfig where
  settings : Dict
  zoneName : Str
  zone : Str
  host : Str
  zone_eq : providerDnsZone U settings = .ok zone
  server_eq : dnsServer settings = .str host

/-- A lookup, or a change. -/
inductive RecordCall where
  | get (recordName : Str) (recordType : Option RecordType)
  | change (request : RecordRequest)

inductive RecordAnswer where
  | looked (records : Except Exc (List DnsRecordInfo))
  | replied (reply : Reply)

/-- The request ends in an error. -/
def RecordAnswer.IsError : RecordAnswer → Prop
  | looked records => ∃ exc, records = .error exc
  | replied reply => (∃ e, reply = .error e) ∨ ∃ errors, reply = .unprocessable errors

/-- A request, with what becomes of its lookups. -/
structure Attempt where
  call : RecordCall
  faults : List (Option LookupFault)

/-- A request that was served. -/
structure Attempted where
  before : S.State
  attempt : Attempt
  answer : RecordAnswer
  after : S.State
  /-- a lookup of it has failed -/
  failed : Bool

variable {U}

/-- Serve a request. -/
def serveCall (c : BindConfig U) : RecordCall → Line S → RecordAnswer × Line S
  | .get recordName recordType, l =>
      let ended := (client U d (.getRecord recordName (recordType.map RecordType.text)
        (dnsServer c.settings) c.zone)).run (serverHandler S) l
      (.looked ended.1, ended.2)
  | .change request, l =>
      let ended := ((request.serve U c.settings c.zoneName).translate (client U d)).run
        (serverHandler S) l
      (.replied ended.1, ended.2)

/-- Serve a request, its lookups going as it says. -/
def serveAttempt (c : BindConfig U) (a : Attempt) (s : S.State) : Attempted S :=
  let ended := serveCall S d c a.call ⟨s, a.faults, false⟩
  ⟨s, a, ended.1, ended.2.state, ended.2.failed⟩

/-- Serve requests, one after the other. -/
def serveAttempts (c : BindConfig U) : List Attempt → S.State → List (Attempted S)
  | [], _ => []
  | a :: as, s =>
      serveAttempt S d c a s :: serveAttempts c as (serveAttempt S d c a s).after

/-- The name that is looked up for a record name. -/
def lookedUp (c : BindConfig U) (recordName : Str) : Except Exc Name :=
  qname d (bareName c.zone) (dnsRelativeName U (bareName c.zone) recordName)

/-- The request is about the RRset. -/
def RecordCall.Asks (c : BindConfig U) (name : Name) (rt : RecordType) : RecordCall → Prop
  | get recordName recordType =>
      lookedUp d c recordName = .ok name ∧ (recordType = none ∨ recordType = some rt)
  | change request =>
      ∃ ch, request.read U = .ok ch ∧ lookedUp d c ch.name = .ok name ∧ ch.type = rt

variable {S}

/-- No failed lookup is taken for absence: a POST changes no RRset that is there (but
for the SOA, which every UPDATE changes), an RRset that is there is not reported as
missing, and a lookup that fails ends in an error, with the zone unchanged. -/
structure Truthful (c : BindConfig U) (e : Attempted S) : Prop where
  kept : ∀ body, e.attempt.call = .change (.post body) →
    ∀ name rt, rt ≠ .soa → S.Holds e.before name rt →
      S.rrset e.after name rt = S.rrset e.before name rt
  found : ∀ name rt, e.attempt.call.Asks d c name rt → S.Holds e.before name rt →
    e.answer ≠ .looked (.ok [])
  present : ∀ name rt, e.attempt.call.Asks d c name rt → S.Holds e.before name rt →
    ∀ reply, e.answer = .replied reply → reply.httpStatus ≠ 404
  surfaced : e.failed = true → e.answer.IsError ∧ S.rrset e.after = S.rrset e.before

/-- The name that is looked up is the owner that an UPDATE has. -/
def SameName (c : BindConfig U) (recordName : Str) : Prop :=
  ∀ origin name owner, d.nameFromText (bareName c.zone) root = .ok origin →
    lookedUp d c recordName = .ok name → ownerName U d c.zone recordName origin = .ok owner →
      folded owner = folded name

/-- The lookups of the request go well, and an RRset that it is about is not at or
below a zone cut. -/
structure Attempted.Undisturbed (c : BindConfig U) (e : Attempted S) : Prop where
  faults : ∀ fault ∈ e.attempt.faults, fault = none
  undelegated : ∀ name rt, e.attempt.call.Asks d c name rt → S.Holds e.before name rt →
    ¬S.Delegated e.before name
  name : ∀ body ch, e.attempt.call = .change (.post body) →
    RecordRequest.read U (.post body) = .ok ch → SameName d c ch.name

variable {d}

/-! ## runs -/

variable {l : Line S}

/-- A clean line answers a lookup and stays clean. -/
theorem clean_lookup (h : l.Clean) (name : Name) (rt : RecordType) :
    l.lookup name rt = (.ok (S.respond l.state name rt), (l.lookup name rt).2) ∧
      (l.lookup name rt).2.Clean ∧ (l.lookup name rt).2.state = l.state := by
  unfold Line.lookup
  split
  · next fault faults hfaults =>
      have hnone := h.faults (some fault) (by rw [hfaults]; simp)
      contradiction
  · next faults hfaults =>
      refine ⟨rfl, ⟨fun fault hmem => h.faults fault ?_, h.failed⟩, rfl⟩
      rw [hfaults]
      exact List.mem_cons_of_mem none hmem
  · exact ⟨rfl, h, rfl⟩

/-- An operation leaves the line clean. -/
theorem clean_op (h : l.Clean) (o : NetOp) : (serverHandler S o l).2.Clean := by
  cases o with
  | getaddrinfo host => exact h
  | tcp message host =>
      cases message with
      | query name rt => exact (clean_lookup h name rt).2.1
      | update u => exact ⟨h.faults, h.failed⟩

/-- A program leaves the line clean. -/
theorem clean_run (p : Prog netSig α) (h : l.Clean) : (p.run (serverHandler S) l).2.Clean := by
  induction p generalizing l with
  | ret a => exact h
  | call o k ih => exact ih _ (clean_op h o)

/-- Without an UPDATE the server stays in its state. -/
theorem state_run {p : Prog netSig α} (h : ∀ u, ¬Sends p u) :
    (p.run (serverHandler S) l).2.state = l.state := by
  induction p generalizing l with
  | ret a => rfl
  | call o k ih =>
      have hlater : ∀ r, ∀ u, ¬Sends (k r) u := by
        intro r u hu
        obtain ⟨host, hu⟩ := hu
        exact h u ⟨host, .later r hu⟩
      rw [Prog.run_call, ih _ (hlater _)]
      cases o with
      | getaddrinfo host => rfl
      | tcp message host =>
          cases message with
          | query name rt =>
              show (l.lookup name rt).2.state = _
              unfold Line.lookup
              split <;> rfl
          | update u => exact absurd ⟨host, .here⟩ (h u)

/-- An RRset that no UPDATE is for stays as it is. -/
theorem rrset_run (hS : S.Serves) {p : Prog netSig α} {name : Name} {rt : RecordType}
    (hrt : rt ≠ .soa) (h : ∀ u, Sends p u → ¬(folded name = folded u.owner ∧ rt = u.rdtype)) :
    S.rrset (p.run (serverHandler S) l).2.state name rt = S.rrset l.state name rt := by
  induction p generalizing l with
  | ret a => rfl
  | call o k ih =>
      have hlater : ∀ r, ∀ u, Sends (k r) u →
          ¬(folded name = folded u.owner ∧ rt = u.rdtype) := by
        intro r u hu
        obtain ⟨host, hu⟩ := hu
        exact h u ⟨host, .later r hu⟩
      rw [Prog.run_call, ih _ (hlater _)]
      cases o with
      | getaddrinfo host => rfl
      | tcp message host =>
          cases message with
          | query name' rt' =>
              show S.rrset (l.lookup name' rt').2.state name rt = _
              unfold Line.lookup
              split <;> rfl
          | update u => exact hS.others l.state u name rt hrt (h u ⟨host, .here⟩)

/-! ## what a lookup sends -/

/-- A lookup of one type sends no update. -/
theorem not_sends_queryRecordDetails {server : Json} {zoneName relative : Str} {rt : RecordType}
    {u : Update} : ¬Sends (queryRecordDetailsAtName U d server zoneName relative rt).prog u := by
  intro h
  unfold queryRecordDetailsAtName at h
  obtain ⟨name, -, h⟩ := (sends_lift_bind_iff).mp h
  cases sends_bind_iff.mp h with
  | inl h =>
      obtain ⟨host, h⟩ := h
      cases Code.issues_tryCatch_iff.mp h with
      | inl h =>
          cases Code.issues_bind_iff.mp h with
          | inl h =>
              have heq := issues_send U h
              contradiction
          | inr h =>
              obtain ⟨response, -, h⟩ := h
              exact absurd h (Code.not_issues_pure _)
      | inr h =>
          obtain ⟨e, -, h⟩ := h
          exact absurd h (Code.not_issues_pure _)
  | inr h =>
      obtain ⟨response, -, h⟩ := h
      cases response with
      | none =>
          obtain ⟨host, h⟩ := h
          exact absurd h (Code.not_issues_pure _)
      | some response =>
          obtain ⟨read, -, host, h⟩ := sends_lift_bind_iff.mp h
          obtain ⟨ttl, values⟩ := read
          simp only at h
          split at h
          · exact absurd h (Code.not_issues_pure _)
          · exact absurd h (Code.not_issues_pure _)

/-- Nor does a lookup of several. -/
theorem not_sends_queryTypes {server : Json} {zoneName relative : Str} {rts : List RecordType}
    {u : Update} : ¬Sends (queryTypes U d server zoneName relative rts).prog u := by
  intro h
  induction rts with
  | nil =>
      obtain ⟨host, h⟩ := h
      exact absurd h (Code.not_issues_pure _)
  | cons rt rts ih =>
      cases sends_bind_iff.mp h with
      | inl h => exact not_sends_queryRecordDetails h
      | inr h =>
          obtain ⟨info, -, h⟩ := h
          cases sends_bind_iff.mp h with
          | inl h => exact ih h
          | inr h =>
              obtain ⟨infos, -, host, h⟩ := h
              exact absurd h (Code.not_issues_pure _)

/-- A lookup sends no UPDATE. -/
theorem not_sends_getRecord {recordName : Str} {recordType : Option Str} {server : Json}
    {dnsZone : Str} {u : Update} :
    ¬Sends (getRecord U d recordName recordType server dnsZone).prog u := by
  intro h
  obtain ⟨zoneName, -, h⟩ := sends_lift_bind_iff.mp h
  obtain ⟨rts, -, h⟩ := sends_lift_bind_iff.mp h
  exact not_sends_queryTypes h

/-- A write of values sends UPDATEs for the RRset of its type at the owner. -/
theorem sends_createOrUpdateRecord {payload : DnsRecordRequest} {host dnsZone : Str}
    {rt : RecordType} {u : Update} (hrt : U.upper payload.recordType = rt.text)
    (h : Sends (createOrUpdateRecord U d payload (.str host) dnsZone).prog u) :
    u.rdtype = rt ∧ ∃ name origin,
      qname d (bareName dnsZone) (dnsRelativeName U (bareName dnsZone) payload.recordName) =
        .ok name ∧
      d.nameFromText (bareName dnsZone) root = .ok origin ∧
      ownerName U d dnsZone payload.recordName origin = .ok u.owner := by
  unfold createOrUpdateRecord at h
  obtain ⟨zoneName, hzone, h⟩ := sends_lift_bind_iff.mp h
  have hzone : zoneName = bareName dnsZone := by
    unfold target at hzone
    split_ifs at hzone
    exact (Except.ok.inj hzone).symm
  subst hzone
  obtain ⟨origin, horigin, h⟩ := sends_lift_bind_iff.mp h
  simp only [hrt, rt.text_ne_delete, if_false] at h
  unfold replaceRecord at h
  obtain ⟨rdtype, hsupported, h⟩ := sends_lift_bind_iff.mp h
  obtain ⟨validated, -, h⟩ := sends_lift_bind_iff.mp h
  have h := (sends_bind_iff.mp h).resolve_left (not_sends_recordExistsAtName U d)
  obtain ⟨existed, hexisted, h⟩ := h
  obtain ⟨owner, howner, h⟩ := sends_lift_bind_iff.mp h
  obtain ⟨rds, -, h⟩ := sends_lift_bind_iff.mp h
  have hu : ∃ change, u = ⟨origin, owner, rdtype, change⟩ := by
    cases sends_bind_iff.mp h with
    | inl h => exact ⟨_, (sends_sendUpdate_iff U d host).mp h⟩
    | inr h =>
        obtain ⟨_, -, address, h⟩ := h
        exact absurd h (Code.not_issues_pure _)
  have htype : rdtype = rt := by
    unfold supportedType at hsupported
    rw [RecordType.ofText?_text] at hsupported
    split at hsupported
    · next rt' hfilter =>
        have hsame : rt = rt' := Option.some.inj (Option.filter_eq_some_iff.mp hfilter).1
        rw [hsame]
        exact (Except.ok.inj hsupported).symm
    · contradiction
  have hname : ∃ name, qname d (bareName dnsZone)
      (dnsRelativeName U (bareName dnsZone) payload.recordName) = .ok name := by
    cases Code.returns_bind_iff.mp hexisted with
    | inl hname =>
        obtain ⟨name, hname, -⟩ := hname
        exact ⟨name, (Code.returns_lift_iff.mp hname).symm⟩
    | inr herror =>
        obtain ⟨e, -, herror⟩ := herror
        contradiction
  obtain ⟨name, hname⟩ := hname
  obtain ⟨change, hu⟩ := hu
  rw [hu]
  exact ⟨htype, name, origin, hname, horigin, howner⟩

/-! ## lookups that go well -/

variable (U) in
/-- A host has an address, and the line stays as it is. -/
theorem run_tcpEndpointHost (host : Str) (l : Line S) :
    ∃ address, (tcpEndpointHost U (.str host)).run (serverHandler S) l = (.ok address, l) := by
  have hor : (Json.str host).orElse (.str []) = .str host := by
    cases host with
    | nil => rfl
    | cons c cs => rfl
  unfold tcpEndpointHost
  rw [hor]
  simp only
  split_ifs
  · exact ⟨_, rfl⟩
  · exact ⟨_, rfl⟩
  · exact ⟨_, rfl⟩

/-- A query is answered by the server. -/
theorem run_send_query (h : l.Clean) (name : Name) (rt : RecordType) (host : Str) :
    (send U (.query name rt) (.str host)).run (serverHandler S) l =
      (.ok (S.respond l.state name rt), (l.lookup name rt).2) := by
  obtain ⟨address, haddress⟩ := run_tcpEndpointHost U host l
  rw [send, Code.run_bind_ok haddress, run_tcp]
  exact (clean_lookup h name rt).1

/-- What is read of an answer. -/
theorem values_of_readAnswer {rt : RecordType} {rrsets : List Rrset} {ttl : Option Nat}
    {values : List Str} (h : readAnswer U d rt rrsets = .ok (ttl, values)) {r : Rrset}
    (hmem : r ∈ rrsets) (htype : r.rdtype = rt) (hne : r.rdatas ≠ []) :
    ttl ≠ none ∧ values ≠ [] := by
  induction rrsets generalizing ttl values with
  | nil => contradiction
  | cons rrset rest ih =>
      rw [readAnswer] at h
      split at h
      · next hother =>
          cases List.mem_cons.mp hmem with
          | inl heq => exact absurd (heq ▸ htype) hother
          | inr hmem => exact ih h hmem
      · obtain ⟨here, hhere, h⟩ := bind_eq_ok h
        obtain ⟨later, hlater, h⟩ := bind_eq_ok h
        obtain ⟨ttl', values'⟩ := later
        have hresult := Except.ok.inj h
        rw [Prod.mk.injEq] at hresult
        obtain ⟨httl, hvalues⟩ := hresult
        refine ⟨by rw [← httl]; exact Option.some_ne_none _, ?_⟩
        rw [← hvalues]
        cases List.mem_cons.mp hmem with
        | inl heq =>
            have hlength := (mapM_eq_ok_iff.mp hhere).length_eq
            intro hnil
            rw [(List.append_eq_nil_iff.mp hnil).1, ← heq] at hlength
            exact hne (List.eq_nil_of_length_eq_zero hlength)
        | inr hmem =>
            intro hnil
            exact (ih hlater hmem).2 (List.append_eq_nil_iff.mp hnil).2

/-- An RRset that is there is found. -/
theorem queryRecordDetails_ne_none (hS : S.Serves) (h : l.Clean)
    {host zoneName relative : Str} {name : Name} {rt : RecordType}
    (hname : qname d zoneName relative = .ok name) (hholds : S.Holds l.state name rt)
    (hcut : ¬S.Delegated l.state name) :
    ((queryRecordDetailsAtName U d (.str host) zoneName relative rt).run
      (serverHandler S) l).1 ≠ .ok none := by
  have hsent : (tryCatch
      (do let resp ← send U (.query name rt) (.str host); return some resp)
      (fun _ => return none) : NetCode (Option Response)).run (serverHandler S) l =
        (.ok (some (S.respond l.state name rt)), (l.lookup name rt).2) := by
    rw [Code.run_tryCatch, Code.run_bind_ok (run_send_query h name rt host)]
    rfl
  obtain ⟨owner, rdatas, hperm, hanswer⟩ := hS.authoritative l.state name rt hholds hcut
  have hne : rdatas ≠ [] := fun hnil => hholds (List.nil_perm.mp (hnil ▸ hperm))
  have hmem : (⟨owner, rt, (S.rrset l.state name rt).1, rdatas⟩ : Rrset) ∈
      (S.respond l.state name rt).answer := by
    rw [hanswer]
    exact List.mem_singleton.mpr rfl
  unfold queryRecordDetailsAtName
  rw [hname, Code.lift_ok]
  dsimp only
  intro hnone
  rw [pure_bind, Code.run_bind_ok hsent] at hnone
  simp only [Code.run_bind, Code.run_lift] at hnone
  cases hread : readAnswer U d rt (S.respond l.state name rt).answer with
  | error exc =>
      rw [hread] at hnone
      contradiction
  | ok read =>
      obtain ⟨ttl, values⟩ := read
      obtain ⟨httl, hvalues⟩ := values_of_readAnswer hread hmem rfl hne
      rw [hread] at hnone
      cases ttl with
      | none => exact httl rfl
      | some ttl =>
          cases values with
          | nil => exact hvalues rfl
          | cons v vs => exact Option.some_ne_none _ (Except.ok.inj hnone)

/-- A type that the server holds is found. -/
theorem queryTypes_ne_nil (hS : S.Serves) (h : l.Clean) {host zoneName relative : Str}
    {name : Name} {rts : List RecordType} {rt : RecordType}
    (hname : qname d zoneName relative = .ok name) (hmem : rt ∈ rts)
    (hholds : S.Holds l.state name rt) (hcut : ¬S.Delegated l.state name) :
    ((queryTypes U d (.str host) zoneName relative rts).run (serverHandler S) l).1 ≠ .ok [] := by
  induction rts generalizing l with
  | nil => contradiction
  | cons rt' rts ih =>
      intro hnil
      obtain ⟨info, l₁, hinfo, hrest⟩ := Code.run_bind_eq_ok (Prod.ext hnil rfl)
      obtain ⟨infos, l₂, hinfos, hend⟩ := Code.run_bind_eq_ok hrest
      have hboth := List.append_eq_nil_iff.mp (Code.run_pure_eq_ok.mp hend).1
      have hl₁ : l₁ = ((queryRecordDetailsAtName U d (.str host) zoneName relative rt').run
          (serverHandler S) l).2 := by rw [hinfo]
      cases List.mem_cons.mp hmem with
      | inl heq =>
          have hfound : ((queryRecordDetailsAtName U d (.str host) zoneName relative rt').run
              (serverHandler S) l).1 ≠ .ok none :=
            queryRecordDetails_ne_none hS h hname (heq ▸ hholds) hcut
          rw [hinfo] at hfound
          exact hfound (congrArg Except.ok (Option.toList_eq_nil_iff.mp hboth.1))
      | inr hmem =>
          have hclean : l₁.Clean := hl₁ ▸ clean_run _ h
          have hsame : l₁.state = l.state := by
            rw [hl₁]
            exact state_run fun _ => not_sends_queryRecordDetails
          refine ih hclean hmem (hsame ▸ hholds) (hsame ▸ hcut) ?_
          rw [hinfos, hboth.2]

/-- A lookup that finds nothing has asked for RRsets that are not there. -/
theorem getRecord_ne_nil (hS : S.Serves) (h : l.Clean) {host dnsZone recordName : Str}
    {recordType : Option Str} {name : Name} {rts : List RecordType} {rt : RecordType}
    (hname : qname d (bareName dnsZone) (dnsRelativeName U (bareName dnsZone) recordName) =
      .ok name)
    (hrts : lookupRecordTypesToQuery U recordType = .ok rts) (hmem : rt ∈ rts)
    (hholds : S.Holds l.state name rt) (hcut : ¬S.Delegated l.state name) :
    ((getRecord U d recordName recordType (.str host) dnsZone).run (serverHandler S) l).1 ≠
      .ok [] := by
  intro hnil
  obtain ⟨zoneName, hzone, hrest⟩ := Code.run_lift_bind_eq_ok (Prod.ext hnil rfl)
  have hzone : zoneName = bareName dnsZone := by
    unfold target at hzone
    split_ifs at hzone
    exact (Except.ok.inj hzone).symm
  subst hzone
  obtain ⟨rts', hrts', hrest⟩ := Code.run_lift_bind_eq_ok hrest
  rw [hrts] at hrts'
  rw [← Except.ok.inj hrts'] at hrest
  have hfound : ((queryTypes U d (.str host) (bareName dnsZone)
      (dnsRelativeName U (bareName dnsZone) recordName) rts).run (serverHandler S) l).1 ≠
        .ok [] := queryTypes_ne_nil hS h hname hmem hholds hcut
  rw [hrest] at hfound
  exact hfound rfl

/-! ## changes -/

/-- The status of a failure. -/
theorem status_failure_mem (ch : ApiToDns.Change) (exc : Exc) :
    (ch.failure exc).httpStatus ∈ [400, 500, 502, 503] := by
  have hstatus := status_httpExceptionFromDnsError exc
  unfold Change.failure
  split
  · show 502 ∈ [400, 500, 502, 503]
    decide
  · exact hstatus

/-- The answers to a write. -/
theorem status_writeThen (ch : ApiToDns.Change) (zoneName zone : Str) (server : Json)
    (write : DnsRecordRequest) (action : Str) (values : List Str) (l : Line S) :
    (((ch.writeThen zoneName zone server write action values).translate (client U d)).run
      (serverHandler S) l).1.httpStatus ∈ [200, 400, 500, 502, 503] := by
  unfold Change.writeThen
  rw [Prog.translate_call, Prog.run_bind]
  generalize (client U d (.createOrUpdateRecord write server zone)).run (serverHandler S) l =
    written
  obtain ⟨result, l'⟩ := written
  cases result with
  | ok existed =>
      show 200 ∈ [200, 400, 500, 502, 503]
      decide
  | error exc => exact List.mem_cons_of_mem 200 (status_failure_mem ch exc)

/-- A change whose lookup finds records, or fails, is not answered with 404. -/
theorem status_afterLookup (ch : ApiToDns.Change) (zoneName zone : Str) (server : Json)
    {looked : Except Exc (List DnsRecordInfo)} (h : looked ≠ .ok []) (l : Line S) :
    (((ch.afterLookup zoneName zone server looked).translate (client U d)).run
      (serverHandler S) l).1.httpStatus ≠ 404 := by
  have hfailure : ∀ exc, (ch.failure exc).httpStatus ≠ 404 := by
    intro exc heq
    have hmem := status_failure_mem ch exc
    rw [heq] at hmem
    contradiction
  have hwrite : ∀ write action values,
      (((ch.writeThen zoneName zone server write action values).translate (client U d)).run
        (serverHandler S) l).1.httpStatus ≠ 404 := by
    intro write action values heq
    have hmem : (((ch.writeThen zoneName zone server write action values).translate
        (client U d)).run (serverHandler S) l).1.httpStatus ∈ [200, 400, 500, 502, 503] :=
      status_writeThen ch zoneName zone server write action values l
    rw [heq] at hmem
    contradiction
  unfold Change.afterLookup
  cases looked with
  | error exc => exact hfailure exc
  | ok records =>
      cases records with
      | nil => exact absurd rfl h
      | cons existing rest =>
          cases hverb : ch.verb with
          | create ttl values =>
              simp only [Change.onRecords, hverb]
              show (409 : Nat) ≠ 404
              decide
          | replace ttl values =>
              simp only [Change.onRecords, hverb]
              exact hwrite _ _ _
          | patch ttl values =>
              simp only [Change.onRecords, hverb]
              cases mergePatch existing ttl values with
              | ok merged => exact hwrite _ _ _
              | error exc => exact hfailure exc
          | delete =>
              simp only [Change.onRecords, hverb]
              exact hwrite _ _ _

/-- A POST whose lookup goes on changes RRsets only that the lookup did not find. -/
theorem rrset_afterLookup (hS : S.Serves) {ch : ApiToDns.Change} {ttl : Int}
    {values : List Str} (hverb : ch.verb = .create ttl values) {zoneName zone host : Str}
    {name : Name} {rt : RecordType} (hrt : rt ≠ .soa) {looked : Except Exc (List DnsRecordInfo)}
    (h : looked = .ok [] → ∀ u, Sends (createOrUpdateRecord U d (ch.payload zoneName ttl values)
      (.str host) zone).prog u → ¬(folded name = folded u.owner ∧ rt = u.rdtype))
    (l : Line S) :
    S.rrset (((ch.afterLookup zoneName zone (.str host) looked).translate (client U d)).run
      (serverHandler S) l).2.state name rt = S.rrset l.state name rt := by
  unfold Change.afterLookup
  cases looked with
  | error exc => rfl
  | ok records =>
      cases records with
      | cons existing rest =>
          simp only [Change.onRecords, hverb]
          rfl
      | nil =>
          simp only [Change.onRecords, hverb, Change.writeThen]
          rw [Prog.translate_call, Prog.run_bind]
          have hkept : S.rrset ((createOrUpdateRecord U d (ch.payload zoneName ttl values)
              (.str host) zone).prog.run (serverHandler S) l).2.state name rt =
                S.rrset l.state name rt :=
            rrset_run hS hrt (h rfl)
          generalize hwritten : (client U d (.createOrUpdateRecord
            (ch.payload zoneName ttl values) (.str host) zone)).run (serverHandler S) l = written
          have hwritten : (createOrUpdateRecord U d (ch.payload zoneName ttl values)
            (.str host) zone).prog.run (serverHandler S) l = written := hwritten
          rw [hwritten] at hkept
          obtain ⟨result, l'⟩ := written
          cases result with
          | ok existed => exact hkept
          | error exc => exact hkept

/-! ## requests that are served -/

section

variable {c : BindConfig U}

/-- The lookup of a change. -/
theorem looked_change (hS : S.Serves) (h : l.Clean) {ch : ApiToDns.Change} {name : Name}
    (hname : lookedUp d c ch.name = .ok name) (hholds : S.Holds l.state name ch.type)
    (hcut : ¬S.Delegated l.state name) :
    ((client U d (.getRecord ch.name (some ch.type.text) (dnsServer c.settings) c.zone)).run
      (serverHandler S) l).1 ≠ .ok [] := by
  rw [c.server_eq]
  exact getRecord_ne_nil hS h hname (lookupRecordTypesToQuery_text U ch.type)
    (List.mem_singleton.mpr rfl) hholds hcut

/-- A lookup leaves the server as it is. -/
theorem state_looked (recordName : Str) (recordType : Option Str) :
    ((client U d (.getRecord recordName recordType (dnsServer c.settings) c.zone)).run
      (serverHandler S) l).2.state = l.state :=
  state_run fun _ => not_sends_getRecord

/-- The status of a change to what the server holds. -/
theorem status_change (hS : S.Serves) (h : l.Clean) {request : RecordRequest}
    {ch : ApiToDns.Change} {name : Name} (hread : request.read U = .ok ch)
    (hname : lookedUp d c ch.name = .ok name) (hholds : S.Holds l.state name ch.type)
    (hcut : ¬S.Delegated l.state name) :
    (((request.serve U c.settings c.zoneName).translate (client U d)).run
      (serverHandler S) l).1.httpStatus ≠ 404 := by
  rw [serve_eq_program c.zoneName c.zone_eq hread, Change.program, Prog.translate_call,
    Prog.run_bind]
  exact status_afterLookup ch c.zoneName c.zone (dnsServer c.settings)
    (looked_change hS h hname hholds hcut) _

/-- A POST whose lookup goes well leaves the RRsets that are there. -/
theorem rrset_post (hS : S.Serves) (h : l.Clean) {body : RecordBody} {name : Name}
    {rt : RecordType}
    (hsame : ∀ ch, RecordRequest.read U (.post body) = .ok ch → SameName d c ch.name)
    (hcut : ∀ name rt, (RecordCall.change (.post body)).Asks d c name rt →
      S.Holds l.state name rt → ¬S.Delegated l.state name)
    (hrt : rt ≠ .soa) (hholds : S.Holds l.state name rt) :
    S.rrset ((((RecordRequest.post body).serve U c.settings c.zoneName).translate
      (client U d)).run (serverHandler S) l).2.state name rt = S.rrset l.state name rt := by
  cases hread : RecordRequest.read U (.post body) with
  | error status =>
      obtain ⟨reply, hreply, -⟩ := serve_of_read_error c.settings c.zoneName hread
      rw [hreply]
      rfl
  | ok ch =>
      obtain ⟨ttl, values, hverb⟩ := verb_of_read_post hread
      have hkept : ((client U d (.getRecord ch.name (some ch.type.text) (dnsServer c.settings)
          c.zone)).run (serverHandler S) l).2.state = l.state :=
        state_looked ch.name (some ch.type.text)
      rw [serve_eq_program c.zoneName c.zone_eq hread, Change.program, Prog.translate_call,
        Prog.run_bind, ← hkept, c.server_eq]
      refine rrset_afterLookup hS hverb hrt (fun hnone u hu hthere => ?_) _
      obtain ⟨htype, looked, origin, hlooked, horigin, howner⟩ :=
        sends_createOrUpdateRecord (upper_text U ch.type) hu
      have howner : folded u.owner = folded looked :=
        hsame ch hread origin looked u.owner horigin hlooked howner
      have hholds : S.Holds l.state looked ch.type := by
        unfold NameServer.Holds at hholds ⊢
        rw [← hS.caseless l.state name looked ch.type (hthere.1.trans howner), ← htype,
          ← hthere.2]
        exact hholds
      have hfound : ((client U d (.getRecord ch.name (some ch.type.text) (dnsServer c.settings)
          c.zone)).run (serverHandler S) l).1 ≠ .ok [] :=
        looked_change hS h hlooked hholds (hcut looked ch.type ⟨ch, hread, hlooked, rfl⟩ hholds)
      rw [c.server_eq] at hfound
      exact hfound hnone

end

/-- A call leaves the line clean. -/
theorem clean_serveCall {c : BindConfig U} (call : RecordCall) (h : l.Clean) :
    (serveCall S d c call l).2.Clean := by
  cases call with
  | get recordName recordType => exact clean_run (client U d (.getRecord recordName _ _ _)) h
  | change request => exact clean_run ((request.serve U _ _).translate (client U d)) h

/-- A request whose lookups go well. -/
theorem truthful_attempt (hS : S.Serves) {c : BindConfig U} {a : Attempt} {s : S.State}
    (h : (serveAttempt S d c a s).Undisturbed d c) : Truthful d c (serveAttempt S d c a s) := by
  obtain ⟨call, faults⟩ := a
  have hclean : Line.Clean ⟨s, faults, false⟩ := ⟨h.faults, rfl⟩
  refine ⟨?_, ?_, ?_, ?_⟩
  · intro body hcall name rt hrt hholds
    have hcall : call = .change (.post body) := hcall
    subst hcall
    exact rrset_post hS hclean (fun ch hread => h.name body ch rfl hread) h.undelegated hrt hholds
  · intro name rt hasks hholds hnone
    have hcut := h.undelegated name rt hasks hholds
    cases call with
    | change request => contradiction
    | get recordName recordType =>
        obtain ⟨hname, hasked⟩ := hasks
        have hnil := RecordAnswer.looked.inj hnone
        rw [c.server_eq] at hnil
        have hrts : ∃ rts, lookupRecordTypesToQuery U (recordType.map RecordType.text) =
            .ok rts ∧ rt ∈ rts := by
          cases recordType with
          | none => exact ⟨RecordType.all, rfl, by cases rt <;> decide⟩
          | some rt' =>
              refine ⟨[rt'], lookupRecordTypesToQuery_text U rt', ?_⟩
              cases hasked with
              | inl hasked => contradiction
              | inr hasked => exact List.mem_singleton.mpr (Option.some.inj hasked).symm
        obtain ⟨rts, hrts, hmem⟩ := hrts
        exact getRecord_ne_nil hS hclean hname hrts hmem hholds hcut hnil
  · intro name rt hasks hholds reply hreply
    have hcut := h.undelegated name rt hasks hholds
    cases call with
    | get recordName recordType => contradiction
    | change request =>
        obtain ⟨ch, hread, hname, htype⟩ := hasks
        subst htype
        rw [← RecordAnswer.replied.inj hreply]
        exact status_change hS hclean hread hname hholds hcut
  · intro hfailed
    have hafter := clean_serveCall (d := d) (c := c) call hclean
    have hfalse : (serveAttempt S d c ⟨call, faults⟩ s).failed = false := hafter.failed
    rw [hfalse] at hfailed
    contradiction

variable (d) in
/-- In a run of requests whose lookups go well, for RRsets that are not at or below a
zone cut, none takes a failed lookup for absence. -/
theorem lookups_truthful (hS : S.Serves) (c : BindConfig U) (attempts : List Attempt)
    (s : S.State) (h : ∀ e ∈ serveAttempts S d c attempts s, e.Undisturbed d c) :
    ∀ e ∈ serveAttempts S d c attempts s, Truthful d c e := by
  induction attempts generalizing s with
  | nil =>
      intro e he
      contradiction
  | cons a as ih =>
      obtain ⟨hfirst, hrest⟩ := List.forall_mem_cons.mp h
      intro e he
      cases List.mem_cons.mp he with
      | inl he =>
          rw [he]
          exact truthful_attempt hS hfirst
      | inr he => exact ih _ hrest e he

/-! ## lookups that find nothing -/

/-- The client gets no records: the lookup raises, or its answer section is empty. -/
def NoRecords : Except Exc Response → Prop
  | .error _ => True
  | .ok response => response.answer = []

/-- A fault shows no records. -/
theorem noRecords_reply (fault : LookupFault) : NoRecords fault.reply := by
  cases fault with
  | raises exc => trivial
  | servfail => rfl
  | refused => rfl

/-- Whatever gives no records is taken for absence. -/
theorem run_queryRecordDetails_none {host zoneName relative : Str} {name : Name}
    (hname : qname d zoneName relative = .ok name) {rt : RecordType}
    {reply : Except Exc Response} {l' : Line S} (h : l.lookup name rt = (reply, l'))
    (hreply : NoRecords reply) :
    (queryRecordDetailsAtName U d (.str host) zoneName relative rt).run (serverHandler S) l =
      (.ok none, l') := by
  obtain ⟨address, haddress⟩ := run_tcpEndpointHost U host l
  have hsend : (send U (.query name rt) (.str host)).run (serverHandler S) l = (reply, l') := by
    rw [send, Code.run_bind_ok haddress, run_tcp]
    exact h
  unfold queryRecordDetailsAtName
  rw [hname, Code.lift_ok, pure_bind, Code.run_bind, Code.run_tryCatch, Code.run_bind, hsend]
  cases reply with
  | error exc => rfl
  | ok response =>
      have hanswer : response.answer = [] := hreply
      simp only [Code.run_pure, hanswer]
      rfl

/-- An empty answer finds nothing. -/
theorem run_getRecord_nil {host dnsZone recordName : Str} {name : Name}
    (htarget : target (.str host) dnsZone = .ok (bareName dnsZone))
    (hname : qname d (bareName dnsZone) (dnsRelativeName U (bareName dnsZone) recordName) =
      .ok name) {rt : RecordType} {reply : Except Exc Response} {l' : Line S}
    (h : l.lookup name rt = (reply, l')) (hreply : NoRecords reply) :
    (getRecord U d recordName (some rt.text) (.str host) dnsZone).run (serverHandler S) l =
      (.ok [], l') := by
  unfold getRecord queryDnsRecordsAtName
  rw [htarget, Code.lift_ok, pure_bind, lookupRecordTypesToQuery_text, Code.lift_ok, pure_bind,
    queryTypes, Code.run_bind_ok (run_queryRecordDetails_none hname h hreply)]
  rfl

/-- A PUT, PATCH or DELETE whose lookup gives no records is answered with 404. -/
theorem run_change_declined {c : BindConfig U} {request : RecordRequest} {ch : ApiToDns.Change}
    {name : Name} (hread : request.read U = .ok ch)
    (hverb : ∀ ttl values, ch.verb ≠ .create ttl values)
    (htarget : target (.str c.host) c.zone = .ok (bareName c.zone))
    (hname : lookedUp d c ch.name = .ok name) {reply : Except Exc Response} {l' : Line S}
    (h : l.lookup name ch.type = (reply, l')) (hreply : NoRecords reply) :
    ∃ values, ((request.serve U c.settings c.zoneName).translate (client U d)).run
      (serverHandler S) l = (ch.declined c.zoneName c.zone 404 (lit "not_found") values, l') := by
  rw [serve_eq_program c.zoneName c.zone_eq hread, Change.program, Prog.translate_call,
    Prog.run_bind, c.server_eq]
  have hclient : (client U d (.getRecord ch.name (some ch.type.text) (.str c.host) c.zone)).run
      (serverHandler S) l = (.ok [], l') := run_getRecord_nil htarget hname h hreply
  rw [hclient]
  cases hch : ch.verb with
  | create ttl values => exact absurd hch (hverb ttl values)
  | replace ttl values =>
      simp only [Change.afterLookup, Change.onRecords, hch]
      exact ⟨values, rfl⟩
  | patch ttl values =>
      simp only [Change.afterLookup, Change.onRecords, hch]
      exact ⟨values.getD [], rfl⟩
  | delete =>
      simp only [Change.afterLookup, Change.onRecords, hch]
      exact ⟨[], rfl⟩

/-- A PUT, PATCH or DELETE whose lookup fails is no error. -/
theorem not_truthful_of_lost {c : BindConfig U} {request : RecordRequest} {ch : ApiToDns.Change}
    {name : Name} (hread : request.read U = .ok ch)
    (hverb : ∀ ttl values, ch.verb ≠ .create ttl values)
    (htarget : target (.str c.host) c.zone = .ok (bareName c.zone))
    (hname : lookedUp d c ch.name = .ok name) (fault : LookupFault)
    (faults : List (Option LookupFault)) (s : S.State) :
    ¬Truthful d c (serveAttempt S d c ⟨.change request, some fault :: faults⟩ s) := by
  have hlookup : (⟨s, some fault :: faults, false⟩ : Line S).lookup name ch.type =
      (fault.reply, ⟨s, faults, true⟩) := rfl
  obtain ⟨values, hended⟩ :=
    run_change_declined hread hverb htarget hname hlookup (noRecords_reply fault)
  intro htruthful
  have hanswer : (serveAttempt S d c ⟨.change request, some fault :: faults⟩ s).answer =
      .replied (ch.declined c.zoneName c.zone 404 (lit "not_found") values) :=
    congrArg (fun ended : Reply × Line S => RecordAnswer.replied ended.1) hended
  have hfailed : (serveAttempt S d c ⟨.change request, some fault :: faults⟩ s).failed = true :=
    congrArg (fun ended : Reply × Line S => ended.2.failed) hended
  have herror := (htruthful.surfaced hfailed).1
  rw [hanswer] at herror
  cases herror with
  | inl herror =>
      obtain ⟨e, herror⟩ := herror
      contradiction
  | inr herror =>
      obtain ⟨errors, herror⟩ := herror
      contradiction

/-- A PUT, PATCH or DELETE of an RRset that is there, but at or below a zone cut, is
answered with 404. -/
theorem not_truthful_of_delegated (hS : S.Serves) {c : BindConfig U} {request : RecordRequest}
    {ch : ApiToDns.Change} {name : Name} (hread : request.read U = .ok ch)
    (hverb : ∀ ttl values, ch.verb ≠ .create ttl values)
    (htarget : target (.str c.host) c.zone = .ok (bareName c.zone))
    (hname : lookedUp d c ch.name = .ok name) {s : S.State} (hholds : S.Holds s name ch.type)
    (hcut : S.Delegated s name) :
    ¬Truthful d c (serveAttempt S d c ⟨.change request, []⟩ s) := by
  have hlookup : (⟨s, [], false⟩ : Line S).lookup name ch.type =
      (.ok (S.respond s name ch.type), ⟨s, [], false⟩) := rfl
  obtain ⟨values, hended⟩ := run_change_declined hread hverb htarget hname hlookup
    (hS.referral s name ch.type hcut)
  intro htruthful
  have hanswer : (serveAttempt S d c ⟨.change request, []⟩ s).answer =
      .replied (ch.declined c.zoneName c.zone 404 (lit "not_found") values) :=
    congrArg (fun ended : Reply × Line S => RecordAnswer.replied ended.1) hended
  exact htruthful.present name ch.type ⟨ch, hread, hname, rfl⟩ hholds _ hanswer rfl

/-! ## an address that is there -/

/-- The zone `example.com`. -/
def addressConfig : BindConfig Ucd.ascii where
  settings :=
    [(lit "dns_zone", .str (lit "example.com")), (lit "dns_server", .str (lit "192.0.2.53"))]
  zoneName := lit "example.com"
  zone := lit "example.com"
  host := lit "192.0.2.53"
  zone_eq := by decide
  server_eq := rfl

/-- The name `www.example.com`. -/
def wwwName : Name := [lit "www", lit "example", lit "com"]

/-- Nothing is chased, and there are no wildcards. -/
def noSurroundings : Surroundings := ⟨fun _ _ => [], fun _ _ => (0, [])⟩

/-- A server for the zone `example.com`. -/
abbrev exampleServer : NameServer := table [lit "example", lit "com"] fun _ => noSurroundings

/-- The zone has an address for the name, and the zone `sub.example.com` is cut out of
it, with the address of its name server. -/
def addressTable : Table := fun name rt =>
  if name = wwwName ∧ rt = .a then (300, [.address (lit "192.0.2.1")])
  else if name = [lit "sub", lit "example", lit "com"] ∧ rt = .ns then
    (300, [.target [lit "ns", lit "sub", lit "example", lit "com"]])
  else if name = [lit "ns", lit "sub", lit "example", lit "com"] ∧ rt = .a then
    (300, [.address (lit "192.0.2.54")])
  else (0, [])

/-- A POST of another address for a name. -/
def addressBody (recordName : Str) : RecordBody :=
  ⟨.given (lit "example.com"), .given (lit "A"), .given recordName, .given 60,
    .given [lit "192.0.2.2"]⟩

/-- The POST, its lookups going as the list says. -/
def postAttempt (recordName : Str) (faults : List (Option LookupFault)) : Attempt :=
  ⟨.change (.post (addressBody recordName)), faults⟩

/-- The name is the same to both calls. -/
theorem sameName_www : SameName (.plain Ucd.ascii) addressConfig (lit "www") := by
  intro origin name owner horigin hname howner
  have horigin' : (DnsPython.plain Ucd.ascii).nameFromText (bareName addressConfig.zone) root =
      .ok [lit "example", lit "com"] := by decide
  have hname' : lookedUp (.plain Ucd.ascii) addressConfig (lit "www") = .ok wwwName := by decide
  have howner' : ownerName Ucd.ascii (.plain Ucd.ascii) addressConfig.zone (lit "www")
      [lit "example", lit "com"] = .ok wwwName := by decide
  rw [horigin'] at horigin
  rw [← Except.ok.inj horigin, howner'] at howner
  rw [hname'] at hname
  rw [← Except.ok.inj howner, ← Except.ok.inj hname]

/-- The request asks for a new address. -/
theorem read_addressBody : RecordRequest.read Ucd.ascii (.post (addressBody (lit "www"))) =
    .ok ⟨lit "www", .a, .create 60 [lit "192.0.2.2"]⟩ := by
  decide +kernel

/-- The attempt is undisturbed. -/
theorem undisturbed_post : (serveAttempt exampleServer (.plain Ucd.ascii) addressConfig
    (postAttempt (lit "www") [none]) addressTable).Undisturbed (.plain Ucd.ascii)
      addressConfig where
  faults := by
    intro fault hmem
    exact List.mem_singleton.mp hmem
  undelegated := by
    intro name rt hasks _
    obtain ⟨ch, hread, hname, -⟩ := hasks
    have hwww : lookedUp (.plain Ucd.ascii) addressConfig (lit "www") = .ok wwwName := by decide
    rw [read_addressBody] at hread
    rw [← Except.ok.inj hread, hwww] at hname
    rw [← Except.ok.inj hname]
    exact (not_delegated_table_iff addressTable wwwName).mpr (by decide)
  name := by
    intro body ch hcall hread
    rw [← RecordRequest.post.inj (RecordCall.change.inj hcall), read_addressBody] at hread
    rw [← Except.ok.inj hread]
    exact sameName_www

/-- With a lookup that goes well the address stays. -/
theorem lookups_truthful_post :
    Truthful (.plain Ucd.ascii) addressConfig
        (serveAttempt exampleServer (.plain Ucd.ascii) addressConfig
          (postAttempt (lit "www") [none]) addressTable) ∧
      exampleServer.rrset (serveAttempt exampleServer (.plain Ucd.ascii) addressConfig
        (postAttempt (lit "www") [none]) addressTable).after wwwName .a =
          (300, [.address (lit "192.0.2.1")]) := by
  have hall : ∀ e ∈ serveAttempts exampleServer (.plain Ucd.ascii) addressConfig
      [postAttempt (lit "www") [none]] addressTable,
        e.Undisturbed (.plain Ucd.ascii) addressConfig := by
    intro e he
    rw [List.mem_singleton.mp he]
    exact undisturbed_post
  have htruthful := lookups_truthful (.plain Ucd.ascii)
    (table_answers [lit "example", lit "com"] fun _ => noSurroundings).toServes addressConfig
    [postAttempt (lit "www") [none]] addressTable hall _ (List.mem_singleton.mpr rfl)
  exact ⟨htruthful, htruthful.kept (addressBody (lit "www")) rfl wwwName .a (by decide) (by decide)⟩

/-- With lookups that fail the POST overwrites it. -/
theorem not_lookups_truthful :
    ¬∀ e ∈ serveAttempts exampleServer (.plain Ucd.ascii) addressConfig
        [postAttempt (lit "www") [some (.raises (.other (lit "Timeout"))), some .servfail]]
        addressTable,
      Truthful (.plain Ucd.ascii) addressConfig e := by
  intro h
  have hkept := (h _ (List.mem_singleton.mpr rfl)).kept (addressBody (lit "www")) rfl wwwName .a
    (by decide) (by decide)
  revert hkept
  decide +kernel

end ApiToDns.Bind
