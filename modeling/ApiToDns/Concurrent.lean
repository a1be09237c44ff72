import ApiToDns.Lib.Linearize
import ApiToDns.Sequential
import Mathlib.Data.List.Pairwise
import Mathlib.Data.List.Permutation

/-!
# Concurrent

Mutating requests under one zone configuration, each a lookup and later a
write, interleaved at an atomic provider.

Nothing holds the RRset between a request's lookup and its write, so an
interleaving need not be linearizable.  It is whenever no write overtakes one
that its request would have had to see: the RRset is still there, or still not,
and a PATCH finds the field that it does not supply as its lookup saw it.
-/

namespace ApiToDns

open Py

namespace ContractClient

variable {O σ : Type} [DecidableEq O] (C : ContractClient O σ) (U : Ucd) (settings : Dict)
  (zoneName : Str) {ι : Type} (requests : ι → RecordRequest)

/-- The requests, none of which has begun. -/
def start (s : σ) : Config providerSig ι σ Reply :=
  ⟨s, fun i => (requests i).serve U settings zoneName⟩

/-- The record map serving the request `i`. -/
def sequential : Machine ι Outcome (RecordMap O) := fun i m =>
  RecordMap.step U (C.owners U settings) (requests i) m

/-- What the request relies on of the RRset it asks to change is the same in both
states. -/
def Fits (r : RecordRequest) (s s' : σ) : Prop :=
  match r.read U, providerDnsZone U settings with
  | .ok ch, .ok zone =>
      ch.verb.Fits (C.view s (C.owner zone ch.name) ch.type)
        (C.view s' (C.owner zone ch.name) ch.type)
  | _, _ => True

instance (r : RecordRequest) (s s' : σ) : Decidable (C.Fits U settings r s s') :=
  match hread : r.read U, hz : providerDnsZone U settings with
  | .ok ch, .ok zone =>
      decidable_of_iff
        (ch.verb.Fits (C.view s (C.owner zone ch.name) ch.type)
          (C.view s' (C.owner zone ch.name) ch.type))
        (by simp only [Fits, hread, hz])
  | .error _, _ => .isTrue (by simp only [Fits, hread])
  | .ok _, .error _ => .isTrue (by simp only [Fits, hread, hz])

section

variable [DecidableEq ι]

/-- Along the schedule every write finds what its request relies on as the lookup
saw it; `looked i` is the state at the latest lookup of `i`. -/
def Undisturbed (looked : ι → σ) (c : Config providerSig ι σ Reply) : List ι → Prop
  | [] => True
  | i :: is =>
      match c.procs i with
      | .ret _ => Undisturbed looked c is
      | .call (.getRecord ..) _ =>
          Undisturbed (Function.update looked i c.shared) (c.step C.handler i) is
      | .call (.createOrUpdateRecord ..) _ =>
          C.Fits U settings (requests i) (looked i) c.shared ∧
            Undisturbed looked (c.step C.handler i) is

instance decidableUndisturbed (looked : ι → σ) (c : Config providerSig ι σ Reply) :
    (is : List ι) → Decidable (C.Undisturbed U settings requests looked c is)
  | [] => .isTrue trivial
  | i :: is =>
      match hi : c.procs i with
      | .ret _ =>
          @decidable_of_iff _ (C.Undisturbed U settings requests looked c is)
            (by rw [Undisturbed, hi]) (decidableUndisturbed looked c is)
      | .call (.getRecord ..) _ =>
          @decidable_of_iff _ (C.Undisturbed U settings requests
              (Function.update looked i c.shared) (c.step C.handler i) is)
            (by rw [Undisturbed, hi]) (decidableUndisturbed _ _ is)
      | .call (.createOrUpdateRecord ..) _ =>
          @decidable_of_iff _ (C.Fits U settings (requests i) (looked i) c.shared ∧
              C.Undisturbed U settings requests looked (c.step C.handler i) is)
            (by rw [Undisturbed, hi])
            (@instDecidableAnd _ _ inferInstance (decidableUndisturbed _ _ is))

end

/-! ## the steps of one request -/

section

variable {C U settings zoneName requests}

variable (zoneName) in
/-- What a request found leads to an answer, or to one write and an answer. -/
theorem onRecords_cases (zone : Str) (server : Json) (ch : Change) (records : List DnsRecordInfo) :
    (∃ reply, ch.onRecords zoneName zone server records = .ret reply) ∨
      ∃ payload k, ch.onRecords zoneName zone server records =
          .call (.createOrUpdateRecord payload server zone) k ∧ ∀ r, ∃ reply, k r = .ret reply := by
  have hwrite (payload : DnsRecordRequest) (action : Str) (values : List Str) :
      ∃ payload' k, ch.writeThen zoneName zone server payload action values =
          .call (.createOrUpdateRecord payload' server zone) k ∧ ∀ r, ∃ reply, k r = .ret reply := by
    refine ⟨payload, _, rfl, fun r => ?_⟩
    cases r with
    | ok b => exact ⟨_, rfl⟩
    | error exc => exact ⟨_, rfl⟩
  unfold Change.onRecords
  cases ch.verb with
  | create ttl values =>
      cases records with
      | nil => exact .inr (hwrite _ _ _)
      | cons r rs => exact .inl ⟨_, rfl⟩
  | replace ttl values =>
      cases records with
      | nil => exact .inl ⟨_, rfl⟩
      | cons r rs => exact .inr (hwrite _ _ _)
  | patch ttl values =>
      cases records with
      | nil => exact .inl ⟨_, rfl⟩
      | cons r rs =>
          simp only
          cases mergePatch r ttl values with
          | ok merged => exact .inr (hwrite _ _ _)
          | error exc => exact .inl ⟨_, rfl⟩
  | delete =>
      cases records with
      | nil => exact .inl ⟨_, rfl⟩
      | cons r rs => exact .inr (hwrite _ _ _)

/-- A PATCH is merged into two RRsets in the same way if they are the same as far
as it relies on them. -/
theorem mergePatch_congr {rr rr' : RRset} {info info' : DnsRecordInfo} {ttl : Option Int}
    {values : Option (List Str)} (hfits : (Verb.patch ttl values).Fits (some rr) (some rr'))
    (httl : info.ttl = rr.ttl) (hvalues : info.values = rr.values) (httl' : info'.ttl = rr'.ttl)
    (hvalues' : info'.values = rr'.values) :
    mergePatch info ttl values = mergePatch info' ttl values := by
  obtain ⟨hwhole, hkeptTtl, hkeptValues⟩ := hfits
  simp only [Option.map_some, Option.some.injEq, Option.bind_some] at hwhole hkeptTtl hkeptValues
  rw [← httl, ← httl'] at hkeptTtl
  rw [← hvalues, ← hvalues'] at hkeptValues
  have hsame : (∃ t v vs, info.ttl = some t ∧ info.values = some (v :: vs)) ↔
      ∃ t v vs, info'.ttl = some t ∧ info'.values = some (v :: vs) := by
    rw [httl, hvalues, httl', hvalues', ← RRset.whole_iff, ← RRset.whole_iff, hwhole]
  obtain ⟨t, v, vs, ht, hv, hm⟩ | ⟨hno, hm⟩ := mergePatch_cases info ttl values
  · obtain ⟨t', v', vs', ht', hv', hm'⟩ | ⟨hno', -⟩ := mergePatch_cases info' ttl values
    · have hgetTtl : ttl.getD t = ttl.getD t' := by
        cases ttl with
        | some _ => rfl
        | none => exact Option.some.inj (ht.symm.trans ((hkeptTtl rfl).trans ht'))
      have hgetValues : values.getD (v :: vs) = values.getD (v' :: vs') := by
        cases values with
        | some _ => rfl
        | none => exact Option.some.inj (hv.symm.trans ((hkeptValues rfl).trans hv'))
      rw [hm, hm', hgetTtl, hgetValues]
    · obtain ⟨t', v', vs', h'⟩ := hsame.mp ⟨t, v, vs, ht, hv⟩
      exact absurd h' (hno' t' v' vs')
  · obtain ⟨t', v', vs', ht', hv', -⟩ | ⟨-, hm'⟩ := mergePatch_cases info' ttl values
    · obtain ⟨t, v, vs, h⟩ := hsame.mpr ⟨t', v', vs', ht', hv'⟩
      exact absurd h (hno t v vs)
    · rw [hm, hm']

variable (zoneName) in
/-- A change goes on in the same way from two reports of RRsets that are the same
as far as its verb relies on them. -/
theorem onRecords_congr {zone : Str} {server : Json} {ch : Change} {seen now : Option RRset}
    {records records' : List DnsRecordInfo} (hfits : ch.verb.Fits seen now)
    (hseen : Reports seen records) (hnow : Reports now records') :
    ch.onRecords zoneName zone server records = ch.onRecords zoneName zone server records' := by
  unfold Verb.Fits at hfits
  unfold Change.onRecords
  cases seen with
  | none =>
      have hnone : now = none := by
        cases hverb : ch.verb <;> rw [hverb] at hfits <;> cases now <;> simp at hfits ⊢
      rw [hnone] at hnow
      rw [show records = [] from hseen, show records' = [] from hnow]
  | some rr =>
      obtain ⟨rr', hrr'⟩ : ∃ rr', now = some rr' := by
        cases hverb : ch.verb <;> rw [hverb] at hfits <;> cases now <;> simp at hfits ⊢
      rw [hrr'] at hfits hnow
      obtain ⟨info, hinfo, httl, hvalues⟩ := hseen
      obtain ⟨info', hinfo', httl', hvalues'⟩ := hnow
      rw [hinfo, hinfo']
      cases hverb : ch.verb with
      | create ttl values => rfl
      | replace ttl values => rfl
      | delete => rfl
      | patch ttl values =>
          rw [hverb] at hfits
          have hmerge := mergePatch_congr hfits httl hvalues httl' hvalues'
          simp only [hmerge]

variable (C U settings zoneName)

/-- How far a request has come: it has not begun, it is about to write what
its lookup at the state `looked` led to, or it has ended. -/
def Phase (looked : σ) (r : RecordRequest) (p : Prog providerSig Reply) : Prop :=
  p = r.serve U settings zoneName ∨
  (∃ ch zone records, r.read U = .ok ch ∧ providerDnsZone U settings = .ok zone ∧
    Reports (C.view looked (C.owner zone ch.name) ch.type) records ∧
    p = ch.onRecords zoneName zone (dnsServer settings) records) ∨
  ∃ reply, p = .ret reply

variable {C U settings zoneName}

variable (U settings zoneName) in
/-- A request that has not begun has its answer already, or looks up. -/
theorem serve_cases (r : RecordRequest) :
    (∃ reply, r.serve U settings zoneName = .ret reply) ∨
      ∃ ch zone, r.read U = .ok ch ∧ providerDnsZone U settings = .ok zone ∧
        r.serve U settings zoneName = ch.program zoneName zone (dnsServer settings) := by
  cases hread : r.read U with
  | error status =>
      obtain ⟨reply, hserve, -⟩ := serve_of_read_error settings zoneName hread
      exact .inl ⟨reply, hserve⟩
  | ok ch =>
      cases hz : providerDnsZone U settings with
      | error exc =>
          obtain ⟨reply, hserve, -⟩ := serve_of_no_zone zoneName hz hread
          exact .inl ⟨reply, hserve⟩
      | ok zone => exact .inr ⟨ch, zone, rfl, rfl, serve_eq_program zoneName hz hread⟩

/-- What the record map does for a readable request, from the end of a
program that does the same. -/
theorem sequential_of_endsWith {i : ι} {ch : Change} {zone : Str} {s : σ}
    {p : Prog providerSig Reply} (hread : (requests i).read U = .ok ch)
    (hz : providerDnsZone U settings = .ok zone)
    (h : C.EndsWith zone ch s p (ch.onCell (C.view s (C.owner zone ch.name) ch.type))) :
    C.sequential U settings requests i (C.view s) =
      ((p.run C.handler s).1.outcome, C.view (p.run C.handler s).2) := by
  unfold sequential RecordMap.step owners
  rw [hread, hz]
  simp only
  rw [h.1, h.2]

variable [DecidableEq ι]

/-- The lookup of a request: it ends the request as the record map would, or
it is quiet. -/
theorem linearizes_lookup {i : ι} {is : List ι} {c : Config providerSig ι σ Reply} {ch : Change}
    {zone : Str} (hread : (requests i).read U = .ok ch)
    (hz : providerDnsZone U settings = .ok zone)
    (hi : c.procs i = ch.program zoneName zone (dnsServer settings))
    (hrest : ∃ order, Config.Linearizes C.handler C.view Reply.outcome
      (C.sequential U settings requests) is (c.step C.handler i) order) :
    ∃ order, Config.Linearizes C.handler C.view Reply.outcome
      (C.sequential U settings requests) (i :: is) c order := by
  obtain ⟨order, hrest⟩ := hrest
  obtain ⟨records, s', hrun, hreports, hview⟩ :=
    C.lookup c.shared ch.name ch.type (dnsServer settings) zone
  have hseq := sequential_of_endsWith hread hz
    (C.endsWith_program zoneName zone (dnsServer settings) ch c.shared)
  rw [Change.program] at hi
  rw [Change.program, Prog.run_call, hrun] at hseq
  simp only [Change.afterLookup] at hseq
  obtain ⟨reply, hret⟩ | ⟨payload, k, hcall, -⟩ :=
    onRecords_cases zoneName zone (dnsServer settings) ch records
  · rw [hret, Prog.run_ret] at hseq
    have hnext : ch.afterLookup zoneName zone (dnsServer settings)
        (C.handler (.getRecord ch.name (some ch.type.text) (dnsServer settings) zone) c.shared).1 =
          .ret reply := by
      rw [hrun]
      exact hret
    refine ⟨i :: order, .point hi hnext ?_ hrest⟩
    rw [hrun]
    exact hseq
  · have hnext : ch.afterLookup zoneName zone (dnsServer settings)
        (C.handler (.getRecord ch.name (some ch.type.text) (dnsServer settings) zone) c.shared).1 =
          .call (.createOrUpdateRecord payload (dnsServer settings) zone) k := by
      rw [hrun]
      exact hcall
    refine ⟨order, .quiet hi hnext ?_ hrest⟩
    rw [hrun]
    exact hview

/-- The write of a request that finds what it relies on as the lookup saw it ends
the request as the record map would. -/
theorem linearizes_write {i : ι} {is : List ι} {c : Config providerSig ι σ Reply} {ch : Change}
    {zone : Str} {records : List DnsRecordInfo} {payload : DnsRecordRequest}
    {k : Except Exc Bool → Prog providerSig Reply} {seen : Option RRset}
    (hread : (requests i).read U = .ok ch) (hz : providerDnsZone U settings = .ok zone)
    (hreports : Reports seen records)
    (hfits : ch.verb.Fits seen (C.view c.shared (C.owner zone ch.name) ch.type))
    (hi : c.procs i = ch.onRecords zoneName zone (dnsServer settings) records)
    (hcall : ch.onRecords zoneName zone (dnsServer settings) records =
      .call (.createOrUpdateRecord payload (dnsServer settings) zone) k)
    (hend : ∀ r, ∃ reply, k r = .ret reply)
    (hrest : ∃ order, Config.Linearizes C.handler C.view Reply.outcome
      (C.sequential U settings requests) is (c.step C.handler i) order) :
    ∃ order, Config.Linearizes C.handler C.view Reply.outcome
      (C.sequential U settings requests) (i :: is) c order := by
  obtain ⟨order, hrest⟩ := hrest
  obtain ⟨records', -, -, hreports', -⟩ :=
    C.lookup c.shared ch.name ch.type (dnsServer settings) zone
  have hseq := sequential_of_endsWith hread hz
    (C.endsWith_onRecords zoneName zone (dnsServer settings) ch hreports')
  rw [← onRecords_congr zoneName hfits hreports hreports'] at hseq
  obtain ⟨reply, hnext⟩ := hend
    (C.handler (.createOrUpdateRecord payload (dnsServer settings) zone) c.shared).1
  rw [hcall, Prog.run_call, hnext, Prog.run_ret] at hseq
  exact ⟨i :: order, .point (hi.trans hcall) hnext hseq hrest⟩

/-- The step of a program changes how far it has come, and not the others. -/
theorem phase_step {looked looked' : ι → σ} {c : Config providerSig ι σ Reply} {i : ι}
    (h : ∀ j, C.Phase U settings zoneName (looked j) (requests j) (c.procs j))
    (hlooked : ∀ j, j ≠ i → looked' j = looked j)
    (hi : C.Phase U settings zoneName (looked' i) (requests i) ((c.step C.handler i).procs i)) :
    ∀ j, C.Phase U settings zoneName (looked' j) (requests j) ((c.step C.handler i).procs j) := by
  intro j
  by_cases hij : j = i
  · subst hij
    exact hi
  · rw [Config.procs_step_of_ne hij, hlooked j hij]
    exact h j

/-- Undisturbed runs are linearised against the record map. -/
theorem linearizes_of_undisturbed {sched : List ι} {looked : ι → σ}
    {c : Config providerSig ι σ Reply}
    (hphase : ∀ i, C.Phase U settings zoneName (looked i) (requests i) (c.procs i))
    (hund : C.Undisturbed U settings requests looked c sched) :
    ∃ order, Config.Linearizes C.handler C.view Reply.outcome
      (C.sequential U settings requests) sched c order := by
  induction sched generalizing looked c with
  | nil => exact ⟨[], .nil⟩
  | cons i is ih =>
      have hended {reply : Reply} (hi : c.procs i = .ret reply) :
          ∃ order, Config.Linearizes C.handler C.view Reply.outcome
            (C.sequential U settings requests) (i :: is) c order := by
        unfold Undisturbed at hund
        rw [hi] at hund
        obtain ⟨order, hl⟩ := ih hphase hund
        exact ⟨order, .ended hi hl⟩
      obtain hserve | ⟨ch, zone, records, hread, hz, hreports, hi⟩ | ⟨reply, hi⟩ := hphase i
      · obtain ⟨reply, hret⟩ | ⟨ch, zone, hread, hz, hprog⟩ :=
          serve_cases U settings zoneName (requests i)
        · exact hended (hserve.trans hret)
        · have hi := hserve.trans hprog
          unfold Undisturbed at hund
          rw [hi, Change.program] at hund
          refine linearizes_lookup hread hz hi (ih ?_ hund)
          refine phase_step hphase (fun _ hij => Function.update_of_ne hij _ _) ?_
          obtain ⟨records, s', hrun, hreports, -⟩ :=
            C.lookup c.shared ch.name ch.type (dnsServer settings) zone
          rw [Function.update_self, Config.procs_step_self hi, hrun]
          exact .inr (.inl ⟨ch, zone, records, hread, hz, hreports, rfl⟩)
      · obtain ⟨reply, hret⟩ | ⟨payload, k, hcall, hend⟩ :=
          onRecords_cases zoneName zone (dnsServer settings) ch records
        · exact hended (hi.trans hret)
        · unfold Undisturbed at hund
          rw [hi, hcall] at hund
          obtain ⟨hfits, hund⟩ := hund
          simp only [Fits, hread, hz] at hfits
          refine linearizes_write hread hz hreports hfits hi hcall hend (ih ?_ hund)
          refine phase_step hphase (fun _ _ => rfl) ?_
          rw [Config.procs_step_self (hi.trans hcall)]
          exact .inr (.inr (hend _))
      · exact hended hi

end

/-! ## linearizability -/

section

variable {n : Nat} (requests : Fin n → RecordRequest)

/-- A run of the schedule from `s` ends every request. -/
def Completes (s : σ) (sched : List (Fin n)) : Prop :=
  ∀ i, ((start U settings zoneName requests s).run C.handler sched).answer? Reply.outcome i ≠ none

instance (s : σ) (sched : List (Fin n)) :
    Decidable (C.Completes U settings zoneName requests s sched) :=
  inferInstanceAs (Decidable (∀ _, _ ≠ _))

/-- The run has the answers and the final records of the requests served one
after the other in some order. -/
def Linearizable (s : σ) (sched : List (Fin n)) : Prop :=
  ∃ order : List (Fin n), order.Perm (List.finRange n) ∧
    let final := (start U settings zoneName requests s).run C.handler sched
    let serial := (C.server U).runAll
      (order.map fun i => ⟨settings, zoneName, requests i⟩) s
    (serial.1.map Reply.outcome).map some = order.map (final.answer? Reply.outcome) ∧
      C.view serial.2 = C.view final.shared

variable {C U settings zoneName requests}

variable (C U settings zoneName requests) in
/-- Serving a list of the requests is running the record map on it. -/
theorem runAll_sequential (order : List (Fin n)) (s : σ) :
    (C.sequential U settings requests).runAll order (C.view s) =
      (((C.server U).runAll (order.map fun i => ⟨settings, zoneName, requests i⟩) s).1.map
          Reply.outcome,
        C.view ((C.server U).runAll (order.map fun i => ⟨settings, zoneName, requests i⟩) s).2) := by
  induction order generalizing s with
  | nil => rfl
  | cons i is ih =>
      have hstep := C.reference_step U ⟨settings, zoneName, requests i⟩ s
      have hi : C.sequential U settings requests i (C.view s) = _ := hstep
      rw [Machine.runAll_cons, hi, List.map_cons, Machine.runAll_cons, ih]
      rfl

/-- A request that has its answer before any step changes nothing. -/
theorem sequential_of_answered {s : σ} {i : Fin n} {outcome : Outcome}
    (h : (start U settings zoneName requests s).answer? Reply.outcome i = some outcome)
    (m : RecordMap O) : C.sequential U settings requests i m = (outcome, m) := by
  have hret {reply : Reply} (hserve : (requests i).serve U settings zoneName = .ret reply) :
      outcome = reply.outcome := by
    have hi : (start U settings zoneName requests s).procs i = .ret reply := hserve
    rw [Config.answer?_of_ret hi] at h
    exact (Option.some.inj h).symm
  unfold sequential RecordMap.step owners
  cases hread : (requests i).read U with
  | error status =>
      obtain ⟨reply, hserve, hreply⟩ := serve_of_read_error settings zoneName hread
      rw [hret hserve, hreply]
  | ok ch =>
      cases hz : providerDnsZone U settings with
      | error exc =>
          obtain ⟨reply, hserve, hreply⟩ := serve_of_no_zone zoneName hz hread
          rw [hret hserve, hreply]
      | ok zone =>
          have hi : (start U settings zoneName requests s).procs i =
              ch.program zoneName zone (dnsServer settings) := serve_eq_program zoneName hz hread
          rw [Change.program] at hi
          rw [Config.answer?_of_call hi] at h
          contradiction

/-- The linearisation points of a run that ends every request, and the
requests that had their answer before, are all the requests. -/
theorem perm_of_completes {s : σ} {sched order : List (Fin n)}
    (hl : Config.Linearizes C.handler C.view Reply.outcome (C.sequential U settings requests) sched
      (start U settings zoneName requests s) order)
    (hcomplete : C.Completes U settings zoneName requests s sched) :
    (order ++ (List.finRange n).filter fun i =>
      ((start U settings zoneName requests s).answer? Reply.outcome i).isSome).Perm
        (List.finRange n) := by
  obtain ⟨hnodup, hmem⟩ := Config.mem_order hl
  have hfilter := (List.nodup_finRange n).filter fun i =>
    ((start U settings zoneName requests s).answer? Reply.outcome i).isSome
  refine (List.perm_ext_iff_of_nodup ?_ (List.nodup_finRange n)).mpr fun i => ?_
  · refine List.nodup_append.mpr ⟨hnodup, hfilter, fun i hi j hj hij => ?_⟩
    have hnone := ((hmem i).mp hi).1
    have hsome := (List.mem_filter.mp hj).2
    rw [← hij, hnone] at hsome
    contradiction
  · rw [List.mem_append, List.mem_filter, hmem i]
    have hend := hcomplete i
    cases hi : (start U settings zoneName requests s).answer? Reply.outcome i with
    | none => simpa using hend
    | some outcome => simp

/-- An undisturbed run that ends every request is linearizable. -/
theorem linearizable_of_undisturbed {s : σ} {sched : List (Fin n)}
    (hund : C.Undisturbed U settings requests (fun _ => s)
      (start U settings zoneName requests s) sched)
    (hcomplete : C.Completes U settings zoneName requests s sched) :
    C.Linearizable U settings zoneName requests s sched := by
  obtain ⟨order, hl⟩ := linearizes_of_undisturbed (fun i => .inl rfl) hund
  obtain ⟨hview, hanswers⟩ := Config.runAll_of_linearizes hl
  have hshared : (start U settings zoneName requests s).shared = s := rfl
  rw [hshared] at hview hanswers
  have hperm := perm_of_completes hl hcomplete
  generalize hrest : (List.finRange n).filter (fun i =>
    ((start U settings zoneName requests s).answer? Reply.outcome i).isSome) = rest at hperm
  -- the requests that were answered at once may come last
  have hstay (m : RecordMap O) : (C.sequential U settings requests).runAll rest m =
      (rest.map fun i => (C.sequential U settings requests i m).1, m) := by
    refine Machine.runAll_of_stay fun i hi => ?_
    rw [← hrest, List.mem_filter] at hi
    obtain ⟨outcome, hsome⟩ := Option.isSome_iff_exists.mp hi.2
    rw [sequential_of_answered hsome]
  have hafter (m : RecordMap O) : (rest.map fun i =>
      some (C.sequential U settings requests i m).1) =
      rest.map (((start U settings zoneName requests s).run C.handler sched).answer?
        Reply.outcome) := by
    refine List.map_congr_left fun i hi => ?_
    rw [← hrest, List.mem_filter] at hi
    obtain ⟨outcome, hsome⟩ := Option.isSome_iff_exists.mp hi.2
    rw [sequential_of_answered hsome, Config.answer?_run sched hsome]
  have hserial := runAll_sequential C U settings zoneName requests (order ++ rest) s
  rw [Machine.runAll_append, hstay, hview] at hserial
  obtain ⟨houtcomes, hstore⟩ := Prod.mk.inj hserial
  refine ⟨order ++ rest, hperm, ?_, hstore.symm⟩
  rw [← houtcomes, List.map_append, List.map_append, hanswers, List.map_map]
  exact congrArg (_ ++ ·) (hafter _)

/-! ## what linearizability gives -/

variable (C U settings requests)

/-- Every request is about the RRset of type `t` at `o`. -/
def About (o : O) (t : RecordType) : Prop :=
  ∀ i ch zone, (requests i).read U = .ok ch → providerDnsZone U settings = .ok zone →
    C.owner zone ch.name = o ∧ ch.type = t

variable {C U settings requests}

/-- A request about an RRset is refused, or acts on that RRset. -/
theorem sequential_cases {o : O} {t : RecordType} (habout : C.About U settings requests o t)
    (i : Fin n) (m : RecordMap O) :
    (∃ status, C.sequential U settings requests i m = (.failed status, m)) ∨
      ∃ ch, (requests i).read U = .ok ch ∧
        C.sequential U settings requests i m =
          ((ch.onCell (m o t)).1, m.set o t (ch.onCell (m o t)).2) := by
  unfold sequential RecordMap.step owners
  cases hread : (requests i).read U with
  | error status => exact .inl ⟨status, rfl⟩
  | ok ch =>
      cases hz : providerDnsZone U settings with
      | error exc => exact .inl ⟨400, rfl⟩
      | ok zone =>
          obtain ⟨howner, htype⟩ := habout i ch zone hread hz
          right
          refine ⟨ch, rfl, ?_⟩
          simp only [howner, htype]

/-- The answers of a linearizable run, in its sequential order. -/
theorem answers_of_linearizable {s : σ} {sched : List (Fin n)}
    (h : C.Linearizable U settings zoneName requests s sched) :
    ∃ order : List (Fin n), order.Perm (List.finRange n) ∧
      ((C.sequential U settings requests).runAll order (C.view s)).1.map some =
        order.map (((start U settings zoneName requests s).run C.handler sched).answer?
          Reply.outcome) ∧
      ((C.sequential U settings requests).runAll order (C.view s)).2 =
        C.view ((start U settings zoneName requests s).run C.handler sched).shared := by
  obtain ⟨order, hperm, hanswers, hstore⟩ := h
  have hseq := runAll_sequential C U settings zoneName requests order s
  refine ⟨order, hperm, ?_, ?_⟩
  · rw [hseq]
    exact hanswers
  · rw [hseq]
    exact hstore

/-- A POST that creates an RRset finds none and leaves one. -/
theorem created_step {o : O} {t : RecordType} (habout : C.About U settings requests o t)
    (hpost : ∀ i, ∃ body, requests i = .post body) (i : Fin n) (m : RecordMap O) :
    ((C.sequential U settings requests i m).1.IsCreated → m o t = none) ∧
      ((C.sequential U settings requests i m).1.IsCreated ∨ m o t ≠ none →
        (C.sequential U settings requests i m).2 o t ≠ none) := by
  obtain ⟨status, hseq⟩ | ⟨ch, hread, hseq⟩ := sequential_cases habout i m
  · rw [hseq]
    have hnot : ¬(Outcome.failed status).IsCreated := by simp [Outcome.IsCreated]
    exact ⟨fun h => absurd h hnot, fun h => h.resolve_left hnot⟩
  · obtain ⟨body, hbody⟩ := hpost i
    rw [hbody] at hread
    obtain ⟨ttl, values, hverb⟩ := verb_of_read_post hread
    rw [hseq]
    cases hcell : m o t with
    | none =>
        refine ⟨fun _ => rfl, fun _ => ?_⟩
        simp [Change.onCell, hverb]
    | some rr =>
        refine ⟨fun h => ?_, fun _ => ?_⟩
        · simp only [Change.onCell, hverb, Outcome.IsCreated, Outcome.action_answered,
            Option.some.injEq] at h
          exact absurd h (by decide)
        · simp [Change.onCell, hverb]

/-- Served in sequence, POSTs about one RRset create it at most once. -/
theorem created_once_sequential {o : O} {t : RecordType}
    (habout : C.About U settings requests o t) (hpost : ∀ i, ∃ body, requests i = .post body)
    (order : List (Fin n)) (m : RecordMap O) :
    (m o t ≠ none → ∀ out ∈ ((C.sequential U settings requests).runAll order m).1,
      ¬out.IsCreated) ∧
    ((C.sequential U settings requests).runAll order m).1.Pairwise
      fun a b => ¬(a.IsCreated ∧ b.IsCreated) := by
  induction order generalizing m with
  | nil => simp
  | cons i is ih =>
      obtain ⟨hfound, hleft⟩ := created_step habout hpost i m
      have hrest := ih (C.sequential U settings requests i m).2
      rw [Machine.runAll_cons]
      refine ⟨fun hne out hout => ?_, ?_⟩
      · cases List.mem_cons.mp hout with
        | inl hout =>
            rw [hout]
            exact fun h => hne (hfound h)
        | inr hout => exact hrest.1 (hleft (.inr hne)) out hout
      · refine List.pairwise_cons.mpr ⟨fun out hout h => ?_, hrest.2⟩
        exact hrest.1 (hleft (.inl h.1)) out hout h.2

/-- In a linearizable run of POSTs about one RRset at most one answers that
it created the RRset. -/
theorem created_once {o : O} {t : RecordType} {s : σ} {sched : List (Fin n)}
    (h : C.Linearizable U settings zoneName requests s sched)
    (habout : C.About U settings requests o t) (hpost : ∀ i, ∃ body, requests i = .post body)
    {i j : Fin n} {a b : Outcome}
    (hi : ((start U settings zoneName requests s).run C.handler sched).answer? Reply.outcome i =
      some a) (ha : a.IsCreated)
    (hj : ((start U settings zoneName requests s).run C.handler sched).answer? Reply.outcome j =
      some b) (hb : b.IsCreated) : i = j := by
  obtain ⟨order, hperm, hanswers, -⟩ := answers_of_linearizable h
  have hpair := (created_once_sequential habout hpost order (C.view s)).2
  generalize ((C.sequential U settings requests).runAll order (C.view s)).1 = outs
    at hanswers hpair
  generalize (start U settings zoneName requests s).run C.handler sched = final
    at hanswers hi hj
  have hcreated : order.Pairwise fun k l =>
      ¬((∃ a, final.answer? Reply.outcome k = some a ∧ a.IsCreated) ∧
        ∃ b, final.answer? Reply.outcome l = some b ∧ b.IsCreated) := by
    rw [← List.pairwise_map (f := final.answer? Reply.outcome)
      (R := fun x y => ¬((∃ a, x = some a ∧ a.IsCreated) ∧ ∃ b, y = some b ∧ b.IsCreated)),
      ← hanswers, List.pairwise_map]
    refine hpair.imp fun {x y} hxy hcreated => hxy ?_
    obtain ⟨⟨a, hax, ha⟩, b, hby, hb⟩ := hcreated
    rw [Option.some.inj hax, Option.some.inj hby]
    exact ⟨ha, hb⟩
  have hsymm : Std.Symm fun k l : Fin n =>
      ¬((∃ a, final.answer? Reply.outcome k = some a ∧ a.IsCreated) ∧
        ∃ b, final.answer? Reply.outcome l = some b ∧ b.IsCreated) :=
    ⟨fun _ _ hkl hlk => hkl ⟨hlk.2, hlk.1⟩⟩
  by_contra hij
  have hmem (k : Fin n) : k ∈ order := hperm.mem_iff.mpr (List.mem_finRange k)
  exact hcreated.forall (hmem i) (hmem j) hij ⟨⟨a, hi, ha⟩, b, hj, hb⟩

/-! ### fields of a PATCH -/

/-- The field that the answered request `i` set: what its change supplies, if
it updated the RRset. -/
def setsField {φ : Type} (U : Ucd) (requests : Fin n → RecordRequest) (supplied : Verb → Option φ)
    (i : Fin n) (out : Outcome) : Option φ :=
  if out.IsUpdated then
    match (requests i).read U with
    | .ok ch => supplied ch.verb
    | .error _ => none
  else none

/-- What a PATCH leaves of a field: what it sets, else what there was. -/
theorem patch_step {φ : Type} {field : RRset → Option φ} {supplied : Verb → Option φ} {o : O}
    {t : RecordType} (habout : C.About U settings requests o t)
    (hpatch : ∀ i, ∃ body, requests i = .patch body)
    (hfield : ∀ (ch : Change) ttl values, ch.verb = .patch ttl values → ∀ cell,
      ((ch.onCell cell).1.IsUpdated ∧
        (ch.onCell cell).2.bind field = (supplied ch.verb).or (cell.bind field)) ∨
      (¬(ch.onCell cell).1.IsUpdated ∧ (ch.onCell cell).2 = cell))
    (i : Fin n) (m : RecordMap O) :
    ((C.sequential U settings requests i m).2 o t).bind field =
      (setsField U requests supplied i (C.sequential U settings requests i m).1).or
        ((m o t).bind field) := by
  obtain ⟨status, hseq⟩ | ⟨ch, hread, hseq⟩ := sequential_cases habout i m
  · rw [hseq]
    simp [setsField, Outcome.IsUpdated]
  · obtain ⟨body, hbody⟩ := hpatch i
    have hverb := verb_of_read_patch (hbody ▸ hread)
    obtain ⟨ttl, values, hverb⟩ := hverb
    rw [hseq]
    simp only [RecordMap.set_self, setsField, hread]
    obtain ⟨hup, hset⟩ | ⟨hnot, hkept⟩ := hfield ch ttl values hverb (m o t)
    · rw [if_pos hup, hset]
    · rw [if_neg hnot, hkept, Option.none_or]

/-- In a linearizable run of PATCHes about one RRset, a field that some
successful PATCH set ends as a successful PATCH set it. -/
theorem field_kept {φ : Type} {field : RRset → Option φ} {supplied : Verb → Option φ} {o : O}
    {t : RecordType} {s : σ} {sched : List (Fin n)}
    (h : C.Linearizable U settings zoneName requests s sched)
    (habout : C.About U settings requests o t) (hpatch : ∀ i, ∃ body, requests i = .patch body)
    (hfield : ∀ (ch : Change) ttl values, ch.verb = .patch ttl values → ∀ cell,
      ((ch.onCell cell).1.IsUpdated ∧
        (ch.onCell cell).2.bind field = (supplied ch.verb).or (cell.bind field)) ∨
      (¬(ch.onCell cell).1.IsUpdated ∧ (ch.onCell cell).2 = cell))
    {i : Fin n} {out : Outcome}
    (hi : ((start U settings zoneName requests s).run C.handler sched).answer? Reply.outcome i =
      some out) {x : φ} (hx : setsField U requests supplied i out = some x) :
    ∃ j out' x', ((start U settings zoneName requests s).run C.handler sched).answer?
        Reply.outcome j = some out' ∧ setsField U requests supplied j out' = some x' ∧
      (C.view ((start U settings zoneName requests s).run C.handler sched).shared o t).bind field =
        some x' := by
  obtain ⟨order, hperm, hanswers, hstore⟩ := answers_of_linearizable h
  have hlast := Machine.runAll_field (fun m : RecordMap O => (m o t).bind field) _
    (fun i m => patch_step habout hpatch hfield i m) order (C.view s)
  rw [hstore] at hlast
  generalize ((C.sequential U settings requests).runAll order (C.view s)).1 = outs
    at hanswers hlast
  generalize (start U settings zoneName requests s).run C.handler sched = final
    at hanswers hi hlast ⊢
  have hmem : (i, out) ∈ order.zip outs :=
    (Machine.mem_zip_iff_of_map_some hanswers i out).mpr
      ⟨hperm.mem_iff.mpr (List.mem_finRange i), hi⟩
  cases hfound : (order.zip outs).reverse.findSome? fun p =>
      setsField U requests supplied p.1 p.2 with
  | none =>
      rw [List.findSome?_eq_none_iff] at hfound
      have hnone := hfound (i, out) (List.mem_reverse.mpr hmem)
      rw [hx] at hnone
      contradiction
  | some x' =>
      rw [hfound, Option.some_or] at hlast
      obtain ⟨⟨j, out'⟩, hj, hx'⟩ := List.exists_of_findSome?_eq_some hfound
      have hanswer := (Machine.mem_zip_iff_of_map_some hanswers j out').mp (List.mem_reverse.mp hj)
      exact ⟨j, out', x', hanswer.2, hx', hlast⟩

/-! ## undisturbed runs -/

/-- A configuration of the zone `example.com`. -/
def exampleSettings : Dict := [(lit "dns_zone", .str (lit "example.com"))]

/-- The client over the map whose owners are the record names. -/
def nameClient : ContractClient Str (RecordMap Str) := mapClient fun _ name => name

/-- A body about the TXT records of `www`. -/
def wwwTxt (ttl : Field Int) (values : Field (List Str)) : RecordBody :=
  ⟨.absent, .given (lit "TXT"), .given (lit "www"), ttl, values⟩

/-- A store whose only RRset is TXT at `www`. -/
def wwwStore : RecordMap Str :=
  RecordMap.set (fun _ _ => none) (lit "www") .txt (some (.full 300 [lit "old"]))

variable (C U settings zoneName requests)

/-- At most one request of the run answered that it created the RRset. -/
def CreatedOnce (s : σ) (sched : List (Fin n)) : Prop :=
  let final := (start U settings zoneName requests s).run C.handler sched
  ∀ i j a b, final.answer? Reply.outcome i = some a → a.IsCreated →
    final.answer? Reply.outcome j = some b → b.IsCreated → i = j

/-- A field of the RRset that a successful request of the run set ends as a
successful request of the run set it. -/
def FieldKept {φ : Type} (field : RRset → Option φ) (supplied : Verb → Option φ) (o : O)
    (t : RecordType) (s : σ) (sched : List (Fin n)) : Prop :=
  let final := (start U settings zoneName requests s).run C.handler sched
  ∀ i out x, final.answer? Reply.outcome i = some out →
    setsField U requests supplied i out = some x →
    ∃ j out' x', final.answer? Reply.outcome j = some out' ∧
      setsField U requests supplied j out' = some x' ∧
      (C.view final.shared o t).bind field = some x'

variable {C U settings zoneName requests}

/-- A run that ends every request, and in which every write finds what its request
relies on as its lookup saw it, is linearizable.  So of concurrent POSTs on
one RRset at most one creates it, and concurrent PATCHes of one RRset undo no
field they do not supply. -/
theorem undisturbed_runs {s : σ} {sched : List (Fin n)}
    (hund : C.Undisturbed U settings requests (fun _ => s)
      (start U settings zoneName requests s) sched)
    (hcomplete : C.Completes U settings zoneName requests s sched) :
    C.Linearizable U settings zoneName requests s sched ∧
      ∀ o t, C.About U settings requests o t →
        ((∀ i, ∃ body, requests i = .post body) →
          C.CreatedOnce U settings zoneName requests s sched) ∧
        ((∀ i, ∃ body, requests i = .patch body) →
          C.FieldKept U settings zoneName requests RRset.ttl Verb.ttl? o t s sched ∧
          C.FieldKept U settings zoneName requests RRset.values Verb.values? o t s sched) := by
  have hlin := linearizable_of_undisturbed hund hcomplete
  refine ⟨hlin, fun o t habout => ⟨fun hpost => ?_, fun hpatch => ⟨?_, ?_⟩⟩⟩
  · intro i j a b hi ha hj hb
    exact created_once hlin habout hpost hi ha hj hb
  · intro i out ttl hi hset
    refine field_kept hlin habout hpatch (fun ch ttl values hverb cell => ?_) hi hset
    have hcell := onCell_patch hverb cell
    rw [hverb]
    exact hcell.imp (fun h => ⟨h.1, h.2.1⟩) id
  · intro i out values hi hset
    refine field_kept hlin habout hpatch (fun ch ttl values hverb cell => ?_) hi hset
    have hcell := onCell_patch hverb cell
    rw [hverb]
    exact hcell.imp (fun h => ⟨h.1, h.2.2⟩) id

/-- A PUT, a PATCH of both fields and a DELETE. -/
def overlapping : Fin 3 → RecordRequest
  | 0 => .put (wwwTxt (.given 60) (.given [lit "new"]))
  | 1 => .patch (wwwTxt (.given 120) (.given [lit "newer"]))
  | 2 => .delete (some []) (some (lit "www")) (some (lit "TXT"))

/-- All three look up before any of them writes, and each write finds the RRset. -/
theorem linearizable_overlapping :
    nameClient.Linearizable Ucd.ascii exampleSettings [] overlapping wwwStore [0, 1, 2, 0, 1, 2] :=
  (undisturbed_runs (by decide) (by decide)).1

end

end ContractClient

/-! ## runs that are not linearizable -/

section

open ContractClient

/-- A run whose outcome no order of the requests gives, at the RRset of type
`t` at `o`, is not linearizable. -/
theorem not_linearizable {n : Nat} {requests : Fin n → RecordRequest} {s : RecordMap Str}
    {sched : List (Fin n)} (o : Str) (t : RecordType)
    (h : ∀ order ∈ (List.finRange n).permutations',
      let final := (start Ucd.ascii exampleSettings [] requests s).run nameClient.handler sched
      let serial := (nameClient.server Ucd.ascii).runAll
        (order.map fun i => ⟨exampleSettings, [], requests i⟩) s
      ¬((serial.1.map Reply.outcome).map some = order.map (final.answer? Reply.outcome) ∧
        nameClient.view serial.2 o t = nameClient.view final.shared o t)) :
    ¬nameClient.Linearizable Ucd.ascii exampleSettings [] requests s sched := by
  intro hlin
  obtain ⟨order, hperm, hanswers, hstore⟩ := hlin
  exact h order (List.mem_permutations'.mpr hperm)
    ⟨hanswers, congrFun (congrFun hstore o) t⟩

/-- Two POSTs that both look up before either writes. -/
def racingPosts : Fin 2 → RecordRequest :=
  fun i => .post (wwwTxt .absent (.given [if i = 0 then lit "one" else lit "two"]))

/-- A PATCH of the TTL and a PATCH of the values. -/
def racingPatches : Fin 2 → RecordRequest :=
  fun i => .patch (if i = 0 then wwwTxt (.given 60) .absent
    else wwwTxt .absent (.given [lit "new"]))

/-- A POST that overwrites what another POST created, and a PATCH that undoes
another's TTL: both answer as if they had been alone. -/
theorem lost_creation_and_patch :
    (nameClient.Completes Ucd.ascii exampleSettings [] racingPosts (fun _ _ => none)
        [0, 1, 0, 1] ∧
      ¬nameClient.Linearizable Ucd.ascii exampleSettings [] racingPosts (fun _ _ => none)
        [0, 1, 0, 1]) ∧
    (nameClient.Completes Ucd.ascii exampleSettings [] racingPatches wwwStore [0, 1, 0, 1] ∧
      ¬nameClient.Linearizable Ucd.ascii exampleSettings [] racingPatches wwwStore
        [0, 1, 0, 1]) := by
  refine ⟨⟨by decide, ?_⟩, by decide, ?_⟩
  · exact not_linearizable (lit "www") .txt (by decide)
  · exact not_linearizable (lit "www") .txt (by decide)

end

end ApiToDns
