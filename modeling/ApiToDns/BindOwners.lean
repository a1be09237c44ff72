import ApiToDns.Lookups
import Mathlib.Data.List.Perm.Basic

/-!
# BindOwners

What the BIND client takes for an RRset.  A server answers a question about a name
that is an alias with the alias and what its target has, a question about a name that
does not exist with what a wildcard gives, and a question about a name at or below a
zone cut with a referral; the client reads such answers by type, or only looks whether
there is one, and never at the owner.

* `Exact` — lookups and answers of requests tell whether the RRset is there;
* `exact_iff` — the names and types for which they do.
-/

namespace ApiToDns.Bind

open Py

variable {U : Ucd} {d : DnsPython}

/-! ## what is promised -/

variable (d) (S : NameServer) (around : S.State → Surroundings) (c : BindConfig U) (s : S.State)
  (recordName : Str) (name : Name) (rt : RecordType)

/-- `get_record` for the name and the type. -/
def looked : Except Exc (List DnsRecordInfo) :=
  ((getRecord U d recordName (some rt.text) (.str c.host) c.zone).run (serverHandler S)
    ⟨s, [], false⟩).1

/-- `record_existed_before_update` for them. -/
def existedBefore : Except Exc Bool :=
  ((recordExistsAtName U d (.str c.host) (bareName c.zone)
    (dnsRelativeName U (bareName c.zone) recordName) rt).run (serverHandler S)
      ⟨s, [], false⟩).1

/-- The status of the answer to a change. -/
def statusOf (request : RecordRequest) : Nat :=
  (((request.serve U c.settings c.zoneName).translate (client U d)).run (serverHandler S)
    ⟨s, [], false⟩).1.httpStatus

variable (U) in
/-- The values of the RRset, as the program writes them. -/
def valuesAt : Except Exc (List Str) := (S.rrset s name rt).2.mapM (formatRdataValue U d rt)

/-- The entry of an RRset. -/
def entryOf (ttl : Nat) (values : List Str) : DnsRecordInfo :=
  let relative := dnsRelativeName U (bareName c.zone) recordName
  ⟨if relative = ['@'] ∨ relative = [] then ['@'] else relative, rt.text, some ttl, some values⟩

/-- Lookups and answers tell whether the RRset is there; a server has no order for the
data of one. -/
structure Exact : Prop where
  found : S.Holds s name rt → ∃ values answered, valuesAt U d S s name rt = .ok values ∧
    answered.Perm values ∧
      looked d S c s recordName rt =
        .ok [entryOf c recordName rt (S.rrset s name rt).1 answered]
  absent : ¬S.Holds s name rt → looked d S c s recordName rt = .ok []
  existed : existedBefore d S c s recordName rt = .ok (decide (S.Holds s name rt))
  created : ∀ request ttl values, request.read U = .ok ⟨recordName, rt, .create ttl values⟩ →
    (statusOf d S c s request = 409 ↔ S.Holds s name rt)
  changed : ∀ request verb, request.read U = .ok ⟨recordName, rt, verb⟩ →
    (∀ ttl values, verb ≠ .create ttl values) →
      (statusOf d S c s request = 404 ↔ ¬S.Holds s name rt)

variable (U) in
/-- The zone holds the RRset, with values that the program can write and not at or below
a zone cut, or the server answers with nothing. -/
structure Settled : Prop where
  readable : S.Holds s name rt → ∃ values, valuesAt U d S s name rt = .ok values
  undelegated : S.Holds s name rt → ¬S.Delegated s name
  unadorned : ¬S.Holds s name rt → S.Delegated s name ∨
    Unadorned (around s) (S.rrset s) name rt

variable {d S around c s recordName name rt}

/-! ## lookups -/

/-- A fresh connection is clean. -/
theorem clean_line (s : S.State) : Line.Clean (⟨s, [], false⟩ : Line S) :=
  ⟨fun _ hmem => absurd hmem List.not_mem_nil, rfl⟩

/-- An RRset that the zone does not hold is answered with nothing exactly if nothing
takes its place. -/
theorem answer_eq_nil_iff (hS : S.Answers around) (h : ¬S.Holds s name rt) :
    (S.respond s name rt).answer = [] ↔
      S.Delegated s name ∨ Unadorned (around s) (S.rrset s) name rt := by
  by_cases hcut : S.Delegated s name
  · exact iff_of_true (hS.referral s name rt hcut) (.inl hcut)
  · rw [hS.absent s name rt h hcut, additions_eq_nil_iff, or_iff_right hcut]

/-- A record exists if the server answers with it. -/
theorem existed_eq (hname : lookedUp d c recordName = .ok name) :
    existedBefore d S c s recordName rt = .ok (!(S.respond s name rt).answer.isEmpty) := by
  unfold existedBefore recordExistsAtName
  rw [show qname d (bareName c.zone) (dnsRelativeName U (bareName c.zone) recordName) = .ok name
    from hname, Code.lift_ok, pure_bind, Code.run_tryCatch,
    Code.run_bind_ok (run_send_query (clean_line s) name rt c.host)]
  rfl

/-- A lookup reads the answer section. -/
theorem looked_eq (hname : lookedUp d c recordName = .ok name)
    (htarget : target (.str c.host) c.zone = .ok (bareName c.zone)) :
    looked d S c s recordName rt =
      (readAnswer U d rt (S.respond s name rt).answer).map fun read =>
        (read.1.bind fun ttl =>
          if read.2 = [] then none else some (entryOf c recordName rt ttl read.2)).toList := by
  have hsent : (tryCatch
      (do let resp ← send U (.query name rt) (.str c.host); return some resp)
      (fun _ => return none) : NetCode (Option Response)).run (serverHandler S) ⟨s, [], false⟩ =
        (.ok (some (S.respond s name rt)), ((⟨s, [], false⟩ : Line S).lookup name rt).2) := by
    rw [Code.run_tryCatch, Code.run_bind_ok (run_send_query (clean_line s) name rt c.host)]
    rfl
  unfold looked getRecord queryDnsRecordsAtName
  rw [htarget, Code.lift_ok, pure_bind, lookupRecordTypesToQuery_text, Code.lift_ok, pure_bind]
  unfold queryTypes queryRecordDetailsAtName
  rw [show qname d (bareName c.zone) (dnsRelativeName U (bareName c.zone) recordName) = .ok name
    from hname, Code.lift_ok, pure_bind]
  dsimp only
  rw [Code.run_bind, Code.run_bind_ok hsent]
  simp only [Code.run_bind, Code.run_lift]
  cases readAnswer U d rt (S.respond s name rt).answer with
  | error exc => rfl
  | ok read =>
      obtain ⟨ttl, values⟩ := read
      cases ttl with
      | none => rfl
      | some ttl =>
          cases values with
          | nil => rfl
          | cons v vs => rfl

/-- The values of an RRset are the same in any order of its data. -/
theorem values_of_perm {rdatas held : List Rdata} (hperm : rdatas.Perm held) {values : List Str}
    (hvalues : held.mapM (formatRdataValue U d rt) = .ok values) :
    ∃ answered, rdatas.mapM (formatRdataValue U d rt) = .ok answered ∧ answered.Perm values := by
  obtain ⟨answered, hanswered, hsame⟩ :=
    List.perm_comp_forall₂ hperm (mapM_eq_ok_iff.mp hvalues)
  exact ⟨answered, mapM_eq_ok_iff.mpr hanswered, hsame⟩

/-- What the server holds is looked up. -/
theorem looked_of_holds (hS : S.Answers around) (hname : lookedUp d c recordName = .ok name)
    (htarget : target (.str c.host) c.zone = .ok (bareName c.zone)) (h : S.Holds s name rt)
    (hcut : ¬S.Delegated s name) {values : List Str}
    (hvalues : valuesAt U d S s name rt = .ok values) :
    ∃ answered, answered.Perm values ∧
      looked d S c s recordName rt =
        .ok [entryOf c recordName rt (S.rrset s name rt).1 answered] := by
  obtain ⟨owner, rdatas, hperm, hanswer⟩ := hS.authoritative s name rt h hcut
  obtain ⟨answered, hanswered, hsame⟩ := values_of_perm hperm hvalues
  refine ⟨answered, hsame, ?_⟩
  have hread : readAnswer U d rt [⟨owner, rt, (S.rrset s name rt).1, rdatas⟩] =
      .ok (some (S.rrset s name rt).1, answered) := by
    rw [readAnswer, if_neg (not_not.mpr rfl), hanswered]
    show Except.ok (_, answered ++ []) = _
    rw [List.append_nil]
    rfl
  have hne : answered ≠ [] := by
    intro hnil
    rw [hnil] at hanswered
    have hempty := List.eq_nil_of_length_eq_zero (mapM_eq_ok_iff.mp hanswered).length_eq
    exact h (List.nil_perm.mp (hempty ▸ hperm))
  rw [looked_eq hname htarget, hanswer, hread]
  cases answered with
  | nil => exact absurd rfl hne
  | cons v vs => rfl

/-- An empty answer is nothing. -/
theorem looked_of_nil (hname : lookedUp d c recordName = .ok name)
    (htarget : target (.str c.host) c.zone = .ok (bareName c.zone))
    (h : (S.respond s name rt).answer = []) : looked d S c s recordName rt = .ok [] := by
  rw [looked_eq hname htarget, h]
  rfl

/-! ## answers of requests -/

/-- The status of a change follows from what its lookup finds. -/
theorem statusOf_eq {request : RecordRequest} {ch : ApiToDns.Change}
    (hread : request.read U = .ok ch) :
    ∃ l', statusOf d S c s request =
      (((ch.afterLookup c.zoneName c.zone (.str c.host) (looked d S c s ch.name ch.type)).translate
        (client U d)).run (serverHandler S) l').1.httpStatus := by
  unfold statusOf
  rw [serve_eq_program c.zoneName c.zone_eq hread, Change.program, Prog.translate_call,
    Prog.run_bind, c.server_eq]
  exact ⟨_, rfl⟩

/-- A create answers 409 if something is found. -/
theorem statusOf_create {request : RecordRequest} {ttl : Int} {values : List Str}
    (hread : request.read U = .ok ⟨recordName, rt, .create ttl values⟩) :
    (statusOf d S c s request = 409 ↔ ∃ info infos, looked d S c s recordName rt =
      .ok (info :: infos)) := by
  have hfailed : ∀ status ∈ [400, 500, 502, 503], status ≠ 409 := by decide
  have hwritten : ∀ status ∈ [200, 400, 500, 502, 503], status ≠ 409 := by decide
  have hstatus : ∃ l', statusOf d S c s request = _ := statusOf_eq hread
  obtain ⟨l', hstatus⟩ := hstatus
  rw [hstatus]
  dsimp only
  cases looked d S c s recordName rt with
  | error exc =>
      simp only [Change.afterLookup]
      constructor
      · intro h
        have h : (Change.failure ⟨recordName, rt, .create ttl values⟩ exc).httpStatus = 409 := h
        exact absurd h (hfailed _ (status_failure_mem _ exc))
      · intro h
        obtain ⟨info, infos, h⟩ := h
        contradiction
  | ok records =>
      cases records with
      | nil =>
          simp only [Change.afterLookup, Change.onRecords]
          constructor
          · intro h
            exact absurd h (hwritten _ (status_writeThen _ _ _ _ _ _ _ l'))
          · intro h
            obtain ⟨info, infos, h⟩ := h
            exact absurd (Except.ok.inj h).symm (List.cons_ne_nil info infos)
      | cons info infos => exact ⟨fun _ => ⟨info, infos, rfl⟩, fun _ => rfl⟩

/-- A change answers 404 if nothing is found. -/
theorem statusOf_change {request : RecordRequest} {verb : Verb}
    (hread : request.read U = .ok ⟨recordName, rt, verb⟩)
    (hverb : ∀ ttl values, verb ≠ .create ttl values) :
    (statusOf d S c s request = 404 ↔ looked d S c s recordName rt = .ok []) := by
  have hstatus : ∃ l', statusOf d S c s request = _ := statusOf_eq hread
  obtain ⟨l', hstatus⟩ := hstatus
  rw [hstatus]
  constructor
  · intro h
    by_contra hne
    exact status_afterLookup _ c.zoneName c.zone (.str c.host) hne l' h
  · intro h
    dsimp only
    rw [h]
    cases verb with
    | create ttl values => exact absurd rfl (hverb ttl values)
    | replace ttl values => rfl
    | patch ttl values => rfl
    | delete => rfl

/-- Lookups and answers tell whether the RRset is there exactly if it is there with
values that the program can write and not at or below a zone cut, or the server answers
with nothing. -/
theorem exact_iff (hS : S.Answers around) (hname : lookedUp d c recordName = .ok name)
    (htarget : target (.str c.host) c.zone = .ok (bareName c.zone)) :
    Exact d S c s recordName name rt ↔ Settled U d S around s name rt := by
  constructor
  · intro h
    have hempty : (S.respond s name rt).answer.isEmpty = !decide (S.Holds s name rt) := by
      have hexisted := h.existed
      rw [existed_eq hname] at hexisted
      rw [← Except.ok.inj hexisted, Bool.not_not]
    refine ⟨fun hholds => ?_, fun hholds hcut => ?_, fun hnot => ?_⟩
    · obtain ⟨values, answered, hvalues, -, -⟩ := h.found hholds
      exact ⟨values, hvalues⟩
    · rw [hS.referral s name rt hcut, decide_eq_true hholds] at hempty
      contradiction
    · rw [decide_eq_false hnot] at hempty
      exact (answer_eq_nil_iff hS hnot).mp (List.isEmpty_iff.mp hempty)
  · intro h
    have hfound : S.Holds s name rt → ∃ values answered, valuesAt U d S s name rt = .ok values ∧
        answered.Perm values ∧ looked d S c s recordName rt =
          .ok [entryOf c recordName rt (S.rrset s name rt).1 answered] := by
      intro hholds
      obtain ⟨values, hvalues⟩ := h.readable hholds
      obtain ⟨answered, hsame, hlooked⟩ :=
        looked_of_holds hS hname htarget hholds (h.undelegated hholds) hvalues
      exact ⟨values, answered, hvalues, hsame, hlooked⟩
    have hnil : ¬S.Holds s name rt → (S.respond s name rt).answer = [] := fun hnot =>
      (answer_eq_nil_iff hS hnot).mpr (h.unadorned hnot)
    have habsent : ¬S.Holds s name rt → looked d S c s recordName rt = .ok [] := fun hnot =>
      looked_of_nil hname htarget (hnil hnot)
    refine ⟨hfound, habsent, ?_, ?_, ?_⟩
    · rw [existed_eq hname]
      by_cases hholds : S.Holds s name rt
      · obtain ⟨owner, rdatas, -, hanswer⟩ :=
          hS.authoritative s name rt hholds (h.undelegated hholds)
        rw [hanswer, decide_eq_true hholds]
        rfl
      · rw [hnil hholds, decide_eq_false hholds]
        rfl
    · intro request ttl values hread
      rw [statusOf_create hread]
      constructor
      · intro hlooked
        obtain ⟨info, infos, hlooked⟩ := hlooked
        by_contra hnot
        rw [habsent hnot] at hlooked
        exact absurd (Except.ok.inj hlooked).symm (List.cons_ne_nil info infos)
      · intro hholds
        obtain ⟨written, answered, -, -, hlooked⟩ := hfound hholds
        exact ⟨_, [], hlooked⟩
    · intro request verb hread hverb
      rw [statusOf_change hread hverb]
      constructor
      · intro hlooked hholds
        obtain ⟨written, answered, -, -, hfound⟩ := hfound hholds
        rw [hfound] at hlooked
        exact absurd (Except.ok.inj hlooked) (List.cons_ne_nil _ [])
      · exact habsent

/-- In a zone with a delegation of its own the address of `www.example.com` is found. -/
theorem exact_iff_address :
    Exact (.plain Ucd.ascii) exampleServer addressConfig addressTable (lit "www") wwwName .a := by
  have hcut : ¬exampleServer.Delegated addressTable wwwName :=
    (not_delegated_table_iff addressTable wwwName).mpr (by decide)
  refine (exact_iff (table_answers [lit "example", lit "com"] fun _ => noSurroundings) (by decide)
    (by decide)).mpr ⟨fun _ => ⟨[lit "192.0.2.1"], ?_⟩, fun _ => hcut, ?_⟩
  · decide
  · intro hnot
    have hholds : (addressTable (folded wwwName) .a).2 ≠ [] := by decide
    exact absurd hholds hnot

/-! ## an alias -/

/-- The zone has an alias for `www.example.com`, and an address for its target. -/
def aliasTable : Table := fun name rt =>
  if name = wwwName ∧ rt = .cname then (300, [.target [lit "host", lit "example", lit "com"]])
  else if name = [lit "host", lit "example", lit "com"] ∧ rt = .a then
    (300, [.address (lit "192.0.2.1")])
  else (0, [])

/-- A target of an alias is asked for the type; there are no wildcards. -/
def chasedIn (t : Table) : Surroundings where
  chased name rt := (t (folded name) .cname).2.flatMap fun rdata =>
    match rdata with
    | .target target =>
        if (t (folded target) rt).2 ≠ [] then
          [⟨target, rt, (t (folded target) rt).1, (t (folded target) rt).2⟩]
        else []
    | _ => []
  wildcard _ _ := (0, [])

/-- The address of the target is taken for one of the alias. -/
theorem not_exact_alias :
    ¬Exact (.plain Ucd.ascii) (table [lit "example", lit "com"] chasedIn) addressConfig aliasTable
      (lit "www") wwwName .a := by
  intro h
  have hnot : ¬(aliasTable (folded wwwName) .a).2 ≠ [] := by decide
  have habsent := h.absent hnot
  revert habsent
  decide +kernel

end ApiToDns.Bind
