import ApiToDns.Plugins.Bind

/-!
# NameServer

Name servers.  A server is no part of the program: `NameServer` is any of them, with
its states, what its zone holds, what it answers to a question and what an UPDATE makes
of it.  What lookups and changes rely on is said of it apart, as RFC 1034 and RFC 2136
have it.

* `NameServer.Delegated` — names at or below a zone cut, answered with a referral;
* `NameServer.Serves` — RRsets and referrals;
* `NameServer.Answers` — aliases and wildcards beside them;
* `table` — a server with its zone in a table, of which all of this holds.
-/

namespace ApiToDns.Bind

open Py

/-! ## names -/

/-- A name up to the case of its ASCII letters, as servers compare names. -/
def folded (name : Name) : Name := name.map foldAscii

/-- Folding twice is folding once. -/
@[simp] theorem folded_folded (name : Name) : folded (folded name) = folded name := by
  unfold folded
  rw [List.map_map]
  exact List.map_congr_left fun label _ => foldAscii_idem label

/-- What ends a folded name is folded. -/
theorem folded_of_suffix {cut name : Name} (h : cut <:+ folded name) : folded cut = cut := by
  obtain ⟨front, h⟩ := h
  have hboth : folded front ++ folded cut = front ++ cut := by
    have hmap := congrArg folded h
    rw [folded_folded, ← h] at hmap
    rw [← hmap, folded, folded, folded, List.map_append]
  exact (List.append_inj' hboth (List.length_map _)).2

/-- The name is the other one or below it. -/
def AtOrBelow (name owner : Name) : Prop := folded owner <:+ folded name

/-! ## servers -/

/-- `dns.rcode.NXDOMAIN`. -/
def nxDomain : Nat := 3

/-- A name server with a zone. -/
structure NameServer where
  State : Type
  /-- the name at the top of the zone -/
  apex : Name
  /-- the TTL and the data of each RRset that the zone holds, and no data for the others -/
  rrset : State → Name → RecordType → Nat × List Rdata
  /-- the response to a question -/
  respond : State → Name → RecordType → Response
  /-- the state after an UPDATE -/
  update : State → Update → State
  /-- the address of a host name -/
  address : Str → Str

namespace NameServer

variable (S : NameServer)

/-- The zone holds the RRset. -/
def Holds (s : S.State) (name : Name) (rt : RecordType) : Prop := (S.rrset s name rt).2 ≠ []

instance (s : S.State) (name : Name) (rt : RecordType) : Decidable (S.Holds s name rt) :=
  inferInstanceAs (Decidable (_ ≠ _))

/-- The name is at or below a zone cut: an owner of NS records under the top of the
zone. -/
def Delegated (s : S.State) (name : Name) : Prop :=
  ∃ cut, AtOrBelow name cut ∧ AtOrBelow cut S.apex ∧ folded cut ≠ folded S.apex ∧
    S.Holds s cut .ns

/-- What a server that does not recurse does with its own RRsets. -/
structure Serves : Prop where
  /-- names are the same up to the case of ASCII letters -/
  caseless : ∀ s name name' rt, folded name = folded name' →
    S.rrset s name rt = S.rrset s name' rt
  answered : ∀ s name rt,
    (S.respond s name rt).rcode = noError ∨ (S.respond s name rt).rcode = nxDomain
  /-- an RRset is answered, its data in any order -/
  authoritative : ∀ s name rt, S.Holds s name rt → ¬S.Delegated s name →
    ∃ owner rdatas, rdatas.Perm (S.rrset s name rt).2 ∧
      (S.respond s name rt).answer = [⟨owner, rt, (S.rrset s name rt).1, rdatas⟩]
  /-- a referral has nothing in its answer section -/
  referral : ∀ s name rt, S.Delegated s name → (S.respond s name rt).answer = []
  /-- an UPDATE is about its own RRset, and counts up the serial number in the SOA -/
  others : ∀ s u name rt, rt ≠ .soa → ¬(folded name = folded u.owner ∧ rt = u.rdtype) →
    S.rrset (S.update s u) name rt = S.rrset s name rt

end NameServer

/-! ## aliases and wildcards -/

/-- What a server knows beside its RRsets. -/
structure Surroundings where
  /-- the records that the target of an alias at the name has, and its targets -/
  chased : Name → RecordType → List Rrset
  /-- the TTL and the data that a wildcard gives for a name -/
  wildcard : Name → RecordType → Nat × List Rdata

/-- The answer section for an RRset that is not among those the zone has. -/
def additions (W : Surroundings) (rrset : Name → RecordType → Nat × List Rdata) (name : Name)
    (rt : RecordType) : List Rrset :=
  if rt ≠ .cname ∧ (rrset name .cname).2 ≠ [] then
    ⟨name, .cname, (rrset name .cname).1, (rrset name .cname).2⟩ :: W.chased name rt
  else if (W.wildcard name rt).2 ≠ [] then
    [⟨name, rt, (W.wildcard name rt).1, (W.wildcard name rt).2⟩]
  else if rt ≠ .cname ∧ (W.wildcard name .cname).2 ≠ [] then
    ⟨name, .cname, (W.wildcard name .cname).1, (W.wildcard name .cname).2⟩ :: W.chased name rt
  else []

/-- An RRset that is not there is not made up for: the name is no alias, and no
wildcard covers it. -/
structure Unadorned (W : Surroundings) (rrset : Name → RecordType → Nat × List Rdata)
    (name : Name) (rt : RecordType) : Prop where
  noAlias : rt = .cname ∨ (rrset name .cname).2 = []
  wildcard : (W.wildcard name rt).2 = []
  wildcardAlias : rt = .cname ∨ (W.wildcard name .cname).2 = []

/-- Nothing is added to an unadorned answer. -/
theorem additions_eq_nil_iff {W : Surroundings} {rrset : Name → RecordType → Nat × List Rdata}
    {name : Name} {rt : RecordType} :
    additions W rrset name rt = [] ↔ Unadorned W rrset name rt := by
  unfold additions
  constructor
  · intro hnil
    split_ifs at hnil with halias hwildcard hwildcardAlias
    refine ⟨?_, not_not.mp hwildcard, ?_⟩
    · by_cases hrt : rt = .cname
      · exact .inl hrt
      · exact .inr (not_not.mp fun hne => halias ⟨hrt, hne⟩)
    · by_cases hrt : rt = .cname
      · exact .inl hrt
      · exact .inr (not_not.mp fun hne => hwildcardAlias ⟨hrt, hne⟩)
  · intro hplain
    have halias : ¬(rt ≠ .cname ∧ (rrset name .cname).2 ≠ []) := fun hboth =>
      hplain.noAlias.elim hboth.1 hboth.2
    have hwildcardAlias : ¬(rt ≠ .cname ∧ (W.wildcard name .cname).2 ≠ []) := fun hboth =>
      hplain.wildcardAlias.elim hboth.1 hboth.2
    rw [if_neg halias, if_neg (not_not.mpr hplain.wildcard), if_neg hwildcardAlias]

/-- What a server answers to any question about its zone. -/
structure NameServer.Answers (S : NameServer) (around : S.State → Surroundings) : Prop
    extends S.Serves where
  absent : ∀ s name rt, ¬S.Holds s name rt → ¬S.Delegated s name →
    (S.respond s name rt).answer = additions (around s) (S.rrset s) name rt

/-! ## a zone in a table -/

/-- The TTL and the data of each RRset, by the folded name of its owner. -/
abbrev Table := Name → RecordType → Nat × List Rdata

/-- There is a zone cut at the name or above it. -/
def Table.cut (t : Table) (apex name : Name) : Bool :=
  (folded name).tails.any fun owner =>
    decide (folded apex <:+ owner ∧ owner ≠ folded apex ∧ (t owner .ns).2 ≠ [])

/-- The answer section for a question. -/
def Table.answer (t : Table) (apex : Name) (W : Surroundings) (name : Name) (rt : RecordType) :
    List Rrset :=
  if t.cut apex name then []
  else if (t (folded name) rt).2 ≠ [] then
    [⟨name, rt, (t (folded name) rt).1, (t (folded name) rt).2⟩]
  else additions W (fun name rt => t (folded name) rt) name rt

/-- The data that a change leaves. -/
def Change.data : Change → Nat × List Rdata
  | .delete => (0, [])
  | .replace ttl rdatas => (ttl.toNat, rdatas)

/-- A server with its zone in a table. -/
def table (apex : Name) (around : Table → Surroundings) : NameServer where
  State := Table
  apex := apex
  rrset t name rt := t (folded name) rt
  respond t name rt := ⟨noError, t.answer apex (around t) name rt⟩
  update t u name rt := if name = folded u.owner ∧ rt = u.rdtype then u.change.data else t name rt
  address host := host

variable {apex : Name} {around : Table → Surroundings}

/-- What the table delegates. -/
theorem delegated_table_iff (t : Table) (name : Name) :
    (table apex around).Delegated t name ↔ t.cut apex name = true := by
  unfold Table.cut NameServer.Delegated
  rw [List.any_eq_true]
  constructor
  · intro h
    obtain ⟨cut, hname, hapex, hne, hholds⟩ := h
    exact ⟨folded cut, (List.mem_tails _ _).mpr hname, decide_eq_true ⟨hapex, hne, hholds⟩⟩
  · intro h
    obtain ⟨cut, hmem, hcut⟩ := h
    have hsuffix := (List.mem_tails _ _).mp hmem
    have hfolded := folded_of_suffix hsuffix
    obtain ⟨hapex, hne, hholds⟩ := of_decide_eq_true hcut
    refine ⟨cut, ?_, ?_, ?_, ?_⟩
    · rw [AtOrBelow, hfolded]
      exact hsuffix
    · rw [AtOrBelow, hfolded]
      exact hapex
    · rw [hfolded]
      exact hne
    · show (t (folded cut) .ns).2 ≠ []
      rw [hfolded]
      exact hholds

/-- A row of the table is the answer. -/
theorem answer_of_row {t : Table} {W : Surroundings} {name : Name} {rt : RecordType}
    (hcut : t.cut apex name = false) (hrow : (t (folded name) rt).2 ≠ []) :
    t.answer apex W name rt = [⟨name, rt, (t (folded name) rt).1, (t (folded name) rt).2⟩] := by
  rw [Table.answer, hcut, if_neg Bool.false_ne_true, if_pos hrow]

/-- Without a row the answer is what is added. -/
theorem answer_of_no_row {t : Table} {W : Surroundings} {name : Name} {rt : RecordType}
    (hcut : t.cut apex name = false) (hrow : ¬(t (folded name) rt).2 ≠ []) :
    t.answer apex W name rt = additions W (fun name rt => t (folded name) rt) name rt := by
  rw [Table.answer, hcut, if_neg Bool.false_ne_true, if_neg hrow]

/-- What the table does not delegate. -/
theorem not_delegated_table_iff (t : Table) (name : Name) :
    ¬(table apex around).Delegated t name ↔ t.cut apex name = false := by
  rw [not_congr (delegated_table_iff t name), Bool.not_eq_true]

/-- The table answers as a name server does. -/
theorem table_answers (apex : Name) (around : Table → Surroundings) :
    (table apex around).Answers around where
  caseless t _ _ rt h := congrArg (fun owner => t owner rt) h
  answered _ _ _ := .inl rfl
  authoritative t name _ hholds hnot :=
    ⟨name, _, .refl _, answer_of_row ((not_delegated_table_iff t name).mp hnot) hholds⟩
  referral t name _ h := if_pos ((delegated_table_iff t name).mp h)
  others _ _ _ _ _ h := if_neg h
  absent t name _ habsent hnot :=
    answer_of_no_row ((not_delegated_table_iff t name).mp hnot) habsent

end ApiToDns.Bind
