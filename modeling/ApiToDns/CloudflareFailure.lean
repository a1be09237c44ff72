import Mathlib.Data.List.Dedup
import ApiToDns.CloudflareRepeat

/-!
# CloudflareFailure

A replace at Cloudflare that stops at a failing call.  The stale rows are gone
before the first value is written, so a replace that keeps no row leaves
nothing if its first write fails (`survives_iff_of_made`).
-/

namespace ApiToDns.Cloudflare

open Py Code

section

variable (P : Platform) (cfg : Config) (t : Target)

/-- There are rows left, and every wanted value that was read of the rows is
still read of them. -/
def Survives (desired : List Str) (before after : List Dict) : Prop :=
  after ≠ [] ∧ ∀ value ∈ desired, (∃ row ∈ before, canonicalFromRow P t.rt row = .ok value) →
    ∃ row ∈ after, canonicalFromRow P t.rt row = .ok value

/-- The wanted values that are read of the rows. -/
def common (desired : List Str) (existing : List Dict) : List Str :=
  desired.dedup.filter fun value => ∃ row ∈ existing, canonicalFromRow P t.rt row = .ok value

/-- It does no harm to stop when a number of changes is made.  A CNAME is
written first, and must be read back unless a row with the value is left.
Otherwise the rows without a common value go first, and a common value must be
read back from one of the values that are written by then. -/
def SafeAfter (desired : List Str) (existing : List Dict) (made : Nat) : Prop :=
  let shared := common P t desired existing
  if t.rt = .cname then
    ∀ value ∈ shared, made = 0 ∨ readBack P cfg t value = .ok value ∨
      ∃ row ∈ existing.drop made, canonicalFromRow P t.rt row = .ok value
  else
    let done := desired.take (made - (existing.length - shared.length))
    (shared = [] → made ≠ existing.length) ∧
      ∀ value ∈ shared, value ∈ done → ∃ w ∈ done, readBack P cfg t w = .ok value

end

section

variable {P : Platform} {cfg : Config} {t : Target} {desired done : List Str}
  {existing stale rows rows' : List Dict} {kept : List (Str × Dict)} {value : Str} {k : Nat}

/-- The values that stay are wanted and were there. -/
theorem mem_common : value ∈ common P t desired existing ↔
    value ∈ desired ∧ ∃ row ∈ existing, canonicalFromRow P t.rt row = .ok value := by
  simp [common]

/-- The values that rows keep are the common ones. -/
theorem kept_perm_common (hsplit : splitRows P t desired existing [] = .ok (kept, stale)) :
    (kept.map Prod.fst).Perm (common P t desired existing) := by
  obtain ⟨added, hkept, hperm, hwanted, hnodup⟩ := splitRows_ok hsplit
  rw [List.nil_append] at hkept
  subst hkept
  have hcommon : (common P t desired existing).Nodup := (List.nodup_dedup _).filter _
  rw [List.perm_ext_iff_of_nodup (hnodup .nil) hcommon]
  intro value
  rw [mem_common]
  constructor
  · intro hmem
    obtain ⟨e, he, rfl⟩ := List.mem_map.mp hmem
    have hread := splitRows_reads hsplit (List.forall_mem_nil _) e he
    exact ⟨hwanted e he, e.2, hperm.subset (List.mem_append_left _ (List.mem_map_of_mem he)), hread⟩
  · intro ⟨hvalue, hrow⟩
    exact splitRows_keeps hsplit hvalue (.inr hrow)

/-- All rows are stale but one for each common value. -/
theorem length_of_split (hsplit : splitRows P t desired existing [] = .ok (kept, stale)) :
    stale.length = existing.length - (common P t desired existing).length ∧
      (common P t desired existing).length ≤ existing.length := by
  obtain ⟨added, hkept, hperm, -⟩ := splitRows_ok hsplit
  rw [List.nil_append] at hkept
  subst hkept
  have hlen := hperm.length_eq
  have hcommon := (kept_perm_common hsplit).length_eq
  rw [List.length_append, List.length_map] at hlen
  rw [List.length_map] at hcommon
  omega

/-! ## while rows are deleted -/

/-- What survives the first deletions. -/
theorem survives_of_deletes (hids : Identified rows)
    (hsplit : splitRows P t desired (rows.filter (inRRset t.fqdn t.rt)) [] = .ok (kept, stale))
    (hmade : AllMade ((stale.take k).map deleteOf) rows rows') :
    Survives P t desired (rows.filter (inRRset t.fqdn t.rt)) (rows'.filter (inRRset t.fqdn t.rt)) ↔
      (kept = [] → k < stale.length) := by
  have hparts : splitRows P t desired (rows.filter (inRRset t.fqdn t.rt)) [] =
      .ok (kept, stale.take k ++ stale.drop k) := by rw [List.take_append_drop, hsplit]
  obtain ⟨-, hperm⟩ := perm_after_deletes hids hparts hmade
  have hread : ∀ value ∈ desired, (∃ row ∈ rows.filter (inRRset t.fqdn t.rt),
      canonicalFromRow P t.rt row = .ok value) → ∃ row ∈ rows'.filter (inRRset t.fqdn t.rt),
      canonicalFromRow P t.rt row = .ok value := by
    intro value hvalue hrow
    obtain ⟨e, he, rfl⟩ := List.mem_map.mp (splitRows_keeps hsplit hvalue (.inr hrow))
    exact ⟨e.2, hperm.mem_iff.mpr (List.mem_append_left _ (List.mem_map_of_mem he)),
      splitRows_reads hsplit (List.forall_mem_nil _) e he⟩
  rw [Survives, and_iff_left hread, Ne, ← List.length_eq_zero_iff, hperm.length_eq,
    ← List.length_eq_zero_iff]
  simp only [List.length_append, List.length_map, List.length_drop]
  omega

/-! ## while values are written -/

/-- What survives the first writes. -/
theorem survives_of_writes (hids : Identified rows)
    (hsplit : splitRows P t desired (rows.filter (inRRset t.fqdn t.rt)) [] = .ok (kept, stale))
    (hbody : ∀ value ∈ done, HasBody P cfg t value) (hdone : done ≠ [])
    (hmade : AllMade (changes P cfg t done kept stale) rows rows') :
    Survives P t desired (rows.filter (inRRset t.fqdn t.rt)) (rows'.filter (inRRset t.fqdn t.rt)) ↔
      ∀ value ∈ common P t desired (rows.filter (inRRset t.fqdn t.rt)), value ∈ done →
        ∃ w ∈ done, readBack P cfg t w = .ok value := by
  obtain ⟨-, entries, hentries, hperm⟩ := layout_of_changes hids hsplit hbody hmade
  have hreads := splitRows_reads hsplit (List.forall_mem_nil _)
  have hwritten : ∀ value ∈ done, ∃ row, (value, row) ∈ entries := by
    intro value hvalue
    have hmem : value ∈ entries.map Prod.fst := by
      rw [hentries.values, List.mem_append, List.mem_filter, lookup_isNone_iff]
      by_cases hkept : value ∈ kept.map Prod.fst
      · exact .inl hkept
      · exact .inr ⟨hvalue, hkept⟩
    obtain ⟨e, he, rfl⟩ := List.mem_map.mp hmem
    exact ⟨e.2, he⟩
  have hleft : rows'.filter (inRRset t.fqdn t.rt) ≠ [] := by
    obtain ⟨value, hvalue⟩ := List.exists_mem_of_ne_nil done hdone
    obtain ⟨row, hrow⟩ := hwritten value hvalue
    exact List.ne_nil_of_mem (hperm.mem_iff.mpr (List.mem_map_of_mem hrow))
  rw [Survives, and_iff_right hleft]
  constructor
  · intro hsurvives value hcommon hvalue
    rw [mem_common] at hcommon
    obtain ⟨row, hrow, hread⟩ := hsurvives value hcommon.1 hcommon.2
    obtain ⟨e, he, rfl⟩ := List.mem_map.mp (hperm.mem_iff.mp hrow)
    rcases hentries.row e he with ⟨hw, hwritten'⟩ | ⟨hnot, hkept⟩
    · exact ⟨e.1, hw, by rw [← hwritten'.canonicalFromRow_eq, hread]⟩
    · -- a row that is not written yet is read as another value
      rw [hreads e hkept] at hread
      exact absurd (Except.ok.inj hread ▸ hvalue) hnot
  · intro hback value hvalue hrow
    have hcommon := mem_common.mpr ⟨hvalue, hrow⟩
    by_cases hnow : value ∈ done
    · obtain ⟨w, hw, hread⟩ := hback value hcommon hnow
      obtain ⟨row, hmem⟩ := hwritten w hw
      refine ⟨row, hperm.mem_iff.mpr (List.mem_map_of_mem hmem), ?_⟩
      rcases hentries.row _ hmem with ⟨-, hwritten'⟩ | ⟨hnot, -⟩
      · rw [hwritten'.canonicalFromRow_eq, hread]
      · exact absurd hw hnot
    · have hmem : value ∈ entries.map Prod.fst := by
        rw [hentries.values]
        exact List.mem_append_left _ ((kept_perm_common hsplit).mem_iff.mpr hcommon)
      obtain ⟨e, he, rfl⟩ := List.mem_map.mp hmem
      refine ⟨e.2, hperm.mem_iff.mpr (List.mem_map_of_mem he), ?_⟩
      rcases hentries.row e he with ⟨hw, -⟩ | ⟨-, hkept⟩
      · exact absurd hw hnow
      · exact hreads e hkept

/-- Stopping after a number of changes. -/
theorem survives_iff_of_made (hcname : t.rt ≠ .cname) (hids : Identified rows)
    (hsplit : splitRows P t desired (rows.filter (inRRset t.fqdn t.rt)) [] = .ok (kept, stale))
    (hbody : ∀ value ∈ desired, HasBody P cfg t value)
    (hk : k < (changes P cfg t desired kept stale).length)
    (hmade : AllMade ((changes P cfg t desired kept stale).take k) rows rows') :
    Survives P t desired (rows.filter (inRRset t.fqdn t.rt)) (rows'.filter (inRRset t.fqdn t.rt)) ↔
      SafeAfter P cfg t desired (rows.filter (inRRset t.fqdn t.rt)) k := by
  obtain ⟨hstale, hle⟩ := length_of_split hsplit
  have hkept := (kept_perm_common hsplit).length_eq
  rw [List.length_map] at hkept
  rw [SafeAfter, if_neg hcname, ← hstale, ← List.length_eq_zero_iff]
  rw [changes, List.length_append, List.length_map, List.length_map] at hk
  rw [changes, List.take_append, List.length_map, ← List.map_take, ← List.map_take] at hmade
  rcases Nat.lt_or_ge stale.length k with hwrites | hdeletes
  · have hdone : desired.take (k - stale.length) ≠ [] := by
      rw [Ne, ← List.length_eq_zero_iff, List.length_take]
      omega
    rw [List.take_of_length_le (Nat.le_of_lt hwrites)] at hmade
    rw [survives_of_writes hids hsplit (fun value hvalue => hbody value (List.mem_of_mem_take hvalue))
      hdone hmade, and_iff_right]
    omega
  · have hnone : desired.take (k - stale.length) = [] := by
      rw [Nat.sub_eq_zero_of_le hdeletes, List.take_zero]
    rw [Nat.sub_eq_zero_of_le hdeletes, List.take_zero, List.map_nil, List.append_nil] at hmade
    rw [survives_of_deletes hids hsplit hmade, hnone, ← List.length_eq_zero_iff]
    simp only [List.not_mem_nil, false_implies, implies_true, and_true]
    omega

/-- Stopping after a number of changes of a CNAME. -/
theorem survives_iff_of_cname (hcname : t.rt = .cname) (hids : Identified rows)
    (hexisting : rows.filter (inRRset t.fqdn t.rt) ≠ []) (hbody : HasBody P cfg t value)
    (hmade : AllMade ((cnameChanges P cfg t value (rows.filter (inRRset t.fqdn t.rt))).take k)
      rows rows') :
    Survives P t [value] (rows.filter (inRRset t.fqdn t.rt)) (rows'.filter (inRRset t.fqdn t.rt)) ↔
      SafeAfter P cfg t [value] (rows.filter (inRRset t.fqdn t.rt)) k := by
  rw [SafeAfter, if_pos hcname]
  cases k with
  | zero =>
      rw [show rows' = rows from hmade]
      refine iff_of_true ⟨hexisting, fun _ _ hrow => hrow⟩ fun _ _ => .inl rfl
  | succ k =>
      cases hrows : rows.filter (inRRset t.fqdn t.rt) with
      | nil => exact absurd hrows hexisting
      | cons first rest =>
          rw [hrows] at hmade
          have hnew : Written P cfg t value (rowOf (idText first) (bodyOf P cfg t value)) :=
            ⟨_, _, hbody, rfl⟩
          rw [filter_of_cnameChanges hids hrows hbody hmade, Survives, and_iff_right (by simp)]
          simp only [mem_common, List.mem_singleton, forall_eq, and_imp, List.exists_mem_cons_iff,
            hnew.canonicalFromRow_eq, List.drop_succ_cons, Nat.add_one_ne_zero, false_or]

end

/-! ## the run -/

section

variable {P : Platform} {cfg : Config} {σ α β : Type} {h : Handler httpSig σ} {zoneId : Str}
  {rows : σ → List Dict} {s s' : σ} {e : Exc}

/-- A call that fails changes no row. -/
def FailsClean (P : Platform) (h : Handler httpSig σ) (rows : σ → List Dict) : Prop :=
  ∀ o s e, readResponse P (h o s).1 = .error e → rows (h o s).2 = rows s

/-- How many calls of a run ask for a change. -/
def writes (h : Handler httpSig σ) (code : HttpCode α) (s : σ) : Nat :=
  (code.calls h s).countP fun c => c.1.method ≠ .get

/-- How many changes are made by a run that stops at the last call. -/
def changesMade (h : Handler httpSig σ) (code : HttpCode α) (s : σ) : Nat := writes h code s - 1

/-- A change is no look. -/
theorem op_method_ne_get (c : Change) : (c.op zoneId).method ≠ .get := by
  cases c <;> simp [Change.op]

/-- A run that fails has made the changes before the call that failed. -/
theorem run_performAll_error (hm : Makes P h zoneId rows) (hclean : FailsClean P h rows)
    {cs : List Change} (hrun : (performAll P zoneId cs).run h s = (.error e, s')) :
    ∃ k, k < cs.length ∧ AllMade (cs.take k) (rows s) (rows s') ∧
      writes h (performAll P zoneId cs) s = k + 1 := by
  induction cs generalizing s with
  | nil => exact absurd (congrArg Prod.fst hrun) (by simp [performAll])
  | cons c cs ih =>
      rw [run_performAll_cons] at hrun
      rw [writes, calls_performAll_cons, List.countP_cons_of_pos (by simp [op_method_ne_get])]
      cases hread : readResponse P (h (c.op zoneId) s).1 with
      | error e' =>
          rw [hread] at hrun
          obtain ⟨-, rfl⟩ := Prod.ext_iff.mp hrun
          exact ⟨0, Nat.succ_pos _, hclean _ _ _ hread, rfl⟩
      | ok body =>
          rw [hread] at hrun
          obtain ⟨k, hlt, hmade, hcount⟩ := ih hrun
          exact ⟨k + 1, Nat.succ_lt_succ hlt, ⟨_, hm c s body hread, hmade⟩, congrArg (· + 1) hcount⟩

/-- Code that changes no row and asks for no change. -/
def Looks (h : Handler httpSig σ) (rows : σ → List Dict) (c : HttpCode α) : Prop :=
  ∀ s, rows (c.run h s).2 = rows s ∧ writes h c s = 0

/-- A result that is at hand only looks. -/
theorem Looks.lift {r : Except Exc α} : Looks h rows (Code.lift r) := fun _ => ⟨rfl, rfl⟩

/-- A pure value only looks. -/
theorem Looks.pure {a : α} : Looks h rows (pure a : HttpCode α) := fun _ => ⟨rfl, rfl⟩

/-- No write follows a failure. -/
theorem writes_bind_error {c : HttpCode α} {f : α → HttpCode β}
    (hrun : c.run h s = (.error e, s')) : writes h (c >>= f) s = writes h c s := by
  simp [writes, calls_bind, hrun]

/-- The writes of a sequence are those of its parts. -/
theorem writes_bind_ok {c : HttpCode α} {f : α → HttpCode β} {a : α}
    (hrun : c.run h s = (.ok a, s')) : writes h (c >>= f) s = writes h c s + writes h (f a) s' := by
  simp [writes, calls_bind, hrun]

/-- Looks one after the other. -/
theorem Looks.bind {c : HttpCode α} {f : α → HttpCode β} (hc : Looks h rows c)
    (hf : ∀ a, Looks h rows (f a)) : Looks h rows (c >>= f) := by
  intro s
  have hlook := hc s
  generalize hrun : c.run h s = answer at hlook
  obtain ⟨r, s₁⟩ := answer
  cases r with
  | ok a =>
      rw [run_bind_ok hrun, writes_bind_ok hrun, hlook.2, Nat.zero_add]
      exact ⟨(hf a s₁).1.trans hlook.1, (hf a s₁).2⟩
  | error e =>
      rw [run_bind_error hrun, writes_bind_error hrun]
      exact hlook

/-- A GET only looks. -/
theorem looks_request {o : HttpOp} (hget : o.method = .get) (hclean : FailsClean P h rows)
    (hrows : ∀ s body, readResponse P (h o s).1 = .ok body → rows (h o s).2 = rows s) :
    Looks h rows (request P o) := by
  intro s
  refine ⟨?_, by simp [writes, Code.calls, hget]⟩
  change rows (h o s).2 = rows s
  cases hread : readResponse P (h o s).1 with
  | ok body => exact hrows s body hread
  | error e => exact hclean o s e hread

/-- Finding the zone only looks. -/
theorem looks_resolveZoneId (hk : Keeps P h zoneId rows) (hclean : FailsClean P h rows)
    (zoneName : Str) : Looks h rows (resolveZoneId P cfg zoneName) := by
  unfold resolveZoneId
  split
  · exact .pure
  · refine Looks.bind (looks_request rfl hclean fun _ _ hread => (hk.zones rfl hread).1) ?_
    exact fun _ => .bind .lift fun _ => .lift

/-- Listing the records only looks. -/
theorem looks_listRecords (hk : Keeps P h zoneId rows) (hclean : FailsClean P h rows)
    (fqdn : Str) (rt : RecordType) : Looks h rows (listRecords P zoneId fqdn rt) :=
  Looks.bind (looks_request rfl hclean fun _ _ hread => (hk.list rfl hread).1)
    fun _ => .bind .lift fun _ => .pure

/-- What fails after a look fails at the look, with nothing changed, or later. -/
theorem Looks.run_bind_error {c : HttpCode α} {f : α → HttpCode β} (hc : Looks h rows c)
    (hrun : (c >>= f).run h s = (.error e, s')) :
    (rows s' = rows s ∧ writes h (c >>= f) s = 0) ∨
      ∃ a s₁, c.run h s = (.ok a, s₁) ∧ rows s₁ = rows s ∧ (f a).run h s₁ = (.error e, s') ∧
        writes h (c >>= f) s = writes h (f a) s₁ := by
  have hlook := hc s
  generalize hfirst : c.run h s = answer at hlook
  obtain ⟨r, s₁⟩ := answer
  cases r with
  | ok a =>
      rw [run_bind_ok hfirst] at hrun
      rw [writes_bind_ok hfirst, hlook.2, Nat.zero_add]
      exact .inr ⟨a, s₁, rfl, hlook.1, hrun, rfl⟩
  | error e' =>
      rw [Code.run_bind_error hfirst] at hrun
      obtain ⟨-, rfl⟩ := Prod.ext_iff.mp hrun
      rw [writes_bind_error hfirst]
      exact .inl hlook

/-! ## `_sync_records` and what is around it -/

variable {t : Target} {values desired : List Str}

/-- Before any write everything is there. -/
theorem safeAfter_zero {existing : List Dict} (hexisting : existing ≠ []) :
    SafeAfter P cfg t desired existing 0 := by
  unfold SafeAfter
  split
  · exact fun _ _ => .inl rfl
  · have hlen : 0 ≠ existing.length := Ne.symm (mt List.length_eq_zero_iff.mp hexisting)
    simp [hlen]

/-- A `_sync_records` that fails. -/
theorem syncRecords_survives_iff (hk : Keeps P h t.zoneId rows) (hclean : FailsClean P h rows)
    (hids : Identified (rows s)) (hexisting : (rows s).filter (inRRset t.fqdn t.rt) ≠ [])
    (hnormal : normalizeRecordValues P.ucd t.rt values = .ok desired)
    (hrun : (syncRecords P cfg t desired ((rows s).filter (inRRset t.fqdn t.rt))).run h s =
      (.error e, s')) :
    Survives P t desired ((rows s).filter (inRRset t.fqdn t.rt))
        ((rows s').filter (inRRset t.fqdn t.rt)) ↔
      SafeAfter P cfg t desired ((rows s).filter (inRRset t.fqdn t.rt))
        (changesMade h (syncRecords P cfg t desired ((rows s).filter (inRRset t.fqdn t.rt))) s) := by
  have hbody : ∀ value ∈ desired, HasBody P cfg t value := hasBody_of_normal hnormal
  have hsome := (hids.filter (inRRset t.fqdn t.rt)).1
  by_cases hcname : t.rt = .cname
  · obtain ⟨value, rfl⟩ := (normalizeRecordValues_ok hnormal).2 hcname
    have hvalue := hbody value List.mem_cons_self
    rw [syncRecords_cname_eq hcname hsome hvalue] at hrun ⊢
    obtain ⟨k, hlt, hmade, hcount⟩ := run_performAll_error hk.makes hclean hrun
    rw [changesMade, hcount, Nat.add_sub_cancel]
    exact survives_iff_of_cname hcname hids hexisting hvalue hmade
  · have hsplit := splitRows_of_read P t desired ((rows s).filter (inRRset t.fqdn t.rt)) []
    cases hread : ((rows s).filter (inRRset t.fqdn t.rt)).mapM (canonicalFromRow P t.rt) with
    | ok read =>
        rw [hread] at hsplit
        obtain ⟨kept, stale, hsplit⟩ := hsplit
        rw [syncRecords_eq hcname hsome hbody hsplit] at hrun ⊢
        obtain ⟨k, hlt, hmade, hcount⟩ := run_performAll_error hk.makes hclean hrun
        rw [changesMade, hcount, Nat.add_sub_cancel]
        exact survives_iff_of_made hcname hids hsplit hbody hlt hmade
    | error e' =>
        rw [hread] at hsplit
        -- nothing is done for rows that cannot be read
        have hraises : syncRecords P cfg t desired ((rows s).filter (inRRset t.fqdn t.rt)) =
            throw e' := by
          unfold syncRecords
          rw [if_neg hcname, hsplit]
          rfl
        rw [hraises] at hrun ⊢
        obtain ⟨-, rfl⟩ := Prod.ext_iff.mp hrun
        exact iff_of_true ⟨hexisting, fun _ _ hrow => hrow⟩ (safeAfter_zero hexisting)

/-- The RRset a request is about. -/
def targetOf (U : Ucd) (zoneId dnsZone : Str) (rt : RecordType) (payload : DnsRecordRequest) :
    Target :=
  ⟨zoneId, owner U dnsZone payload.recordName, rt, ttlOrDefault payload.ttl⟩

/-- What fails before its result fails as a whole. -/
theorem run_bind_pure_error {c : HttpCode α} {f : α → β}
    (hrun : (c >>= fun a => pure (f a)).run h s = (.error e, s')) :
    c.run h s = (.error e, s') ∧ writes h (c >>= fun a => pure (f a)) s = writes h c s := by
  generalize hfirst : c.run h s = answer
  obtain ⟨r, s₁⟩ := answer
  cases r with
  | ok a =>
      rw [run_bind_ok hfirst] at hrun
      exact absurd (congrArg Prod.fst hrun) (by simp)
  | error e' =>
      rw [Code.run_bind_error hfirst] at hrun
      obtain ⟨heq, rfl⟩ := Prod.ext_iff.mp hrun
      obtain rfl := Except.error.inj heq
      exact ⟨rfl, writes_bind_error hfirst⟩

/-- The type of a request. -/
theorem supportedType_ok {rt rt' : RecordType} {recordType : Str}
    (hrt : RecordType.ofText? recordType = some rt) (h : supportedType recordType = .ok rt') :
    rt' = rt := by
  rw [supportedType, hrt] at h
  cases hmutable : rt.isMutable with
  | false => simp [Option.filter, hmutable] at h
  | true =>
      simp only [Option.filter, hmutable, if_true] at h
      exact (Except.ok.inj h).symm

/-- The mutable types are supported. -/
theorem supportedType_text {rt : RecordType} (hmutable : rt.isMutable = true) :
    supportedType rt.text = .ok rt := by
  simp [supportedType, Option.filter_some, hmutable]

section Replace

variable {rt : RecordType} {payload : DnsRecordRequest} {server : Json} {dnsZone : Str}

/-- A replace fails before `_sync_records`, with nothing changed, or in it. -/
theorem createOrUpdateRecord_error_cases (hk : Keeps P h zoneId rows)
    (hclean : FailsClean P h rows) (hcfg : ∀ z ∈ cfg.zoneId, z = zoneId)
    (ht : t = targetOf P.ucd zoneId dnsZone rt payload)
    (hrt : RecordType.ofText? (P.ucd.upper payload.recordType) = some rt)
    (hnormal : normalizeRecordValues P.ucd rt payload.values = .ok desired)
    (hrun : (createOrUpdateRecord P cfg payload server dnsZone).run h s = (.error e, s')) :
    (rows s' = rows s ∧ writes h (createOrUpdateRecord P cfg payload server dnsZone) s = 0) ∨
      ∃ s₁, rows s₁ = rows s ∧
        (syncRecords P cfg t desired ((rows s).filter (inRRset t.fqdn t.rt))).run h s₁ =
          (.error e, s') ∧
        writes h (createOrUpdateRecord P cfg payload server dnsZone) s =
          writes h (syncRecords P cfg t desired ((rows s).filter (inRRset t.fqdn t.rt))) s₁ := by
  have hnot : P.ucd.upper payload.recordType ≠ deleteType := by
    rw [← RecordType.text_of_ofText? hrt]
    exact rt.text_ne_delete
  unfold createOrUpdateRecord at hrun ⊢
  rcases Looks.lift.run_bind_error hrun with hsame | ⟨zoneName, s₁, hcheck, -, hrun, hcount⟩
  · exact .inl hsame
  obtain ⟨hzone, rfl⟩ := run_lift_eq_ok.mp hcheck
  obtain rfl := checkTarget_ok hzone
  rw [hcount]
  clear hcount
  rcases (looks_resolveZoneId hk hclean _).run_bind_error hrun with
    hsame | ⟨id, s₁, hresolve, hrows₁, hrun, hcount⟩
  · exact .inl hsame
  obtain ⟨rfl, -⟩ := run_resolveZoneId_ok hk hcfg hresolve
  rw [if_neg hnot] at hrun hcount
  rw [hcount, ← hrows₁]
  clear hcount
  unfold writeRecordSet at hrun ⊢
  rcases Looks.lift.run_bind_error hrun with hsame | ⟨rt', s₂, hlift, -, hrun, hcount⟩
  · exact .inl hsame
  obtain ⟨hsupported, rfl⟩ := run_lift_eq_ok.mp hlift
  obtain rfl := supportedType_ok hrt hsupported
  rw [hcount]
  clear hcount
  rcases (looks_listRecords hk hclean _ _).run_bind_error hrun with
    hsame | ⟨existing, s₂, hlist, hrows₂, hrun, hcount⟩
  · exact .inl hsame
  obtain ⟨rfl, -⟩ := run_listRecords_ok hk hlist
  rw [hcount]
  clear hcount
  rcases Looks.lift.run_bind_error hrun with hsame | ⟨desired', s₃, hlift, -, hrun, hcount⟩
  · exact .inl ⟨hsame.1.trans hrows₂, hsame.2⟩
  obtain ⟨hdesired, rfl⟩ := run_lift_eq_ok.mp hlift
  obtain rfl := Except.ok.inj (hdesired.symm.trans hnormal)
  rw [hcount]
  obtain ⟨hsync, hcount⟩ := run_bind_pure_error hrun
  subst ht
  exact .inr ⟨s₂, hrows₂, hsync, hcount⟩

/-- A replace that fails, with rows there. -/
structure FailedReplace (P : Platform) (cfg : Config) (h : Handler httpSig σ) (rows : σ → List Dict)
    (t : Target) (payload : DnsRecordRequest) (server : Json) (dnsZone : Str) (s s' : σ) : Prop where
  keeps : Keeps P h t.zoneId rows
  clean : FailsClean P h rows
  zone : ∀ z ∈ cfg.zoneId, z = t.zoneId
  target : t = targetOf P.ucd t.zoneId dnsZone t.rt payload
  ids : Identified (rows s)
  existing : (rows s).filter (inRRset t.fqdn t.rt) ≠ []
  run : ∃ e, (createOrUpdateRecord P cfg payload server dnsZone).run h s = (.error e, s')

/-- When the RRset survives a replace that fails. -/
theorem FailedReplace.survives_iff (hf : FailedReplace P cfg h rows t payload server dnsZone s s')
    (hrt : RecordType.ofText? (P.ucd.upper payload.recordType) = some t.rt)
    (hnormal : normalizeRecordValues P.ucd t.rt payload.values = .ok desired) :
    Survives P t desired ((rows s).filter (inRRset t.fqdn t.rt))
        ((rows s').filter (inRRset t.fqdn t.rt)) ↔
      SafeAfter P cfg t desired ((rows s).filter (inRRset t.fqdn t.rt))
        (changesMade h (createOrUpdateRecord P cfg payload server dnsZone) s) := by
  obtain ⟨e, hrun⟩ := hf.run
  rw [changesMade]
  rcases createOrUpdateRecord_error_cases hf.keeps hf.clean hf.zone hf.target hrt hnormal hrun with
    ⟨hrows, hcount⟩ | ⟨s₁, hrows, hsync, hcount⟩
  · rw [hrows, hcount]
    exact iff_of_true ⟨hf.existing, fun _ _ hrow => hrow⟩ (safeAfter_zero hf.existing)
  · have hids := hf.ids
    have hexisting := hf.existing
    rw [hcount, ← hrows]
    rw [← hrows] at hsync hids hexisting
    exact syncRecords_survives_iff hf.keeps hf.clean hids hexisting hnormal hsync

end Replace

end

/-! ### an API that refuses a method -/

/-- A Cloudflare that refuses the requests of a method. -/
def refusing (method : Method) : Handler httpSig (List Dict) := fun o rows =>
  if o.method = method then (.error [], rows) else keeper o rows

/-- What is not refused is done. -/
theorem refusing_of_ok {P : Platform} (method : Method) {o : HttpOp} {rows : List Dict} {body : Dict}
    (hread : readResponse P (refusing method o rows).1 = .ok body) :
    refusing method o rows = keeper o rows := by
  unfold refusing at hread ⊢
  split
  · next heq =>
      rw [if_pos heq] at hread
      contradiction
  · rfl

/-- An API that refuses a method keeps its rows otherwise. -/
theorem refusing_keeps (P : Platform) (method : Method) :
    Keeps P (refusing method) (lit "z1") id where
  zones := by
    rintro s s' reply body zoneName h hread
    have heq := refusing_of_ok method (by rw [h]; exact hread)
    exact (keeper_keeps P).zones (heq ▸ h) hread
  list := by
    rintro s s' reply body fqdn rt h hread
    have heq := refusing_of_ok method (by rw [h]; exact hread)
    exact (keeper_keeps P).list (heq ▸ h) hread
  create := by
    rintro s s' reply body fields h hread
    have heq := refusing_of_ok method (by rw [h]; exact hread)
    exact (keeper_keeps P).create (heq ▸ h) hread
  update := by
    rintro s s' reply body id fields h hread
    have heq := refusing_of_ok method (by rw [h]; exact hread)
    exact (keeper_keeps P).update (heq ▸ h) hread
  delete := by
    rintro s s' reply body id h hread
    have heq := refusing_of_ok method (by rw [h]; exact hread)
    exact (keeper_keeps P).delete (heq ▸ h) hread

/-- What it refuses changes nothing. -/
theorem refusing_failsClean (P : Platform) (method : Method) :
    FailsClean P (refusing method) id := by
  intro o rows e hread
  unfold refusing at hread ⊢
  split
  · rfl
  · next hne =>
      rw [if_neg hne] at hread
      unfold keeper at hread ⊢
      split <;> first | rfl | contradiction

end ApiToDns.Cloudflare
