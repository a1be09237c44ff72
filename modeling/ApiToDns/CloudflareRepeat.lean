import ApiToDns.CloudflareEntries

/-!
# CloudflareRepeat

The same replace once more at Cloudflare.  The rows the first one leaves are
written over with what they hold if every value is read back from its row and
no value is written twice (`syncRecords_repeats_iff`).
-/

namespace ApiToDns.Cloudflare

open Py Code

/-- The fields of a row without its id. -/
def fieldsOf (row : Dict) : Dict := row.filter fun field => field.1 ≠ lit "id"

/-- No two rows of the RRset hold the same body. -/
def Distinct (t : Target) (rows : List Dict) : Prop :=
  ((rows.filter (inRRset t.fqdn t.rt)).map fieldsOf).Nodup

section

variable {σ : Type}

/-- The call writes over a row. -/
def WritesOver (t : Target) (existing : List Dict) (o : HttpOp) : Prop :=
  ∃ row ∈ existing, ∃ body, o = (Change.update (idText row) body).op t.zoneId

/-- A replace that writes over the rows that are there, with no two of them the
same before, between the calls and at the end. -/
def Repeats (P : Platform) (cfg : Config) (t : Target) (desired : List Str)
    (h : Handler httpSig σ) (rows : σ → List Dict) (s : σ) : Prop :=
  let existing := (rows s).filter (inRRset t.fqdn t.rt)
  let code := syncRecords P cfg t desired existing
  ∃ s', code.run h s = (.ok (), s') ∧
    (∀ c ∈ code.calls h s, WritesOver t existing c.1 ∧ Distinct t (rows c.2)) ∧
    Distinct t (rows s')

/-- A replace that writes over its rows sends PUTs only. -/
theorem Repeats.methods {P : Platform} {cfg : Config} {t : Target} {desired : List Str}
    {h : Handler httpSig σ} {rows : σ → List Dict} {s : σ}
    (hrepeats : Repeats P cfg t desired h rows s) :
    ∀ c ∈ (syncRecords P cfg t desired ((rows s).filter (inRRset t.fqdn t.rt))).calls h s,
      c.1.method = .put := by
  obtain ⟨s', -, hcalls, -⟩ := hrepeats
  intro c hc
  obtain ⟨⟨row, -, body, hop⟩, -⟩ := hcalls c hc
  rw [hop]
  rfl

/-- Every value keeps its form, and one that is listed twice has a row already. -/
def Repeatable (P : Platform) (t : Target) (desired : List Str) (existing : List Dict) : Prop :=
  t.rt ≠ .cname → (∀ value ∈ desired, KeepsForm P.ucd t.rt value) ∧
    ∀ value, 2 ≤ desired.count value → ∃ row ∈ existing, canonicalFromRow P t.rt row = .ok value

end

section

variable {P : Platform} {cfg : Config} {t : Target} {values desired : List Str}
  {existing stale : List Dict} {kept entries : List (Str × Dict)} {rows rows' : List Dict}
  {value : Str}

/-! ## reading the rows back -/

/-- What is read of a written row. -/
theorem Written.canonicalFromRow_eq {row : Dict} (hw : Written P cfg t value row) :
    canonicalFromRow P t.rt row = readBack P cfg t value := by
  obtain ⟨id, body, hbody, rfl⟩ := hw
  rw [canonicalFromRow_rowOf, readBack, hbody, ok_bind]

/-- A row that is written has the body of its value. -/
theorem Written.eq_rowOf {row : Dict} (hw : Written P cfg t value row) :
    row = rowOf (idText row) (bodyOf P cfg t value) := by
  obtain ⟨id, body, hbody, rfl⟩ := hw
  simp [idText, bodyOf, hbody, Except.toOption]

/-- A body has no id. -/
theorem fieldsOf_rowOf {id : Str} {body : Dict}
    (hbody : recordBody P cfg t.fqdn t.rt value t.ttl = .ok body) :
    fieldsOf (rowOf id body) = body := by
  obtain ⟨data, hdata, hbody⟩ := bind_eq_ok hbody
  have hkeys : ∀ field ∈ data, field.1 ≠ lit "id" := by
    unfold recordData at hdata
    split at hdata
    · rw [← Except.ok.inj hdata]
      simp [lit]
    · obtain ⟨parts, -, hdata⟩ := bind_eq_ok hdata
      rw [← Except.ok.inj hdata]
      simp [lit]
    · obtain ⟨parts, -, hdata⟩ := bind_eq_ok hdata
      rw [← Except.ok.inj hdata]
      simp [lit]
    · obtain ⟨parts, -, hdata⟩ := bind_eq_ok hdata
      rw [← Except.ok.inj hdata]
      simp [lit]
    · rw [← Except.ok.inj hdata]
      simp [lit]
  rw [← Except.ok.inj hbody, fieldsOf, rowOf, List.filter_cons_of_neg (by simp), List.filter_eq_self]
  simp only [List.forall_mem_append, decide_eq_true_eq]
  refine ⟨⟨by simp [lit], hkeys⟩, ?_⟩
  split <;> simp [lit]

/-- The value of a row that has one. -/
def valueOf (P : Platform) (rt : RecordType) (row : Dict) : Str :=
  (canonicalFromRow P rt row).toOption.getD []

/-- The value of a row that can be read. -/
theorem valueOf_eq {row : Dict} (hread : canonicalFromRow P t.rt row = .ok value) :
    valueOf P t.rt row = value := by
  rw [valueOf, hread]
  rfl

variable (kept) in
/-- Rows with different wanted values are all kept. -/
theorem splitRows_all_kept
    (hread : ∀ row ∈ existing, ∃ value ∈ desired, canonicalFromRow P t.rt row = .ok value)
    (hnodup : (kept.map Prod.fst ++ existing.map (valueOf P t.rt)).Nodup) :
    ∃ kept', splitRows P t desired existing kept = .ok (kept', []) := by
  induction existing generalizing kept with
  | nil => exact ⟨kept, rfl⟩
  | cons row existing ih =>
      rw [List.forall_mem_cons] at hread
      obtain ⟨⟨content, hwanted, hcontent⟩, hrest⟩ := hread
      rw [List.map_cons, valueOf_eq hcontent] at hnodup
      have hnew : content ∉ kept.map Prod.fst := fun hmem =>
        (List.nodup_append.mp hnodup).2.2 _ hmem _ List.mem_cons_self rfl
      rw [splitRows, hcontent, ok_bind, if_pos ⟨hwanted, hnew⟩]
      exact ih _ hrest (by simpa using hnodup)

/-- The values of the rows of an RRset that is written. -/
theorem map_valueOf_entries {rest : List Dict} (hperm : rest.Perm (entries.map Prod.snd))
    (hread : ∀ e ∈ entries, canonicalFromRow P t.rt e.2 = .ok e.1) :
    (rest.map (valueOf P t.rt)).Perm (entries.map Prod.fst) := by
  have hmapped := hperm.map (valueOf P t.rt)
  have hvalues : entries.map (valueOf P t.rt ∘ Prod.snd) = entries.map Prod.fst :=
    List.map_congr_left fun e he => valueOf_eq (hread e he)
  rwa [List.map_map, hvalues] at hmapped

/-! ## changes that change nothing -/

/-- Writing over a row with the body it has changes nothing. -/
theorem Written.update_same {row : Dict} (hids : Identified rows) (hrow : row ∈ rows)
    (hw : Written P cfg t value row)
    (hmade : (Change.update (idText row) (bodyOf P cfg t value)).Made rows rows') : rows' = rows := by
  rw [show rows' = _ from hmade]
  refine (List.map_congr_left fun row' hrow' => ?_).trans (List.map_id rows)
  split
  · next heq =>
      rw [some_idText (hids.1 row hrow)] at heq
      rw [← hw.eq_rowOf, List.inj_on_of_nodup_map hids.2 hrow' hrow heq, id]
  · rfl

variable {σ : Type} {h : Handler httpSig σ} {zoneId : Str} {rowsOf : σ → List Dict} {s s' : σ}

/-- If no change changes anything, the rows are the same at every call. -/
theorem rows_of_calls_performAll (hk : Keeps P h zoneId rowsOf) {cs : List Change}
    (hs : rowsOf s = rows) (hsame : ∀ c ∈ cs, ∀ rows', c.Made rows rows' → rows' = rows) :
    ∀ c ∈ (performAll P zoneId cs).calls h s, rowsOf c.2 = rows := by
  induction cs generalizing s with
  | nil => exact List.forall_mem_nil _
  | cons c cs ih =>
      rw [List.forall_mem_cons] at hsame
      rw [calls_performAll_cons, List.forall_mem_cons]
      refine ⟨hs, ?_⟩
      cases hread : readResponse P (h (c.op zoneId) s).1 with
      | error e => exact List.forall_mem_nil _
      | ok body =>
          have hmade := hk.makes c s body hread
          rw [hs] at hmade
          exact ih (hsame.1 _ hmade) hsame.2

/-- Changes that change nothing change nothing together. -/
theorem allMade_same {cs : List Change}
    (hsame : ∀ c ∈ cs, ∀ rows', c.Made rows rows' → rows' = rows) (hmade : AllMade cs rows rows') :
    rows' = rows := by
  induction cs with
  | nil => exact hmade
  | cons c cs ih =>
      rw [List.forall_mem_cons] at hsame
      obtain ⟨mid, hc, hrest⟩ := hmade
      rw [hsame.1 mid hc] at hrest
      exact ih hsame.2 hrest

/-- Code that writes over rows with what they hold. -/
theorem repeats_of_eq (hk : Keeps P h t.zoneId rowsOf) (hids : Identified (rowsOf s))
    (hdistinct : Distinct t (rowsOf s)) {cs : List Change}
    (heq : syncRecords P cfg t desired ((rowsOf s).filter (inRRset t.fqdn t.rt)) =
      performAll P t.zoneId cs)
    (hcs : ∀ c ∈ cs, ∃ row ∈ (rowsOf s).filter (inRRset t.fqdn t.rt), ∃ value,
      Written P cfg t value row ∧ c = .update (idText row) (bodyOf P cfg t value))
    (hall : ∀ c ∈ (syncRecords P cfg t desired ((rowsOf s).filter (inRRset t.fqdn t.rt))).calls h s,
      Succeeds P h c) :
    Repeats P cfg t desired h rowsOf s := by
  have hsame : ∀ c ∈ cs, ∀ rows', c.Made (rowsOf s) rows' → rows' = rowsOf s := by
    intro c hc rows' hmade
    obtain ⟨row, hrow, value, hw, rfl⟩ := hcs c hc
    exact hw.update_same hids (List.mem_of_mem_filter hrow) hmade
  rw [heq] at hall
  obtain ⟨s', hrun, hmade, hcalls⟩ := run_performAll hk.makes hall
  rw [Repeats, heq]
  refine ⟨s', hrun, fun c hc => ⟨?_, ?_⟩, ?_⟩
  · have hmem := List.mem_map_of_mem (f := Prod.fst) hc
    rw [hcalls] at hmem
    obtain ⟨change, hchange, hop⟩ := List.mem_map.mp hmem
    obtain ⟨row, hrow, value, -, rfl⟩ := hcs change hchange
    exact ⟨row, hrow, _, hop.symm⟩
  · rwa [rows_of_calls_performAll hk rfl hsame c hc]
  · rwa [allMade_same hsame hmade]

/-! ## after a replace -/

/-- A value has no row if it is not among those kept. -/
theorem lookup_isNone_iff : (kept.lookup value).isNone = true ↔ value ∉ kept.map Prod.fst := by
  rw [Option.isNone_iff_eq_none, List.lookup_eq_none_iff]
  simp only [List.mem_map, bne_iff_ne, Prod.forall, not_exists, not_and]
  exact ⟨fun h key row hmem heq => h key row hmem heq.symm,
    fun h key row hmem heq => h key row hmem heq.symm⟩

/-- The values are written once each if those without a row are listed once. -/
theorem nodup_values_iff (hkept : (kept.map Prod.fst).Nodup) :
    (kept.map Prod.fst ++ desired.filter fun value => (kept.lookup value).isNone).Nodup ↔
      ∀ value, 2 ≤ desired.count value → value ∈ kept.map Prod.fst := by
  generalize hhas : (fun value => (kept.lookup value).isNone) = hasNone
  have hnone : ∀ value, hasNone value = true ↔ value ∉ kept.map Prod.fst := by
    intro value
    rw [← hhas]
    exact lookup_isNone_iff
  rw [List.nodup_append]
  constructor
  · intro ⟨_, hnew, _⟩ value hcount
    by_contra hnot
    have hle := List.nodup_iff_count_le_one.mp hnew value
    rw [List.count_filter ((hnone value).mpr hnot)] at hle
    omega
  · intro hcount
    refine ⟨hkept, List.nodup_iff_count_le_one.mpr fun value => ?_, ?_⟩
    · by_cases hvalue : hasNone value = true
      · rw [List.count_filter hvalue]
        have hnot := mt (hcount value) ((hnone value).mp hvalue)
        omega
      · rw [List.count_eq_zero.mpr fun hmem => hvalue (List.mem_filter.mp hmem).2]
        omega
    · intro value hvalue value' hvalue' heq
      rw [List.mem_filter, hnone] at hvalue'
      exact hvalue'.2 (heq ▸ hvalue)

/-- What a replace leaves: the rows of the RRset under the values they are
written for. -/
structure Left (P : Platform) (cfg : Config) (t : Target) (desired : List Str)
    (existing : List Dict) (entries : List (Str × Dict)) (rows : List Dict) : Prop where
  ids : Identified rows
  perm : (rows.filter (inRRset t.fqdn t.rt)).Perm (entries.map Prod.snd)
  written : ∀ e ∈ entries, Written P cfg t e.1 e.2
  values : ∀ value, value ∈ entries.map Prod.fst ↔ value ∈ desired
  nodup : (entries.map Prod.fst).Nodup ↔ ∀ value, 2 ≤ desired.count value →
    ∃ row ∈ existing, canonicalFromRow P t.rt row = .ok value

/-- Changes keep the rows identified. -/
theorem Identified.allMade {cs : List Change} (hids : Identified rows)
    (hmade : AllMade cs rows rows') : Identified rows' := by
  induction cs generalizing rows with
  | nil => rwa [show rows' = rows from hmade]
  | cons c cs ih =>
      obtain ⟨mid, hc, hrest⟩ := hmade
      exact ih (hids.made hc) hrest

/-- What a sync leaves behind. -/
theorem left_of_changes (hids : Identified rows)
    (hsplit : splitRows P t desired (rows.filter (inRRset t.fqdn t.rt)) [] = .ok (kept, stale))
    (hbody : ∀ value ∈ desired, HasBody P cfg t value)
    (hmade : AllMade (changes P cfg t desired kept stale) rows rows') :
    ∃ entries, Left P cfg t desired (rows.filter (inRRset t.fqdn t.rt)) entries rows' := by
  obtain ⟨added, hkept, hperm, hwanted, hnodup⟩ := splitRows_ok hsplit
  rw [List.nil_append] at hkept
  subst hkept
  have hlayout := layout_of_changes hids hsplit hbody hmade
  obtain ⟨entries, hvalues, hperm', hwritten⟩ := hlayout.written hwanted
  have hread := splitRows_reads hsplit (List.forall_mem_nil _)
  refine ⟨entries, hlayout.ids, hperm', hwritten, fun value => ?_, ?_⟩
  · rw [hvalues, List.mem_append, List.mem_filter, lookup_isNone_iff]
    constructor
    · rintro (hmem | ⟨hmem, -⟩)
      · obtain ⟨e, he, rfl⟩ := List.mem_map.mp hmem
        exact hwanted e he
      · exact hmem
    · intro hmem
      by_cases hkept : value ∈ kept.map Prod.fst
      · exact .inl hkept
      · exact .inr ⟨hmem, hkept⟩
  · rw [hvalues, nodup_values_iff (hnodup .nil)]
    refine forall_congr' fun value => imp_congr_right fun hcount => ⟨fun hmem => ?_, fun hrow => ?_⟩
    · obtain ⟨e, he, rfl⟩ := List.mem_map.mp hmem
      exact ⟨e.2, hperm.subset (List.mem_append_left _ (List.mem_map_of_mem he)), hread e he⟩
    · have hmem : value ∈ desired := List.count_pos_iff.mp (by omega)
      exact splitRows_keeps hsplit hmem (.inr hrow)

/-- The first rows of a list are not found among the others by their ids. -/
theorem filter_not_mem_take (hdistinct : (existing.map idOf).Nodup) (k : Nat) :
    existing.filter (fun row => idOf row ∉ (existing.take k).map idOf) = existing.drop k := by
  rw [← List.take_append_drop k existing, List.map_append, List.nodup_append] at hdistinct
  obtain ⟨-, -, hdisjoint⟩ := hdistinct
  have hparts : existing.filter (fun row => idOf row ∉ (existing.take k).map idOf) =
      (existing.take k ++ existing.drop k).filter fun row => idOf row ∉ (existing.take k).map idOf := by
    rw [List.take_append_drop]
  have hgone : (existing.take k).filter (fun row => idOf row ∉ (existing.take k).map idOf) = [] := by
    rw [List.filter_eq_nil_iff]
    intro row hrow
    rw [decide_eq_true_eq, not_not]
    exact List.mem_map_of_mem hrow
  have hleft : (existing.drop k).filter (fun row => idOf row ∉ (existing.take k).map idOf) =
      existing.drop k := by
    rw [List.filter_eq_self]
    intro row hrow
    rw [decide_eq_true_eq]
    exact fun hmem => hdisjoint _ hmem _ (List.mem_map_of_mem hrow) rfl
  rw [hparts, List.filter_append, hgone, hleft, List.nil_append]

/-- The rows of a CNAME while it is replaced: the first one has the value, and
the others go. -/
theorem filter_of_cnameChanges {first : Dict} {rest : List Dict} (hids : Identified rows)
    (hexisting : rows.filter (inRRset t.fqdn t.rt) = first :: rest) (hbody : HasBody P cfg t value)
    {k : Nat} (hmade : AllMade ((cnameChanges P cfg t value (first :: rest)).take (k + 1)) rows rows') :
    rows'.filter (inRRset t.fqdn t.rt) =
      rowOf (idText first) (bodyOf P cfg t value) :: rest.drop k := by
  obtain ⟨hsome, hdistinct⟩ := hexisting ▸ hids.filter (inRRset t.fqdn t.rt)
  rw [List.forall_mem_cons] at hsome
  rw [List.map_cons, List.nodup_cons] at hdistinct
  have hfirst := some_idText hsome.1
  have hin : some (idText first) ∈ (rows.filter (inRRset t.fqdn t.rt)).map idOf := by
    rw [hexisting, hfirst]
    exact List.mem_cons_self
  rw [cnameChanges, List.take_succ_cons, ← List.map_take] at hmade
  obtain ⟨mid, hupdate, hdeleted⟩ := hmade
  have hgone : ∀ row ∈ rest.take k, (idOf row).isSome := fun row hrow =>
    hsome.2 row (List.mem_of_mem_take hrow)
  have hrest : ∀ row ∈ rest, idOf row ≠ some (idText first) := fun row hrow heq =>
    hdistinct.1 (hfirst ▸ heq ▸ List.mem_map_of_mem hrow)
  have hmid : mid.filter (inRRset t.fqdn t.rt) =
      rowOf (idText first) (bodyOf P cfg t value) :: rest := by
    rw [show mid = _ from hupdate, filter_update hids hin hbody, hexisting, List.map_cons,
      if_pos hfirst.symm, List.map_congr_left fun row hrow => if_neg (hrest row hrow), List.map_id']
  have hnew : idOf (rowOf (idText first) (bodyOf P cfg t value)) ∉ (rest.take k).map idOf := by
    rw [idOf_rowOf]
    intro hmem
    obtain ⟨row, hrow, heq⟩ := List.mem_map.mp hmem
    exact hrest row (List.mem_of_mem_take hrow) heq
  rw [allMade_deletes hgone hdeleted, List.filter_filter,
    List.filter_congr (fun row _ => Bool.and_comm _ _), ← List.filter_filter, hmid,
    List.filter_cons, if_pos (decide_eq_true hnew), filter_not_mem_take hdistinct.2]

/-- A CNAME has one row. -/
theorem left_of_cnameChanges (hids : Identified rows) (hbody : HasBody P cfg t value)
    (hmade : AllMade (cnameChanges P cfg t value (rows.filter (inRRset t.fqdn t.rt))) rows rows') :
    ∃ row, Identified rows' ∧ rows'.filter (inRRset t.fqdn t.rt) = [row] ∧
      Written P cfg t value row := by
  have hids' := hids.allMade hmade
  cases hexisting : rows.filter (inRRset t.fqdn t.rt) with
  | nil =>
      rw [hexisting] at hmade
      obtain ⟨mid, ⟨id, -, rfl⟩, rfl⟩ := hmade
      have hnew : Written P cfg t value (rowOf id (bodyOf P cfg t value)) := ⟨id, _, hbody, rfl⟩
      refine ⟨_, hids', ?_, hnew⟩
      rw [List.filter_append, hexisting, List.nil_append, List.filter_singleton, hnew.inRRset]
      rfl
  | cons first rest =>
      have hall : (cnameChanges P cfg t value (first :: rest)).take (rest.length + 1) =
          cnameChanges P cfg t value (first :: rest) :=
        List.take_of_length_le (by simp [cnameChanges])
      rw [hexisting, ← hall] at hmade
      have hrows := filter_of_cnameChanges hids hexisting hbody hmade
      rw [List.drop_length] at hrows
      exact ⟨_, hids', hrows, _, _, hbody, rfl⟩

/-! ## the same replace again -/

/-- What a value is read back as is what its row says. -/
theorem readBack_of_hasBody (hbody : HasBody P cfg t value) :
    readBack P cfg t value = canonicalFromRow P t.rt (bodyOf P cfg t value) := by
  rw [readBack, show recordBody P cfg t.fqdn t.rt value t.ttl = _ from hbody, ok_bind]

section Again

variable (hleft : Left P cfg t desired existing entries (rowsOf s))
include hleft

/-- A row that is left is written for a wanted value. -/
theorem Left.written_of_mem {row : Dict} (hrow : row ∈ (rowsOf s).filter (inRRset t.fqdn t.rt)) :
    ∃ value ∈ desired, Written P cfg t value row := by
  obtain ⟨e, he, rfl⟩ := List.mem_map.mp (hleft.perm.mem_iff.mp hrow)
  exact ⟨e.1, (hleft.values e.1).mp (List.mem_map_of_mem he), hleft.written e he⟩

/-- The rows that are left have different values. -/
theorem Left.distinct (hbody : ∀ value ∈ desired, HasBody P cfg t value)
    (hfixed : ∀ value ∈ desired, readBack P cfg t value = .ok value)
    (hnodup : (entries.map Prod.fst).Nodup) : Distinct t (rowsOf s) := by
  have hfields : entries.map (fieldsOf ∘ Prod.snd) = (entries.map Prod.fst).map (bodyOf P cfg t) := by
    rw [List.map_map]
    refine List.map_congr_left fun e he => ?_
    have hvalue := (hleft.values e.1).mp (List.mem_map_of_mem he)
    rw [Function.comp, (hleft.written e he).eq_rowOf, fieldsOf_rowOf (hbody e.1 hvalue), Function.comp]
  rw [Distinct, (hleft.perm.map fieldsOf).nodup_iff, List.map_map, hfields]
  refine hnodup.map_on fun value hvalue value' hvalue' heq => ?_
  rw [hleft.values] at hvalue hvalue'
  have hread := hfixed value hvalue
  rw [readBack_of_hasBody (hbody value hvalue), heq, ← readBack_of_hasBody (hbody value' hvalue'),
    hfixed value' hvalue'] at hread
  exact (Except.ok.inj hread).symm

/-- Values that are read back and written once are written over. -/
theorem Left.repeats (hk : Keeps P h t.zoneId rowsOf) (hcname : t.rt ≠ .cname)
    (hbody : ∀ value ∈ desired, HasBody P cfg t value)
    (hfixed : ∀ value ∈ desired, readBack P cfg t value = .ok value)
    (hnodup : (entries.map Prod.fst).Nodup)
    (hall : ∀ c ∈ (syncRecords P cfg t desired ((rowsOf s).filter (inRRset t.fqdn t.rt))).calls h s,
      Succeeds P h c) :
    Repeats P cfg t desired h rowsOf s := by
  have hread : ∀ row ∈ (rowsOf s).filter (inRRset t.fqdn t.rt), ∃ value ∈ desired,
      canonicalFromRow P t.rt row = .ok value := by
    intro row hrow
    obtain ⟨value, hvalue, hw⟩ := hleft.written_of_mem hrow
    exact ⟨value, hvalue, by rw [hw.canonicalFromRow_eq, hfixed value hvalue]⟩
  have hentries : ∀ e ∈ entries, canonicalFromRow P t.rt e.2 = .ok e.1 := by
    intro e he
    rw [(hleft.written e he).canonicalFromRow_eq,
      hfixed e.1 ((hleft.values e.1).mp (List.mem_map_of_mem he))]
  have hvalues := map_valueOf_entries hleft.perm hentries
  obtain ⟨kept, hsplit⟩ := splitRows_all_kept [] hread (hvalues.nodup_iff.mpr hnodup)
  have hsome := (hleft.ids.filter (inRRset t.fqdn t.rt)).1
  refine repeats_of_eq hk hleft.ids (hleft.distinct hbody hfixed hnodup)
    (syncRecords_eq hcname hsome hbody hsplit) ?_ hall
  rw [changes, List.map_nil, List.nil_append, List.forall_mem_map]
  intro value hvalue
  -- the value is read of the row that it is written over
  have hkept : value ∈ kept.map Prod.fst := by
    refine splitRows_keeps hsplit hvalue (.inr ?_)
    obtain ⟨e, he, rfl⟩ := List.mem_map.mp ((hleft.values value).mpr hvalue)
    exact ⟨e.2, hleft.perm.mem_iff.mpr (List.mem_map_of_mem he), hentries e he⟩
  obtain ⟨row, hrow⟩ := Option.ne_none_iff_exists'.mp
    (mt Option.isNone_iff_eq_none.mpr (mt lookup_isNone_iff.mp (not_not.mpr hkept)))
  have hmem := mem_of_lookup_eq_some hrow
  obtain ⟨added, heq, hperm, -⟩ := splitRows_ok hsplit
  rw [List.nil_append] at heq
  subst heq
  have hrow' : row ∈ (rowsOf s).filter (inRRset t.fqdn t.rt) :=
    hperm.subset (List.mem_append_left _ (List.mem_map_of_mem hmem))
  obtain ⟨value', hvalue', hw⟩ := hleft.written_of_mem hrow'
  have hreads := splitRows_reads hsplit (List.forall_mem_nil _) _ hmem
  rw [hw.canonicalFromRow_eq, hfixed value' hvalue'] at hreads
  obtain rfl := Except.ok.inj hreads
  exact ⟨row, hrow', value', hw, by rw [writeOf, hrow]⟩

/-- Values that are written over are read back and written once. -/
theorem Left.of_repeats (hk : Keeps P h t.zoneId rowsOf) (hcname : t.rt ≠ .cname)
    (hbody : ∀ value ∈ desired, HasBody P cfg t value)
    (hshorter : ∀ value ∈ desired, ∀ w, readBack P cfg t value = .ok w →
      w = value ∨ w.length < value.length)
    (hall : ∀ c ∈ (syncRecords P cfg t desired ((rowsOf s).filter (inRRset t.fqdn t.rt))).calls h s,
      Succeeds P h c)
    (hrepeats : Repeats P cfg t desired h rowsOf s) :
    (∀ value ∈ desired, readBack P cfg t value = .ok value) ∧ (entries.map Prod.fst).Nodup := by
  obtain ⟨s', hrun, hcalls, -⟩ := hrepeats
  obtain ⟨kept, stale, hsplit⟩ : ∃ kept stale,
      splitRows P t desired ((rowsOf s).filter (inRRset t.fqdn t.rt)) [] = .ok (kept, stale) := by
    unfold syncRecords at hrun
    rw [if_neg hcname] at hrun
    obtain ⟨⟨kept, stale⟩, hsplit, -⟩ := run_lift_bind_eq_ok hrun
    exact ⟨kept, stale, hsplit⟩
  have heq := syncRecords_eq hcname (hleft.ids.filter (inRRset t.fqdn t.rt)).1 hbody hsplit
  rw [heq] at hall hcalls
  obtain ⟨-, -, -, hops⟩ := run_performAll hk.makes hall
  have hputs : ∀ c ∈ changes P cfg t desired kept stale, (c.op t.zoneId).method = .put := by
    intro c hc
    have hmem := hops ▸ List.mem_map_of_mem (f := Change.op t.zoneId) hc
    obtain ⟨call, hcall, hop⟩ := List.mem_map.mp hmem
    obtain ⟨⟨row, -, body, hover⟩, -⟩ := hcalls call hcall
    rw [← hop, hover]
    rfl
  simp only [changes, List.forall_mem_append, List.forall_mem_map] at hputs
  have hstale : stale = [] := List.eq_nil_iff_forall_not_mem.mpr fun row hrow =>
    absurd (hputs.1 row hrow) (by simp [deleteOf, Change.op])
  subst hstale
  obtain ⟨added, hkept, hperm, -, hnodup⟩ := splitRows_ok hsplit
  rw [List.nil_append] at hkept
  subst hkept
  rw [List.append_nil] at hperm
  have hreads := splitRows_reads hsplit (List.forall_mem_nil _)
  have hfixed : ∀ value ∈ desired, readBack P cfg t value = .ok value := by
    refine fixed_of_image hshorter fun value hvalue => ?_
    cases hlookup : kept.lookup value with
    | none => exact absurd (hputs.2 value hvalue) (by simp [writeOf, hlookup, Change.op])
    | some row =>
        have hmem := mem_of_lookup_eq_some hlookup
        obtain ⟨w, hw, hwritten⟩ :=
          hleft.written_of_mem (hperm.subset (List.mem_map_of_mem hmem))
        exact ⟨w, hw, by rw [← hwritten.canonicalFromRow_eq, hreads _ hmem]⟩
  refine ⟨hfixed, ?_⟩
  have hentries : ∀ e ∈ entries, canonicalFromRow P t.rt e.2 = .ok e.1 := by
    intro e he
    rw [(hleft.written e he).canonicalFromRow_eq,
      hfixed e.1 ((hleft.values e.1).mp (List.mem_map_of_mem he))]
  rw [← (map_valueOf_entries hleft.perm hentries).nodup_iff,
    (map_valueOf_entries hperm.symm hreads).nodup_iff]
  exact hnodup .nil

end Again

/-- The replace that follows the same replace writes over the rows that are
there, which differ all the time, exactly if each of the values keeps its form
and the values that are listed twice were there from the start. -/
theorem syncRecords_repeats_iff {first : σ} (hk : Keeps P h t.zoneId rowsOf)
    (hids : Identified (rowsOf first))
    (hnormal : normalizeRecordValues P.ucd t.rt values = .ok desired)
    (hfirst : (syncRecords P cfg t desired ((rowsOf first).filter (inRRset t.fqdn t.rt))).run h first =
      (.ok (), s))
    (hall : ∀ c ∈ (syncRecords P cfg t desired ((rowsOf s).filter (inRRset t.fqdn t.rt))).calls h s,
      Succeeds P h c) :
    Repeats P cfg t desired h rowsOf s ↔
      Repeatable P t desired ((rowsOf first).filter (inRRset t.fqdn t.rt)) := by
  have hbody : ∀ value ∈ desired, HasBody P cfg t value := hasBody_of_normal hnormal
  have hsome := (hids.filter (inRRset t.fqdn t.rt)).1
  by_cases hcname : t.rt = .cname
  · refine iff_of_true ?_ fun hne => absurd hcname hne
    obtain ⟨value, rfl⟩ := (normalizeRecordValues_ok hnormal).2 hcname
    have hvalue := hbody value List.mem_cons_self
    rw [syncRecords_cname_eq hcname hsome hvalue] at hfirst
    obtain ⟨row, hids', hrow, hw⟩ :=
      left_of_cnameChanges hids hvalue (allMade_of_run_performAll hk.makes hfirst)
    have hsome' := (hids'.filter (inRRset t.fqdn t.rt)).1
    refine repeats_of_eq hk hids' ?_ (syncRecords_cname_eq hcname hsome' hvalue) ?_ hall
    · rw [Distinct, hrow]
      exact List.nodup_singleton _
    · rw [hrow]
      intro c hc
      rw [List.mem_singleton.mp hc]
      exact ⟨row, List.mem_cons_self, value, hw, rfl⟩
  · obtain ⟨kept, stale, hsplit⟩ : ∃ kept stale,
        splitRows P t desired ((rowsOf first).filter (inRRset t.fqdn t.rt)) [] = .ok (kept, stale) := by
      have hrun := hfirst
      unfold syncRecords at hrun
      rw [if_neg hcname] at hrun
      obtain ⟨⟨kept, stale⟩, hsplit, -⟩ := run_lift_bind_eq_ok hrun
      exact ⟨kept, stale, hsplit⟩
    rw [syncRecords_eq hcname hsome hbody hsplit] at hfirst
    obtain ⟨entries, hleft⟩ :=
      left_of_changes hids hsplit hbody (allMade_of_run_performAll hk.makes hfirst)
    have hforms := fun value hvalue =>
      keepsForm_iff_readBack P cfg value hcname hnormal hvalue
    rw [Repeatable, imp_iff_right hcname, ← hleft.nodup]
    constructor
    · intro hrepeats
      obtain ⟨hfixed, hnodup⟩ := hleft.of_repeats hk hcname hbody
        (fun value hvalue => (hforms value hvalue).2) hall hrepeats
      exact ⟨fun value hvalue => (hforms value hvalue).1.mpr (hfixed value hvalue), hnodup⟩
    · intro ⟨hform, hnodup⟩
      exact hleft.repeats hk hcname hbody
        (fun value hvalue => (hforms value hvalue).1.mp (hform value hvalue)) hnodup hall

end

/-! ### a text in quotation marks and a text that is listed twice -/

/-- A text as `_sync_records` writes it. -/
def oneRow (id : Str) (content : Str) : Dict :=
  rowOf id [(lit "type", .str (lit "TXT")), (lit "name", .str (lit "www.example.com")),
    (lit "ttl", .int 300), (lit "content", .str content)]

/-- Of two texts one was kept and the other replaced; once more, and nothing changes. -/
theorem syncRecords_repeats_iff_text :
    Repeats .plain unproxied (wwwTarget .txt) [lit "two", lit "three"] keeper id
      [oneRow (lit "r2") (lit "\"two\""), oneRow (lit "000") (lit "\"three\"")] := by
  have hk : Keeps .plain keeper (wwwTarget .txt).zoneId id := keeper_keeps .plain
  have hnormal : normalizeRecordValues Platform.plain.ucd (wwwTarget .txt).rt
      [lit "two", lit "three"] = .ok [lit "two", lit "three"] := by decide
  have hfirst : (syncRecords .plain unproxied (wwwTarget .txt) [lit "two", lit "three"]
      (wwwTexts.filter (inRRset (wwwTarget .txt).fqdn (wwwTarget .txt).rt))).run keeper wwwTexts =
      (.ok (), [oneRow (lit "r2") (lit "\"two\""), oneRow (lit "000") (lit "\"three\"")]) := rfl
  have hforms : ∀ value ∈ [lit "two", lit "three"], isQuoted value = false := by decide
  refine (syncRecords_repeats_iff hk identified_wwwTexts hnormal hfirst (by decide)).mpr
    fun _ => ⟨hforms, ?_⟩
  intro value hvalue
  have honce : [lit "two", lit "three"].count value ≤ 1 :=
    List.nodup_iff_count_le_one.mp (by decide) value
  omega

/-- A text in quotation marks is deleted and created again, and a text that is
listed twice is in two rows. -/
theorem not_repeats_text :
    (normalizeRecordValues Platform.plain.ucd .txt [lit "\"a\""] = .ok [lit "\"a\""] ∧
        (syncRecords .plain unproxied (wwwTarget .txt) [lit "\"a\""] []).run keeper [] =
          (.ok (), [oneRow (lit "0") (lit "\"a\"")]) ∧
        ¬Repeats .plain unproxied (wwwTarget .txt) [lit "\"a\""] keeper id
          [oneRow (lit "0") (lit "\"a\"")]) ∧
      normalizeRecordValues Platform.plain.ucd .txt [lit "a", lit "a"] = .ok [lit "a", lit "a"] ∧
        (syncRecords .plain unproxied (wwwTarget .txt) [lit "a", lit "a"] []).run keeper [] =
          (.ok (), [oneRow (lit "0") (lit "\"a\""), oneRow (lit "00") (lit "\"a\"")]) ∧
        ¬Repeats .plain unproxied (wwwTarget .txt) [lit "a", lit "a"] keeper id
          [oneRow (lit "0") (lit "\"a\""), oneRow (lit "00") (lit "\"a\"")] := by
  refine ⟨⟨by decide, rfl, fun hrepeats => ?_⟩, by decide, rfl, fun hrepeats => ?_⟩
  · exact absurd hrepeats.methods (by decide)
  · exact absurd hrepeats.methods (by decide)

end ApiToDns.Cloudflare
