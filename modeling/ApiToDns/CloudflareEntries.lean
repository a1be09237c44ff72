import ApiToDns.CloudflareReplace

/-!
# CloudflareEntries

The rows of an RRset under their values while `_sync_records` changes them.
The stale rows go first and leave the rows that keep a value
(`perm_after_deletes`); then each row has the value it keeps or the one that is
written to it (`Layout`).
-/

namespace ApiToDns.Cloudflare

open Py Code

section

variable {P : Platform} {cfg : Config} {t : Target} {desired todo : List Str}
  {existing stale : List Dict} {kept : List (Str × Dict)} {rows rows' : List Dict} {value : Str}

/-! ## the ids of the rows -/

/-- An update keeps the ids. -/
theorem idOf_update (id : Str) (body row : Dict) :
    idOf (if idOf row = some id then rowOf id body else row) = idOf row := by
  split
  · next heq => rw [idOf_rowOf, heq]
  · rfl

/-- The rows of a zone keep ids of their own. -/
theorem Identified.made {c : Change} (hids : Identified rows) (hmade : c.Made rows rows') :
    Identified rows' := by
  cases c with
  | create body =>
      obtain ⟨id, hfresh, rfl⟩ := hmade
      refine ⟨List.forall_mem_append.mpr ⟨hids.1, by simp⟩, ?_⟩
      rw [List.map_append, List.map_singleton, idOf_rowOf, ← List.concat_eq_append]
      exact (List.nodup_concat _ _).mpr ⟨hfresh, hids.2⟩
  | update id body =>
      have hsame : rows'.map idOf = rows.map idOf := by
        rw [show rows' = _ from hmade, List.map_map]
        exact List.map_congr_left fun row _ => idOf_update id body row
      refine ⟨fun row hrow => ?_, hsame ▸ hids.2⟩
      have hmem : idOf row ∈ rows.map idOf := hsame ▸ List.mem_map_of_mem hrow
      obtain ⟨row', hrow', heq⟩ := List.mem_map.mp hmem
      exact heq ▸ hids.1 row' hrow'
  | delete id =>
      rw [show rows' = _ from hmade]
      exact hids.filter _

/-- Writing over a row of the RRset changes the rows of the RRset. -/
theorem filter_update {id : Str} {body : Dict} (hids : Identified rows)
    (hid : some id ∈ (rows.filter (inRRset t.fqdn t.rt)).map idOf)
    (hbody : recordBody P cfg t.fqdn t.rt value t.ttl = .ok body) :
    (rows.map fun row => if idOf row = some id then rowOf id body else row).filter
        (inRRset t.fqdn t.rt) =
      (rows.filter (inRRset t.fqdn t.rt)).map fun row =>
        if idOf row = some id then rowOf id body else row := by
  obtain ⟨old, hold, heq⟩ := List.mem_map.mp hid
  rw [List.mem_filter] at hold
  have hnew : Written P cfg t value (rowOf id body) := ⟨id, body, hbody, rfl⟩
  have hin : ∀ row ∈ rows, (inRRset t.fqdn t.rt ∘ fun row =>
      if idOf row = some id then rowOf id body else row) row = inRRset t.fqdn t.rt row := by
    intro row hrow
    by_cases hthis : idOf row = some id
    · have hsame : row = old := List.inj_on_of_nodup_map hids.2 hrow hold.1 (hthis.trans heq.symm)
      rw [Function.comp, if_pos hthis, hnew.inRRset, hsame, hold.2]
    · simp [hthis]
  rw [List.filter_map, List.filter_congr hin]

/-! ## rows that keep a value -/

/-- A row is kept under the value that is read of it. -/
theorem splitRows_reads {kept' : List (Str × Dict)}
    (hr : splitRows P t desired existing kept = .ok (kept', stale))
    (hkept : ∀ e ∈ kept, canonicalFromRow P t.rt e.2 = .ok e.1) :
    ∀ e ∈ kept', canonicalFromRow P t.rt e.2 = .ok e.1 := by
  induction existing generalizing kept stale with
  | nil =>
      obtain ⟨rfl, rfl⟩ := Prod.ext_iff.mp (Except.ok.inj hr)
      exact hkept
  | cons row existing ih =>
      obtain ⟨content, hcontent, hr⟩ := bind_eq_ok hr
      split at hr
      · refine ih hr (List.forall_mem_append.mpr ⟨hkept, ?_⟩)
        simpa using hcontent
      · obtain ⟨⟨kept'', stale'⟩, hrest, hr⟩ := bind_eq_ok hr
        obtain ⟨rfl, rfl⟩ := Prod.ext_iff.mp (Except.ok.inj hr)
        exact ih hrest hkept

/-- A wanted value that is read of a row is kept. -/
theorem splitRows_keeps {kept' : List (Str × Dict)}
    (hr : splitRows P t desired existing kept = .ok (kept', stale)) (hvalue : value ∈ desired)
    (hread : value ∈ kept.map Prod.fst ∨ ∃ row ∈ existing, canonicalFromRow P t.rt row = .ok value) :
    value ∈ kept'.map Prod.fst := by
  induction existing generalizing kept stale with
  | nil =>
      obtain ⟨rfl, rfl⟩ := Prod.ext_iff.mp (Except.ok.inj hr)
      exact hread.resolve_right (by simp)
  | cons row existing ih =>
      obtain ⟨content, hcontent, hr⟩ := bind_eq_ok hr
      have hlater : value = content ∨ value ∈ kept.map Prod.fst ∨
          ∃ row ∈ existing, canonicalFromRow P t.rt row = .ok value := by
        rcases hread with hread | ⟨row', hrow', hread⟩
        · exact .inr (.inl hread)
        · rcases List.mem_cons.mp hrow' with rfl | hrow'
          · exact .inl (Except.ok.inj (hread.symm.trans hcontent))
          · exact .inr (.inr ⟨row', hrow', hread⟩)
      split at hr
      · refine ih hr ?_
        rcases hlater with rfl | hlater | hlater
        · exact .inl (by simp)
        · exact .inl (by simp [List.mem_map.mp hlater])
        · exact .inr hlater
      · next hnot =>
          obtain ⟨⟨kept'', stale'⟩, hrest, hr⟩ := bind_eq_ok hr
          obtain ⟨rfl, rfl⟩ := Prod.ext_iff.mp (Except.ok.inj hr)
          refine ih hrest ?_
          rcases hlater with rfl | hlater
          · exact .inl (by simpa [hvalue] using hnot)
          · exact hlater

/-- The rows that are kept have ids of their own. -/
theorem keyed_of_split (hids : Identified existing)
    (hr : splitRows P t desired existing [] = .ok (kept, stale)) : Keyed kept := by
  obtain ⟨added, hkept, hperm, -, hnodup⟩ := splitRows_ok hr
  rw [List.nil_append] at hkept
  subst hkept
  obtain ⟨hsome, hdistinct⟩ := hids.perm hperm
  rw [List.map_append, List.nodup_append, List.map_map] at hdistinct
  refine ⟨?_, ?_, ?_⟩
  · exact fun e he e' he' heq => List.inj_on_of_nodup_map (hnodup .nil) he he' heq
  · exact fun e he e' he' heq => List.inj_on_of_nodup_map hdistinct.1 he he' heq
  · exact fun e he => hsome _ (List.mem_append_left _ (List.mem_map_of_mem he))

/-! ## deleting the stale rows -/

/-- What is left after deletions. -/
theorem allMade_deletes {gone : List Dict} (hids : ∀ row ∈ gone, (idOf row).isSome)
    (hmade : AllMade (gone.map deleteOf) rows rows') :
    rows' = rows.filter fun row => idOf row ∉ gone.map idOf := by
  induction gone generalizing rows with
  | nil =>
      rw [show rows' = rows from hmade]
      simp
  | cons row gone ih =>
      rw [List.forall_mem_cons] at hids
      obtain ⟨mid, hdelete, hrest⟩ := hmade
      rw [ih hids.2 hrest, show mid = _ from hdelete, some_idText hids.1, List.filter_filter]
      simp [Bool.and_comm]

/-- The RRset after a first part of the stale rows is deleted. -/
theorem perm_after_deletes {gone rest : List Dict} (hids : Identified rows)
    (hsplit : splitRows P t desired (rows.filter (inRRset t.fqdn t.rt)) [] =
      .ok (kept, gone ++ rest))
    (hmade : AllMade (gone.map deleteOf) rows rows') :
    Identified rows' ∧ (rows'.filter (inRRset t.fqdn t.rt)).Perm (kept.map Prod.snd ++ rest) := by
  obtain ⟨added, hkept, hperm, -⟩ := splitRows_ok hsplit
  rw [List.nil_append] at hkept
  subst hkept
  obtain ⟨hsome, hdistinct⟩ := (hids.filter (inRRset t.fqdn t.rt)).perm hperm
  have hgone : ∀ row ∈ gone, (idOf row).isSome := fun row hrow => hsome row (by simp [hrow])
  rw [allMade_deletes hgone hmade]
  refine ⟨hids.filter _, ?_⟩
  -- the order of the stale rows among the others does not matter
  have hmiddle : (kept.map Prod.snd ++ (gone ++ rest)).Perm (gone ++ (kept.map Prod.snd ++ rest)) := by
    rw [← List.append_assoc, ← List.append_assoc]
    exact List.perm_append_comm.append_right rest
  have hdistinct' := (hmiddle.map idOf).nodup_iff.mp hdistinct
  rw [List.map_append, List.nodup_append] at hdistinct'
  have hkeep : (kept.map Prod.snd ++ rest).filter (fun row => idOf row ∉ gone.map idOf) =
      kept.map Prod.snd ++ rest := by
    rw [List.filter_eq_self]
    intro row hrow
    rw [decide_eq_true_eq]
    exact fun hmem => hdistinct'.2.2 _ hmem _ (List.mem_map_of_mem hrow) rfl
  have hdrop : gone.filter (fun row => idOf row ∉ gone.map idOf) = [] := by
    rw [List.filter_eq_nil_iff]
    intro row hrow
    rw [decide_eq_true_eq, not_not]
    exact List.mem_map_of_mem hrow
  have hleft := ((hmiddle.symm.trans hperm).filter fun row => idOf row ∉ gone.map idOf).symm
  rw [List.filter_append, hdrop, List.nil_append, hkeep] at hleft
  rwa [List.filter_filter, List.filter_congr (fun row _ => Bool.and_comm _ _),
    ← List.filter_filter]

/-! ## writing the values -/

/-- The rows of an RRset under their values once the values of `done` are
written: a row that keeps a value, or one that is written for it, and another
one each time a value without a row is written. -/
structure Entries (P : Platform) (cfg : Config) (t : Target) (kept : List (Str × Dict))
    (done : List Str) (entries : List (Str × Dict)) : Prop where
  values : entries.map Prod.fst =
    kept.map Prod.fst ++ done.filter fun value => (kept.lookup value).isNone
  row : ∀ e ∈ entries, (e.1 ∈ done ∧ Written P cfg t e.1 e.2) ∨ (e.1 ∉ done ∧ e ∈ kept)
  kept : ∀ e ∈ kept, ∃ e' ∈ entries, e'.1 = e.1 ∧ idOf e'.2 = idOf e.2

/-- The zone while the values are written. -/
structure Layout (P : Platform) (cfg : Config) (t : Target) (kept : List (Str × Dict))
    (done : List Str) (rows : List Dict) : Prop where
  ids : Identified rows
  entries : ∃ entries, Entries P cfg t kept done entries ∧
    (rows.filter (inRRset t.fqdn t.rt)).Perm (entries.map Prod.snd)

/-- Before anything is written, the kept rows are the entries. -/
theorem entries_nil : Entries P cfg t kept [] kept where
  values := by simp
  row e he := .inr ⟨by simp, he⟩
  kept e he := ⟨e, he, rfl, rfl⟩

variable {done : List Str} {entries : List (Str × Dict)}

/-- A created row extends the layout. -/
theorem Layout.create (hl : Layout P cfg t kept done rows) (hbody : HasBody P cfg t value)
    (hnone : kept.lookup value = none)
    (hmade : (Change.create (bodyOf P cfg t value)).Made rows rows') :
    Layout P cfg t kept (done ++ [value]) rows' := by
  obtain ⟨id, hfresh, rfl⟩ := hmade
  obtain ⟨hids, entries, hentries, hperm⟩ := hl
  have hnew : Written P cfg t value (rowOf id (bodyOf P cfg t value)) := ⟨id, _, hbody, rfl⟩
  have hids' := hids.made (c := .create (bodyOf P cfg t value)) ⟨id, hfresh, rfl⟩
  refine ⟨hids', entries ++ [(value, rowOf id (bodyOf P cfg t value))], ⟨?_, ?_, ?_⟩, ?_⟩
  · simp [hentries.values, List.filter_append, hnone]
  · rw [List.forall_mem_append]
    constructor
    · intro e he
      refine (hentries.row e he).imp (fun h => ⟨by simp [h.1], h.2⟩) fun ⟨hnot, hmem⟩ => ⟨?_, hmem⟩
      have hne := ne_of_lookup_eq_none hnone e hmem
      simp [hnot, hne]
    · simpa using hnew
  · intro e he
    obtain ⟨e', he', heq⟩ := hentries.kept e he
    exact ⟨e', by simp [he'], heq⟩
  · rw [List.filter_append, List.filter_singleton, hnew.inRRset, List.map_append]
    exact hperm.append_right _

/-- An updated row extends the layout. -/
theorem Layout.update (hl : Layout P cfg t kept done rows) (hkeyed : Keyed kept)
    (hbody : HasBody P cfg t value) {row : Dict} (hrow : kept.lookup value = some row)
    (hmade : (Change.update (idText row) (bodyOf P cfg t value)).Made rows rows') :
    Layout P cfg t kept (done ++ [value]) rows' := by
  obtain ⟨hids, entries, hentries, hperm⟩ := hl
  have hmem := mem_of_lookup_eq_some hrow
  have hid := some_idText (hkeyed.isSome _ hmem)
  dsimp only at hid
  generalize idText row = id at hid hmade
  have hids' := hids.made hmade
  rw [Change.Made] at hmade
  subst hmade
  have hnew : Written P cfg t value (rowOf id (bodyOf P cfg t value)) := ⟨id, _, hbody, rfl⟩
  -- the entry with the id is that of the value
  have hown : ∀ e ∈ entries, idOf e.2 = some id → e.1 = value := by
    intro e he heq
    have hnodup : (entries.map fun e => idOf e.2).Nodup := by
      have hrows := (hids.filter (inRRset t.fqdn t.rt)).2
      rw [(hperm.map idOf).nodup_iff, List.map_map] at hrows
      exact hrows
    obtain ⟨e', he', hfst, hid'⟩ := hentries.kept _ hmem
    rw [List.inj_on_of_nodup_map hnodup he he' (by rw [heq, hid', hid])]
    exact hfst
  refine ⟨hids', entries.map fun e =>
    (e.1, if idOf e.2 = some id then rowOf id (bodyOf P cfg t value) else e.2), ⟨?_, ?_, ?_⟩, ?_⟩
  · simp [List.map_map, Function.comp_def, hentries.values, List.filter_append, hrow]
  · rw [List.forall_mem_map]
    intro e he
    by_cases hthis : idOf e.2 = some id
    · rw [if_pos hthis, hown e he hthis]
      exact .inl ⟨by simp, hnew⟩
    · rw [if_neg hthis]
      refine (hentries.row e he).imp (fun h => ⟨by simp [h.1], h.2⟩) fun h => ⟨?_, h.2⟩
      have hne : e.1 ≠ value := fun heq => hthis (by rw [hkeyed.values e h.2 _ hmem heq, hid])
      simp [h.1, hne]
  · intro e he
    obtain ⟨e', he', hfst, hid'⟩ := hentries.kept e he
    exact ⟨_, List.mem_map_of_mem he', hfst, by rw [idOf_update, hid']⟩
  · have hin : some id ∈ (rows.filter (inRRset t.fqdn t.rt)).map idOf := by
      obtain ⟨e', he', -, hid'⟩ := hentries.kept _ hmem
      exact List.mem_map.mpr ⟨e'.2, hperm.mem_iff.mpr (List.mem_map_of_mem he'), by rw [hid', hid]⟩
    have hmapped := hperm.map fun row' =>
      if idOf row' = some id then rowOf id (bodyOf P cfg t value) else row'
    rw [List.map_map] at hmapped
    rw [filter_update hids hin hbody, List.map_map]
    exact hmapped

/-- A written value extends the layout. -/
theorem Layout.write (hl : Layout P cfg t kept done rows) (hkeyed : Keyed kept)
    (hbody : HasBody P cfg t value) (hmade : (writeOf P cfg t kept value).Made rows rows') :
    Layout P cfg t kept (done ++ [value]) rows' := by
  unfold writeOf at hmade
  cases hlookup : kept.lookup value with
  | none =>
      rw [hlookup] at hmade
      exact hl.create hbody hlookup hmade
  | some row =>
      rw [hlookup] at hmade
      exact hl.update hkeyed hbody hlookup hmade

/-- Written values extend the layout one by one. -/
theorem Layout.writes (hl : Layout P cfg t kept done rows) (hkeyed : Keyed kept)
    (hbody : ∀ value ∈ todo, HasBody P cfg t value)
    (hmade : AllMade (todo.map (writeOf P cfg t kept)) rows rows') :
    Layout P cfg t kept (done ++ todo) rows' := by
  induction todo generalizing done rows with
  | nil =>
      rw [show rows' = rows from hmade]
      simpa using hl
  | cons value todo ih =>
      rw [List.forall_mem_cons] at hbody
      obtain ⟨mid, hwrite, hrest⟩ := hmade
      have hlater := ih (hl.write hkeyed hbody.1 hwrite) hbody.2 hrest
      simpa using hlater

/-- The zone once the stale rows are deleted and the values of `done` are
written. -/
theorem layout_of_changes (hids : Identified rows)
    (hsplit : splitRows P t desired (rows.filter (inRRset t.fqdn t.rt)) [] = .ok (kept, stale))
    (hbody : ∀ value ∈ done, HasBody P cfg t value)
    (hmade : AllMade (changes P cfg t done kept stale) rows rows') :
    Layout P cfg t kept done rows' := by
  obtain ⟨mid, hdeleted, hwritten⟩ := allMade_append.mp hmade
  obtain ⟨hids', hperm⟩ := perm_after_deletes hids ((List.append_nil stale).symm ▸ hsplit) hdeleted
  have hstart : Layout P cfg t kept [] mid := ⟨hids', kept, entries_nil, by simpa using hperm⟩
  have hkeyed := keyed_of_split (hids.filter (inRRset t.fqdn t.rt)) hsplit
  simpa using hstart.writes hkeyed hbody hwritten

/-- All values are written. -/
theorem Layout.written (hl : Layout P cfg t kept desired rows)
    (hkept : ∀ e ∈ kept, e.1 ∈ desired) :
    ∃ entries : List (Str × Dict), entries.map Prod.fst =
        kept.map Prod.fst ++ desired.filter (fun value => (kept.lookup value).isNone) ∧
      (rows.filter (inRRset t.fqdn t.rt)).Perm (entries.map Prod.snd) ∧
      ∀ e ∈ entries, Written P cfg t e.1 e.2 := by
  obtain ⟨-, entries, hentries, hperm⟩ := hl
  refine ⟨entries, hentries.values, hperm, fun e he => ?_⟩
  rcases hentries.row e he with ⟨-, hwritten⟩ | ⟨hnot, hmem⟩
  · exact hwritten
  · exact absurd (hkept e hmem) hnot

end

end ApiToDns.Cloudflare
