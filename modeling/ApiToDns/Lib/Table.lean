import Mathlib.Data.List.Nodup
import Mathlib.Data.List.Pairwise

/-!
# Lib.Table

Tables of a relational store whose rows have a rowid and at most one unique
key, as SQLite keeps them: a new row gets the rowid after the largest one in
use, so that the rowid of a deleted last row is given again, and a row whose
key is taken is refused.

The order of the rowids and the uniqueness of the keys are fields of `Table`,
so that every operation proves that it keeps them:

* `insert` — the rows gain one, at the end, with a rowid of its own;
* `delete` — the rows are filtered;
* `update` — the rows change without their keys;
* `set`, `setAll` — rows change with their keys, unless a key is taken.
-/

/-- Records with a unique key.  Two records without a key never clash, as
`NULL`s do not. -/
class Record (α : Type) where
  Key : Type
  decEq : DecidableEq Key
  key? : α → Option Key

namespace Record

instance [Record α] : DecidableEq (Key α) := decEq

end Record

/-- A row: its rowid and its columns. -/
structure Row (α : Type) where
  id : Nat
  val : α
deriving DecidableEq, Repr

/-- The key of a row. -/
abbrev Row.key? [Record α] (r : Row α) : Option (Record.Key α) := Record.key? r.val

/-- A table: rows in the order of their rowids, which start at 1, with
different keys. -/
structure Table (α : Type) [Record α] where
  rows : List (Row α)
  sorted : (0 :: rows.map Row.id).Pairwise (· < ·)
  unique : (rows.filterMap Row.key?).Nodup

namespace Table

variable {α : Type} [Record α]

/-- A table is its rows. -/
@[ext] theorem ext {t u : Table α} (h : t.rows = u.rows) : t = u := by
  cases t; cases u; cases h; rfl

instance [DecidableEq α] : DecidableEq (Table α) := fun t u =>
  decidable_of_iff (t.rows = u.rows) ⟨ext, fun h => h ▸ rfl⟩

/-- The table without rows. -/
def empty : Table α := ⟨[], by simp, by simp⟩

instance : Inhabited (Table α) := ⟨empty⟩

/-! ## reading -/

/-- The row with the rowid `id`. -/
def get? (t : Table α) (id : Nat) : Option (Row α) := t.rows.find? fun r => r.id = id

/-- The row with the key `k`. -/
def byKey (t : Table α) (k : Record.Key α) : Option (Row α) :=
  t.rows.find? fun r => r.key? = some k

/-- Row ids are positive. -/
theorem pos (t : Table α) {r : Row α} (h : r ∈ t.rows) : 0 < r.id :=
  List.rel_of_pairwise_cons t.sorted (List.mem_map_of_mem h)

/-- Row ids go up. -/
theorem ids_sorted (t : Table α) : (t.rows.map Row.id).Pairwise (· < ·) :=
  t.sorted.of_cons

/-- The rows are in the order of their ids. -/
theorem rows_sorted (t : Table α) : t.rows.Pairwise fun r s => r.id < s.id :=
  List.pairwise_map.mp t.ids_sorted

/-- A row id occurs once. -/
theorem eq_of_id (t : Table α) {r s : Row α} (hr : r ∈ t.rows) (hs : s ∈ t.rows)
    (h : r.id = s.id) : r = s := by
  have hids : (t.rows.map Row.id).Nodup := t.ids_sorted.imp fun h => Nat.ne_of_lt h
  exact List.inj_on_of_nodup_map hids hr hs h

/-- A key occurs once. -/
theorem eq_of_key (t : Table α) {r s : Row α} (hr : r ∈ t.rows) (hs : s ∈ t.rows)
    {k : Record.Key α} (hrk : r.key? = some k) (hsk : s.key? = some k) : r = s := by
  by_contra hne
  have hpair := List.pairwise_filterMap.mp t.unique
  have : Std.Symm fun r s : Row α => ∀ k, r.key? = some k → ∀ k', s.key? = some k' → k ≠ k' :=
    ⟨fun r s h k hk k' hk' heq => h k' hk' k hk heq.symm⟩
  exact hpair.forall hr hs hne k hrk k hsk rfl

/-- A row is found by its id. -/
theorem get?_eq_some_iff {t : Table α} {id : Nat} {r : Row α} :
    t.get? id = some r ↔ r ∈ t.rows ∧ r.id = id := by
  constructor
  · intro h
    exact ⟨List.mem_of_find?_eq_some h, by simpa using List.find?_some h⟩
  · intro h
    obtain ⟨s, hs⟩ := Option.isSome_iff_exists.mp
      (List.find?_isSome (p := fun s : Row α => decide (s.id = id)).mpr ⟨r, h.1, by simp [h.2]⟩)
    have hid : s.id = id := by simpa using List.find?_some hs
    rw [get?, hs, t.eq_of_id (List.mem_of_find?_eq_some hs) h.1 (hid.trans h.2.symm)]

/-- No row has the id 0. -/
theorem get?_zero (t : Table α) : t.get? 0 = none := by
  rw [get?, List.find?_eq_none]
  intro r hr
  simpa using Nat.ne_of_gt (t.pos hr)

/-- A row is found by its key. -/
theorem byKey_eq_some_iff {t : Table α} {k : Record.Key α} {r : Row α} :
    t.byKey k = some r ↔ r ∈ t.rows ∧ r.key? = some k := by
  constructor
  · intro h
    exact ⟨List.mem_of_find?_eq_some h, by simpa using List.find?_some h⟩
  · intro h
    obtain ⟨s, hs⟩ := Option.isSome_iff_exists.mp
      (List.find?_isSome (p := fun s : Row α => decide (s.key? = some k)).mpr
        ⟨r, h.1, by simp [h.2]⟩)
    have hkey : s.key? = some k := by simpa using List.find?_some hs
    rw [byKey, hs, t.eq_of_key (List.mem_of_find?_eq_some hs) h.1 hkey h.2]

/-- A key that no row has is not found. -/
theorem byKey_eq_none_iff {t : Table α} {k : Record.Key α} :
    t.byKey k = none ↔ ∀ r ∈ t.rows, r.key? ≠ some k := by
  simp [byKey]

/-! ## inserting -/

/-- The rowid of the next new row. -/
def nextId (t : Table α) : Nat := (t.rows.map Row.id).getLast?.getD 0 + 1

/-- The next id is above all ids. -/
theorem lt_nextId (t : Table α) {r : Row α} (h : r ∈ t.rows) : r.id < t.nextId := by
  have hne : t.rows.map Row.id ≠ [] := List.ne_nil_of_mem (List.mem_map_of_mem h)
  have hlast := t.ids_sorted.imp Nat.le_of_lt |>.rel_getLast (List.mem_map_of_mem h)
  rw [nextId, List.getLast?_eq_some_getLast hne, Option.getD_some]
  omega

/-- No row has the key of `v`. -/
def Free (t : Table α) (v : α) : Prop := ∀ r ∈ t.rows, ∀ k ∈ r.key?, Record.key? v ≠ some k

instance (t : Table α) (v : α) : Decidable (t.Free v) :=
  inferInstanceAs (Decidable (∀ r ∈ t.rows, ∀ k ∈ r.key?, Record.key? v ≠ some k))

/-- The row that `v` would be. -/
abbrev newRow (t : Table α) (v : α) : Row α := ⟨t.nextId, v⟩

/-- A new row keeps the ids in order. -/
theorem sorted_insert (t : Table α) (v : α) :
    (0 :: (t.rows ++ [t.newRow v]).map Row.id).Pairwise (· < ·) := by
  rw [List.map_append, List.map_singleton, ← List.cons_append, List.pairwise_append]
  refine ⟨t.sorted, by simp, ?_⟩
  intro i hi j hj
  rw [List.mem_singleton.mp hj]
  cases List.mem_cons.mp hi with
  | inl hi =>
      show i < t.nextId
      rw [hi, nextId]
      omega
  | inr hi =>
      obtain ⟨r, hr, hid⟩ := List.mem_map.mp hi
      rw [← hid]
      exact t.lt_nextId hr

/-- A new row with a free key keeps the keys apart. -/
theorem unique_insert {t : Table α} {v : α} (h : t.Free v) :
    ((t.rows ++ [t.newRow v]).filterMap Row.key?).Nodup := by
  rw [List.filterMap_append, List.nodup_append]
  refine ⟨t.unique, ?_, ?_⟩
  · cases hv : Record.key? v <;> simp [Row.key?, hv]
  · intro k hk k' hk' heq
    obtain ⟨r, hr, hrk⟩ := List.mem_filterMap.mp hk
    have hv : Record.key? v = some k' := by simpa [Row.key?] using hk'
    exact h r hr k hrk (by rw [hv, heq])

/-- Add a row, unless its key is taken. -/
def insert (t : Table α) (v : α) : Option (Table α) :=
  if h : t.Free v then some ⟨t.rows ++ [t.newRow v], t.sorted_insert v, unique_insert h⟩
  else none

/-- A row goes in if its key is free, at the end. -/
theorem insert_eq_some_iff {t u : Table α} {v : α} :
    t.insert v = some u ↔ t.Free v ∧ u.rows = t.rows ++ [t.newRow v] := by
  rw [insert]
  by_cases h : t.Free v
  · rw [dif_pos h, Option.some.injEq]
    constructor
    · intro hu
      rw [← hu]
      exact ⟨h, rfl⟩
    · intro hu
      exact ext hu.2.symm
  · rw [dif_neg h]
    simp [h]

/-- A row does not go in if its key is taken. -/
theorem insert_eq_none_iff {t : Table α} {v : α} : t.insert v = none ↔ ¬t.Free v := by
  rw [insert]
  by_cases h : t.Free v <;> simp [h]

/-- The next id goes up by one. -/
theorem nextId_of_insert {t u : Table α} {v : α} (h : t.insert v = some u) :
    u.nextId = t.nextId + 1 := by
  rw [nextId, (insert_eq_some_iff.mp h).2]
  simp

/-- Add rows in order. -/
def insertAll (t : Table α) (vs : List α) : Option (Table α) := vs.foldlM insert t

/-- Rows go in one after the other. -/
theorem insertAll_cons (t : Table α) (v : α) (vs : List α) :
    t.insertAll (v :: vs) = (t.insert v).bind fun u => u.insertAll vs := rfl

/-- The new rows stand after the old ones, in order and with consecutive
rowids. -/
theorem rows_insertAll {t u : Table α} {vs : List α} (h : t.insertAll vs = some u) :
    u.rows = t.rows ++ (vs.zipIdx t.nextId).map fun p => ⟨p.2, p.1⟩ := by
  induction vs generalizing t with
  | nil =>
      have hu : t = u := Option.some.inj h
      rw [hu]
      simp
  | cons v vs ih =>
      rw [insertAll_cons] at h
      obtain ⟨t', hv, hrest⟩ := Option.bind_eq_some_iff.mp h
      rw [ih hrest, nextId_of_insert hv, (insert_eq_some_iff.mp hv).2]
      simp

/-- The records of the rows are the old ones and the new ones. -/
theorem exists_val_insertAll_iff {t u : Table α} {vs : List α} (h : t.insertAll vs = some u)
    {v : α} : (∃ r ∈ u.rows, r.val = v) ↔ (∃ r ∈ t.rows, r.val = v) ∨ v ∈ vs := by
  have hvals : u.rows.map Row.val = t.rows.map Row.val ++ vs := by
    rw [rows_insertAll h, List.map_append, List.map_map]
    show _ ++ (vs.zipIdx t.nextId).map Prod.fst = _
    rw [List.zipIdx_map_fst]
  have hmem := congrArg (v ∈ ·) hvals
  simpa using hmem

/-- The rows that went into an empty table. -/
theorem vals_insertAll {u : Table α} {vs : List α} (h : empty.insertAll vs = some u) :
    u.rows.map Row.val = vs := by
  rw [rows_insertAll h, List.map_append, List.map_map]
  show [] ++ (vs.zipIdx empty.nextId).map Prod.fst = vs
  rw [List.nil_append, List.zipIdx_map_fst]

/-- Rows put into an empty table get the rowids 1, 2, 3 and so on. -/
theorem get?_insertAll {u : Table α} {vs : List α} (h : empty.insertAll vs = some u) {id : Nat}
    (hid : 0 < id) : (u.get? id).map Row.val = vs[id - 1]? := by
  have hrows := rows_insertAll h
  cases hv : vs[id - 1]? with
  | some v =>
      have hmem : (⟨id, v⟩ : Row α) ∈ u.rows := by
        rw [hrows]
        refine List.mem_append_right _ (List.mem_map.mpr ⟨(v, id), ?_, rfl⟩)
        exact List.mem_zipIdx_iff_le_and_getElem?_sub.mpr ⟨hid, hv⟩
      rw [get?_eq_some_iff.mpr ⟨hmem, rfl⟩]
      rfl
  | none =>
      cases hu : u.get? id with
      | none => rfl
      | some r =>
          obtain ⟨hmem, hr⟩ := get?_eq_some_iff.mp hu
          rw [hrows] at hmem
          simp only [empty, List.nil_append, List.mem_map] at hmem
          obtain ⟨p, hp, heq⟩ := hmem
          have hget := (List.mem_zipIdx_iff_le_and_getElem?_sub.mp hp).2
          have hpid : p.2 = id := by rw [← hr, ← heq]
          rw [hpid] at hget
          change vs[id - 1]? = some p.1 at hget
          exact absurd (hv.symm.trans hget) (by simp)

/-- Rows go in when no two keys clash. -/
theorem insertAll_isSome_iff {t : Table α} {vs : List α} :
    (∃ u, t.insertAll vs = some u) ↔
      (t.rows.filterMap Row.key? ++ vs.filterMap Record.key?).Nodup := by
  induction vs generalizing t with
  | nil =>
      rw [List.filterMap_nil, List.append_nil]
      exact ⟨fun _ => t.unique, fun _ => ⟨t, rfl⟩⟩
  | cons v vs ih =>
      rw [insertAll_cons]
      cases hv : t.insert v with
      | some t' =>
          obtain ⟨hfree, hrows⟩ := insert_eq_some_iff.mp hv
          rw [Option.bind_some, ih, hrows, List.filterMap_append]
          cases hk : Record.key? v <;> simp [hk, Row.key?]
      | none =>
          have hfree := insert_eq_none_iff.mp hv
          constructor
          · intro h
            simp at h
          · intro h
            refine absurd (fun r hr k hrk hk => ?_) hfree
            have hmem : k ∈ t.rows.filterMap Row.key? := List.mem_filterMap.mpr ⟨r, hr, hrk⟩
            have hdis := (List.nodup_append.mp h).2.2 k hmem
            exact hdis k (by rw [List.filterMap_cons, hk]; simp) rfl

/-- A table of given rows, for rows without clashing keys. -/
def ofList (vs : List α) : Table α := (empty.insertAll vs).getD empty

/-! ## changing -/

/-- Remove the rows of which `p` holds. -/
def delete (t : Table α) (p : Row α → Bool) : Table α where
  rows := t.rows.filter fun r => !p r
  sorted := t.sorted.sublist ((List.filter_sublist.map _).cons_cons _)
  unique := t.unique.sublist (List.filter_sublist.filterMap _)

/-- The rows that are left after a deletion. -/
@[simp] theorem mem_delete {t : Table α} {p : Row α → Bool} {r : Row α} :
    r ∈ (t.delete p).rows ↔ r ∈ t.rows ∧ p r = false := by
  simp [delete]

/-- Change the columns of every row, but not its key. -/
def update (t : Table α) (f : Row α → α) (h : ∀ r, Record.key? (f r) = r.key?) : Table α where
  rows := t.rows.map fun r => ⟨r.id, f r⟩
  sorted := by
    have hids : (t.rows.map fun r => (⟨r.id, f r⟩ : Row α)).map Row.id = t.rows.map Row.id := by
      rw [List.map_map]
      rfl
    rw [hids]
    exact t.sorted
  unique := by
    have hkeys : (t.rows.map fun r => (⟨r.id, f r⟩ : Row α)).filterMap Row.key? =
        t.rows.filterMap Row.key? := by
      rw [List.filterMap_map]
      exact List.filterMap_congr fun r _ => h r
    rw [hkeys]
    exact t.unique

/-- The rows of an updated table. -/
theorem mem_update {t : Table α} {f : Row α → α} {h : ∀ r, Record.key? (f r) = r.key?}
    {s : Row α} : s ∈ (t.update f h).rows ↔ ∃ r ∈ t.rows, ⟨r.id, f r⟩ = s := by
  simp [update]

/-- An update changes the values, not the ids. -/
theorem get?_update {t : Table α} {f : Row α → α} {h : ∀ r, Record.key? (f r) = r.key?} {id : Nat} :
    (t.update f h).get? id = (t.get? id).map fun r => ⟨r.id, f r⟩ := by
  rw [get?, update, List.find?_map]
  rfl

/-- No other row than the one with the rowid `id` has the key of `v`. -/
def FreeFor (t : Table α) (id : Nat) (v : α) : Prop :=
  ∀ r ∈ t.rows, r.id ≠ id → ∀ k ∈ r.key?, Record.key? v ≠ some k

instance (t : Table α) (id : Nat) (v : α) : Decidable (t.FreeFor id v) :=
  inferInstanceAs (Decidable (∀ r ∈ t.rows, r.id ≠ id → ∀ k ∈ r.key?, Record.key? v ≠ some k))

/-- A row, with the columns `v` if its rowid is `id`. -/
def setAt (id : Nat) (v : α) (r : Row α) : Row α := if r.id = id then ⟨r.id, v⟩ else r

omit [Record α] in
@[simp] theorem id_setAt (id : Nat) (v : α) (r : Row α) : (setAt id v r).id = r.id := by
  unfold setAt
  split <;> rfl

/-- A change to a free key keeps the keys apart. -/
theorem unique_set {t : Table α} {id : Nat} {v : α} (h : t.FreeFor id v) :
    ((t.rows.map (setAt id v)).filterMap Row.key?).Nodup := by
  rw [List.filterMap_map, List.Nodup, List.pairwise_filterMap]
  have hpair := (List.pairwise_filterMap.mp t.unique).and t.rows_sorted
  refine hpair.imp_of_mem ?_
  intro r s hr hs hrs k hk k' hk' heq
  have hne : r.id ≠ s.id := Nat.ne_of_lt hrs.2
  simp only [Function.comp_apply, setAt] at hk hk'
  by_cases hrid : r.id = id
  · rw [if_pos hrid] at hk
    rw [if_neg (by omega)] at hk'
    exact h s hs (by omega) k' hk' (heq ▸ hk)
  · rw [if_neg hrid] at hk
    by_cases hsid : s.id = id
    · rw [if_pos hsid] at hk'
      exact h r hr hrid k hk (heq ▸ hk')
    · rw [if_neg hsid] at hk'
      exact hrs.1 k hk k' hk' heq

/-- Change the columns of the row with the rowid `id`, unless the key is taken. -/
def set (t : Table α) (id : Nat) (v : α) : Option (Table α) :=
  if h : t.FreeFor id v then
    some
      { rows := t.rows.map (setAt id v)
        sorted := by
          have hids : (t.rows.map (setAt id v)).map Row.id = t.rows.map Row.id := by
            rw [List.map_map]
            exact List.map_congr_left fun r _ => id_setAt id v r
          rw [hids]
          exact t.sorted
        unique := unique_set h }
  else none

/-- A row is changed in place if its new key is free. -/
theorem set_eq_some_iff {t u : Table α} {id : Nat} {v : α} :
    t.set id v = some u ↔ t.FreeFor id v ∧ u.rows = t.rows.map (setAt id v) := by
  rw [set]
  by_cases h : t.FreeFor id v
  · rw [dif_pos h, Option.some.injEq]
    constructor
    · intro hu
      rw [← hu]
      exact ⟨h, rfl⟩
    · intro hu
      exact ext hu.2.symm
  · rw [dif_neg h]
    simp [h]

/-- Change the rows, one after the other: `f` tells the new columns of a row
that changes. -/
def setAll (t : Table α) (f : Row α → Option α) : Option (Table α) :=
  t.rows.foldlM (fun u r => match f r with
    | none => some u
    | some v => u.set r.id v) t

/-- A row as `setAll` leaves it. -/
def changed (f : Row α → Option α) (r : Row α) : Row α := ⟨r.id, (f r).getD r.val⟩

/-- A row keeps clear of the rows that are changed and of those that are not. -/
def Apart (f : Row α → Option α) (r s : Row α) : Prop :=
  ∀ v ∈ f r, ∀ k ∈ Record.key? v, s.key? ≠ some k ∧ (changed f s).key? ≠ some k

/-- Changes row by row that do not get in each other's way all go in. -/
theorem foldlM_set {t u : Table α} {f : Row α → Option α}
    (h : ∀ r ∈ t.rows, ∀ s ∈ t.rows, r ≠ s → Apart f r s) {done rest : List (Row α)}
    (ht : t.rows = done ++ rest) (hu : u.rows = done.map (changed f) ++ rest) :
    ∃ w, rest.foldlM (fun u r => match f r with
        | none => some u
        | some v => u.set r.id v) u = some w ∧
      w.rows = t.rows.map (changed f) := by
  induction rest generalizing done u with
  | nil =>
      refine ⟨u, rfl, ?_⟩
      rw [hu, ht]
      simp
  | cons r rest ih =>
      have hnext : t.rows = (done ++ [r]) ++ rest := by simp [ht]
      rw [List.foldlM_cons]
      cases hf : f r with
      | none =>
          have hsame : changed f r = r := by simp [changed, hf]
          exact ih hnext (by rw [hu]; simp [hsame])
      | some v =>
          have hr : r ∈ t.rows := by simp [ht]
          have hother : ∀ s ∈ t.rows, s.id ≠ r.id → Apart f r s := by
            intro s hs hid
            exact h r hr s hs fun heq => hid (by rw [heq])
          have hfree : u.FreeFor r.id v := by
            intro s hs hid k hk hv
            rw [hu, List.mem_append, List.mem_map] at hs
            rcases hs with ⟨s', hs', heq⟩ | hs
            · have hid' : s'.id ≠ r.id := by rw [← heq] at hid; exact hid
              have := hother s' (by simp [ht, hs']) hid' v hf k hv
              exact this.2 (heq ▸ hk)
            · have := hother s (by rw [ht]; exact List.mem_append_right _ hs) hid v hf k hv
              exact this.1 hk
          obtain ⟨u', hset⟩ : ∃ u', u.set r.id v = some u' := by
            rw [set, dif_pos hfree]
            exact ⟨_, rfl⟩
          have hrows := (set_eq_some_iff.mp hset).2
          have hsorted := t.rows_sorted
          rw [ht, List.pairwise_append] at hsorted
          obtain ⟨-, hrest, hdone⟩ := hsorted
          have hbefore : (done.map (changed f)).map (setAt r.id v) =
              done.map (changed f) := by
            rw [List.map_map]
            refine List.map_congr_left fun s hs => ?_
            have hlt := hdone s hs r (by simp)
            simp [setAt, changed, Nat.ne_of_lt hlt]
          have hafter : rest.map (setAt r.id v) = rest := by
            refine (List.map_congr_left fun s hs => ?_).trans (List.map_id rest)
            have hlt := List.rel_of_pairwise_cons hrest hs
            simp [setAt, Nat.ne_of_gt hlt]
          have hself : setAt r.id v r = changed f r := by
            simp [setAt, changed, hf]
          obtain ⟨w, hw, hwrows⟩ := ih (u := u') hnext (by
            rw [hrows, hu, List.map_append, List.map_cons, hbefore, hafter, hself]
            simp)
          exact ⟨w, by simpa [hset] using hw, hwrows⟩

/-- Where the changed rows keep clear of the others, all of them are changed. -/
theorem setAll_of_apart {t : Table α} {f : Row α → Option α}
    (h : ∀ r ∈ t.rows, ∀ s ∈ t.rows, r ≠ s → Apart f r s) :
    ∃ u, t.setAll f = some u ∧ u.rows = t.rows.map (changed f) :=
  foldlM_set h (List.nil_append _).symm (List.nil_append _).symm

/-- Where nothing changes, the table stays. -/
theorem setAll_of_none {t : Table α} {f : Row α → Option α} (h : ∀ r ∈ t.rows, f r = none) :
    t.setAll f = some t := by
  have hapart : ∀ r ∈ t.rows, ∀ s ∈ t.rows, r ≠ s → Apart f r s := by
    intro r hr s hs hne v hv
    rw [h r hr] at hv
    contradiction
  obtain ⟨u, hu, hrows⟩ := setAll_of_apart hapart
  have hsame : u = t := by
    refine ext (hrows.trans ((List.map_congr_left fun r hr => ?_).trans (List.map_id t.rows)))
    simp [changed, h r hr]
  rw [hu, hsame]

end Table
