import Mathlib.Data.List.Nodup

/-!
# Grouping

Items grouped under the keys they have, in the order in which the keys appear,
as far as a limit on the number of groups.  An item may have no key.

* `keys` — the keys of a list of items, each once (`mem_keys_iff`, `nodup_keys`);
* `firstGroups` — the groups of the first keys;
* `firstGroups_append_eq_iff` — when the items that follow add nothing to them;
* `AddsNothing` — items that add nothing to them because the limit is exceeded.
-/

namespace Grouping

variable {α κ : Type} [DecidableEq κ]

/-- A key after those that are there, once. -/
def addKey (ks : List κ) (k : κ) : List κ := if k ∈ ks then ks else ks ++ [k]

/-- The keys of the items in the order of their first appearance. -/
def keys (key : α → Option κ) (xs : List α) : List κ := (xs.filterMap key).foldl addKey []

/-- The items of a key. -/
def group (key : α → Option κ) (xs : List α) (k : κ) : List α := xs.filter fun x => key x = some k

/-- The groups of the first keys. -/
def firstGroups (key : α → Option κ) (limit : Nat) (xs : List α) : List (κ × List α) :=
  ((keys key xs).take limit).map fun k => (k, group key xs k)

/-- There are more keys than the limit allows. -/
def Exceeds (key : α → Option κ) (limit : Nat) (xs : List α) : Prop := limit < (keys key xs).length

instance (key : α → Option κ) (limit : Nat) (xs : List α) : Decidable (Exceeds key limit xs) :=
  inferInstanceAs (Decidable (_ < _))

@[simp] theorem decide_exceeds (key : α → Option κ) (limit : Nat) (xs : List α) :
    decide (Exceeds key limit xs) = decide (limit < (keys key xs).length) := rfl

variable {key : α → Option κ} {xs ys : List α} {x : α} {k : κ} {limit : Nat}

/-! ## keys -/

/-- Keys are only added at the end. -/
theorem foldl_addKey_isPrefix (ks new : List κ) : ks <+: new.foldl addKey ks := by
  induction new generalizing ks with
  | nil => exact List.prefix_refl ks
  | cons k new ih =>
      refine List.IsPrefix.trans ?_ (ih (addKey ks k))
      unfold addKey
      split
      · exact List.prefix_refl ks
      · exact List.prefix_append ks [k]

/-- A key is there if it was before or is among the new ones. -/
theorem mem_foldl_addKey {ks new : List κ} : k ∈ new.foldl addKey ks ↔ k ∈ ks ∨ k ∈ new := by
  induction new generalizing ks with
  | nil => simp
  | cons k' new ih =>
      have hadd : k ∈ addKey ks k' ↔ k ∈ ks ∨ k = k' := by
        unfold addKey
        split
        · next hmem => exact ⟨.inl, fun h => h.elim id fun heq => heq ▸ hmem⟩
        · simp
      rw [List.foldl_cons, ih, hadd, List.mem_cons, or_assoc]

/-- No key is added twice. -/
theorem nodup_foldl_addKey {ks : List κ} (new : List κ) (h : ks.Nodup) :
    (new.foldl addKey ks).Nodup := by
  induction new generalizing ks with
  | nil => exact h
  | cons k new ih =>
      refine ih ?_
      unfold addKey
      split
      · exact h
      · next hnot =>
          rw [← List.concat_eq_append]
          exact (List.nodup_concat _ _).mpr ⟨hnot, h⟩

/-- The keys are those that the items have. -/
theorem mem_keys_iff : k ∈ keys key xs ↔ ∃ x ∈ xs, key x = some k := by
  rw [keys, mem_foldl_addKey, List.mem_filterMap]
  simp

/-- No key comes twice. -/
theorem nodup_keys (key : α → Option κ) (xs : List α) : (keys key xs).Nodup :=
  nodup_foldl_addKey _ .nil

/-- Items that follow leave the earlier keys where they are. -/
theorem keys_isPrefix (key : α → Option κ) (xs ys : List α) : keys key xs <+: keys key (xs ++ ys) := by
  rw [keys, keys, List.filterMap_append, List.foldl_append]
  exact foldl_addKey_isPrefix _ _

/-- An item without a key, or with one that is there, adds no key. -/
theorem keys_concat (key : α → Option κ) (xs : List α) (x : α) :
    keys key (xs ++ [x]) = (key x).elim (keys key xs) (addKey (keys key xs)) := by
  rw [keys, List.filterMap_append, List.foldl_append]
  cases hx : key x <;> simp [hx, keys]

/-- A limit that is exceeded stays so. -/
theorem Exceeds.append (h : Exceeds key limit xs) (ys : List α) : Exceeds key limit (xs ++ ys) :=
  Nat.lt_of_lt_of_le h (keys_isPrefix key xs ys).length_le

/-- Once the limit is reached the first keys stay the same. -/
theorem take_keys_append (h : limit ≤ (keys key xs).length) (ys : List α) :
    (keys key (xs ++ ys)).take limit = (keys key xs).take limit := by
  obtain ⟨rest, hrest⟩ := keys_isPrefix key xs ys
  rw [← hrest, List.take_append_of_le_length h]

/-- A key that is there is among the first ones or not for good. -/
theorem mem_take_keys_append (hk : k ∈ keys key xs) (ys : List α) :
    k ∈ (keys key (xs ++ ys)).take limit ↔ k ∈ (keys key xs).take limit := by
  rcases Nat.lt_or_ge (keys key xs).length limit with hlt | hge
  · obtain ⟨rest, hrest⟩ := keys_isPrefix key xs ys
    rw [← hrest, List.take_append, List.take_of_length_le (Nat.le_of_lt hlt), List.mem_append]
    exact iff_of_true (.inl hk) hk
  · rw [take_keys_append hge]

/-! ## groups -/

/-- The group of a key over a concatenation. -/
theorem group_append (key : α → Option κ) (xs ys : List α) (k : κ) :
    group key (xs ++ ys) k = group key xs k ++ group key ys k := List.filter_append ..

/-- A group is empty if no item has the key. -/
theorem group_eq_nil_iff : group key ys k = [] ↔ ∀ y ∈ ys, key y ≠ some k := by
  simp [group, List.filter_eq_nil_iff]

/-- The first groups are those of the first keys. -/
@[simp] theorem map_fst_firstGroups (key : α → Option κ) (limit : Nat) (xs : List α) :
    (firstGroups key limit xs).map Prod.fst = (keys key xs).take limit := by
  simp [firstGroups, List.map_map, Function.comp_def]

/-- The items that follow add nothing to the first groups exactly if none of
them has one of the first keys. -/
theorem firstGroups_append_eq_iff :
    firstGroups key limit (xs ++ ys) = firstGroups key limit xs ↔
      ∀ y ∈ ys, ∀ k ∈ (keys key (xs ++ ys)).take limit, key y ≠ some k := by
  constructor
  · intro heq y hy k hk hkey
    have hkeys := congrArg (List.map Prod.fst) heq
    rw [map_fst_firstGroups, map_fst_firstGroups] at hkeys
    have hmem : (k, group key (xs ++ ys) k) ∈ firstGroups key limit xs := by
      rw [← heq]
      exact List.mem_map_of_mem hk
    obtain ⟨k', -, hpair⟩ := List.mem_map.mp hmem
    obtain ⟨rfl, hgroup⟩ := Prod.ext_iff.mp hpair
    dsimp only at hgroup
    rw [group_append, List.self_eq_append_right, group_eq_nil_iff] at hgroup
    exact hgroup y hy hkey
  · intro hnone
    have htake : (keys key (xs ++ ys)).take limit = (keys key xs).take limit := by
      obtain ⟨rest, hrest⟩ := keys_isPrefix key xs ys
      rcases Nat.lt_or_ge (keys key xs).length limit with hlt | hge
      · cases rest with
        | nil => rw [← hrest, List.append_nil]
        | cons k rest =>
            -- the key that would be next is that of an item that follows
            have hk : k ∈ (keys key (xs ++ ys)).take limit := by
              rw [← hrest, List.take_append, List.mem_append]
              right
              rw [show limit - (keys key xs).length = (limit - (keys key xs).length - 1) + 1 by omega,
                List.take_succ_cons]
              exact List.mem_cons_self
            have hnew : k ∉ keys key xs := by
              have hnodup := nodup_keys key (xs ++ ys)
              rw [← hrest, List.nodup_append] at hnodup
              exact fun hmem => hnodup.2.2 k hmem k List.mem_cons_self rfl
            obtain ⟨y, hy, hkey⟩ := mem_keys_iff.mp (List.mem_of_mem_take hk)
            rcases List.mem_append.mp hy with hy | hy
            · exact absurd (mem_keys_iff.mpr ⟨y, hy, hkey⟩) hnew
            · exact absurd hkey (hnone y hy k hk)
      · exact take_keys_append hge ys
    rw [firstGroups, firstGroups, htake]
    refine List.map_congr_left fun k hk => ?_
    rw [group_append, group_eq_nil_iff.mpr fun y hy => hnone y hy k (htake ▸ hk), List.append_nil]

/-! ## one item after the other -/

/-- What is kept of the items so far: their first groups. -/
theorem firstGroups_concat (key : α → Option κ) (limit : Nat) (xs : List α) (x : α) :
    firstGroups key limit (xs ++ [x]) =
      match key x with
      | none => firstGroups key limit xs
      | some k =>
          if k ∈ (keys key xs).take limit then
            (firstGroups key limit xs).map fun g => if g.1 = k then (g.1, g.2 ++ [x]) else g
          else if (keys key xs).length < limit ∧ k ∉ keys key xs then
            firstGroups key limit xs ++ [(k, [x])]
          else firstGroups key limit xs := by
  cases hx : key x with
  | none =>
      rw [firstGroups_append_eq_iff]
      simp [hx]
  | some k =>
      dsimp only
      have hkeys : keys key (xs ++ [x]) = addKey (keys key xs) k := by rw [keys_concat, hx]; rfl
      have hgroup : ∀ k', group key (xs ++ [x]) k' =
          if k' = k then group key xs k' ++ [x] else group key xs k' := by
        intro k'
        rw [group_append]
        by_cases heq : k' = k
        · simp [group, hx, heq]
        · simp [group, hx, heq, Ne.symm heq]
      split_ifs with hmem hnew
      · have hthere : k ∈ keys key xs := List.mem_of_mem_take hmem
        rw [firstGroups, hkeys, addKey, if_pos hthere, firstGroups, List.map_map]
        refine List.map_congr_left fun k' _ => ?_
        rw [hgroup, Function.comp]
        split <;> rfl
      · obtain ⟨hlt, hnot⟩ := hnew
        rw [firstGroups, hkeys, addKey, if_neg hnot, List.take_of_length_le (by simp; omega),
          List.map_append, firstGroups, List.take_of_length_le (Nat.le_of_lt hlt)]
        have hempty : group key xs k = [] :=
          group_eq_nil_iff.mpr fun y hy hkey => hnot (mem_keys_iff.mpr ⟨y, hy, hkey⟩)
        congr 1
        · refine List.map_congr_left fun k' hk' => ?_
          have hne : k' ≠ k := fun heq => hnot (heq ▸ hk')
          rw [hgroup, if_neg hne]
        · simp [hgroup, hempty]
      · rw [firstGroups_append_eq_iff]
        intro y hy k' hk' hkey
        rw [List.mem_singleton.mp hy, hx] at hkey
        obtain rfl := Option.some.inj hkey
        rw [hkeys, addKey] at hk'
        split at hk'
        · exact hmem hk'
        · next hnot =>
            have hge : limit ≤ (keys key xs).length := by
              by_contra hlt
              exact hnew ⟨Nat.lt_of_not_le hlt, hnot⟩
            rw [List.take_append_of_le_length hge] at hk'
            exact hmem hk'

/-! ## items that add nothing -/

/-- There are too many keys, and no item has one of the first keys. -/
def AddsNothing (key : α → Option κ) (limit : Nat) (xs ys : List α) : Prop :=
  Exceeds key limit (xs ++ ys) ∧
    ∀ y ∈ ys, ∀ k ∈ (keys key (xs ++ ys)).take limit, key y ≠ some k

/-- An item has one of the first keys. -/
def Extends (key : α → Option κ) (limit : Nat) (xs ys : List α) : Prop :=
  ∃ y ∈ ys, ∃ k ∈ (keys key (xs ++ ys)).take limit, key y = some k

instance (key : α → Option κ) (limit : Nat) (xs ys : List α) :
    Decidable (Extends key limit xs ys) :=
  inferInstanceAs (Decidable (∃ y ∈ ys, ∃ k ∈ _, _))

/-- Items add nothing once the limit is exceeded and none of them extends a group. -/
theorem addsNothing_iff : AddsNothing key limit xs ys ↔
    Exceeds key limit (xs ++ ys) ∧ ¬Extends key limit xs ys := by
  simp only [AddsNothing, Extends, not_exists, not_and, ne_eq]

/-- One more item extends a group if it has one of the first keys. -/
theorem extends_concat_iff :
    Extends key limit xs (ys ++ [x]) ↔ Extends key limit xs ys ∨
      ∃ k ∈ (keys key (xs ++ ys ++ [x])).take limit, key x = some k := by
  simp only [Extends, List.mem_append, List.mem_singleton, or_and_right, exists_or, exists_eq_left,
    ← List.append_assoc]
  refine or_congr_left (exists_congr fun y => and_congr_right fun hy => exists_congr fun k => ?_)
  refine and_congr_left fun hkey => ?_
  exact mem_take_keys_append (mem_keys_iff.mpr ⟨y, List.mem_append_right _ hy, hkey⟩) [x]

end Grouping
