import Mathlib.Data.List.Forall2
import Mathlib.Data.List.Perm.Basic

/-!
# Lib.Division

Wholes divided into parts: every part has the key of a whole, and the contents
of the parts of a key are together the content of the whole.

* `Divides` — the parts make up the wholes;
* `Divides.alone_of_length` — a part that is as long as its whole is the only
  part of the key, and has the content of the whole (`Divides.perm_of_alone`);
* `nodup_keys_of_alone` — parts that are alone have different keys.
-/

namespace Division

variable {α β κ : Type} [DecidableEq κ]

/-- The parts of a key. -/
def ofKey (key : α → κ) (parts : List α) (k : κ) : List α := parts.filter fun p => key p = k

/-- The parts make up the wholes. -/
structure Divides (key : α → κ) (content : α → List β) (wholes parts : List α) : Prop where
  nodup : (wholes.map key).Nodup
  whole_ne_nil : ∀ w ∈ wholes, content w ≠ []
  part_ne_nil : ∀ p ∈ parts, content p ≠ []
  exists_whole : ∀ p ∈ parts, ∃ w ∈ wholes, key w = key p
  perm : ∀ w ∈ wholes, ((ofKey key parts (key w)).flatMap content).Perm (content w)

variable {key : α → κ} {content : α → List β} {wholes parts : List α}

/-- The parts of a key are those that have it. -/
theorem mem_ofKey_iff {p : α} {k : κ} : p ∈ ofKey key parts k ↔ p ∈ parts ∧ key p = k := by
  simp [ofKey]

/-- A content that is not empty and as long as that of all parts together is
that of the only part. -/
theorem eq_singleton_of_length {ps : List α} {p : α} (hne : ∀ q ∈ ps, content q ≠ []) (hp : p ∈ ps)
    (hlen : (ps.flatMap content).length = (content p).length) : ps = [p] := by
  obtain ⟨front, back, rfl⟩ := List.append_of_mem hp
  have hempty : ∀ q ∈ front ++ back, content q = [] := by
    have hrest : ((front ++ back).flatMap content).length = 0 := by
      simp only [List.flatMap_append, List.flatMap_cons, List.length_append] at hlen ⊢
      omega
    exact List.flatMap_eq_nil_iff.mp (List.length_eq_zero_iff.mp hrest)
  have hnone : front ++ back = [] := by
    refine List.eq_nil_iff_forall_not_mem.mpr fun q hq => ?_
    refine hne q ?_ (hempty q hq)
    rcases List.mem_append.mp hq with hq | hq <;> simp [hq]
  obtain ⟨rfl, rfl⟩ := List.append_eq_nil_iff.mp hnone
  rfl

namespace Divides

variable (h : Divides key content wholes parts) {w p : α}

include h

/-- A part that is the only one has the content of its whole. -/
theorem perm_of_alone (hw : w ∈ wholes) (hkey : key w = key p)
    (halone : ofKey key parts (key p) = [p]) : (content p).Perm (content w) := by
  have hperm := h.perm w hw
  simpa [hkey, halone] using hperm

/-- A part that is as long as its whole is the only one. -/
theorem alone_of_length (hw : w ∈ wholes) (hp : p ∈ parts) (hkey : key w = key p)
    (hlen : (content p).length = (content w).length) : ofKey key parts (key p) = [p] := by
  have hperm := h.perm w hw
  rw [hkey] at hperm
  have hne : ∀ q ∈ ofKey key parts (key p), content q ≠ [] := fun q hq =>
    h.part_ne_nil q (mem_ofKey_iff.mp hq).1
  exact eq_singleton_of_length hne (mem_ofKey_iff.mpr ⟨hp, rfl⟩) (by rw [hperm.length_eq, hlen])

/-- Every whole has a part. -/
theorem exists_part (hw : w ∈ wholes) : ∃ p ∈ parts, key p = key w := by
  have hne : ofKey key parts (key w) ≠ [] := by
    intro hnil
    have hperm := h.perm w hw
    rw [hnil] at hperm
    exact h.whole_ne_nil w hw hperm.nil_eq.symm
  obtain ⟨p, hp⟩ := List.exists_mem_of_ne_nil _ hne
  exact ⟨p, mem_ofKey_iff.mp hp⟩

end Divides

/-- Parts that are alone with their keys have different keys. -/
theorem nodup_keys_of_alone {ps : List α} (hsub : ps.Sublist parts)
    (halone : ∀ p ∈ ps, ofKey key parts (key p) = [p]) : (ps.map key).Nodup := by
  rw [List.nodup_iff_count]
  intro k
  by_cases hk : k ∈ ps.map key
  · obtain ⟨p, hp, rfl⟩ := List.mem_map.mp hk
    have hle := (hsub.map key).count_le (key p)
    have hcount : (parts.map key).count (key p) = (ofKey key parts (key p)).length := by
      rw [List.count_eq_countP, List.countP_map, List.countP_eq_length_filter, ofKey]
      congr 1
    rw [halone p hp] at hcount
    simpa [hcount] using hle
  · simp [List.count_eq_zero_of_not_mem hk]

/-- What each member of a list has, a permutation of the list has in its order. -/
theorem forall₂_of_perm {γ : Type} {r : β → γ → Prop} {xs ys : List β} {zs : List γ}
    (hperm : xs.Perm ys) (hall : List.Forall₂ r ys zs) :
    ∃ zs', List.Forall₂ r xs zs' ∧ zs'.Perm zs :=
  List.perm_comp_forall₂ hperm hall

end Division
