import Mathlib.Data.List.Forall2

/-!
# Lib.Checks

Checks that read data and stop at the first thing that is wrong with it, and
which of their exceptions are meant.  `Breaks bad` says that a check ends in an
exception of the kind `bad`; the rules say where in a sequence of checks that
happens: at some step, all steps before it having passed.

`readAll` is the loop that reads a key from each item and knows the keys it
has read.
-/

namespace Checks

variable {ε α β κ ρ : Type} {bad : ε → Prop}

/-- The check ends in an exception of the kind. -/
def Breaks (bad : ε → Prop) (r : Except ε α) : Prop := ∃ e, r = .error e ∧ bad e

@[simp] theorem not_breaks_ok (a : α) : ¬Breaks bad (.ok a : Except ε α) := by simp [Breaks]

@[simp] theorem breaks_error_iff {e : ε} : Breaks bad (.error e : Except ε α) ↔ bad e := by
  simp [Breaks]

@[simp] theorem not_breaks_pure (a : α) : ¬Breaks bad (pure a : Except ε α) := not_breaks_ok a

/-- A sequence breaks in its first part, or in the second once the first has
passed. -/
theorem breaks_bind_iff {x : Except ε α} {f : α → Except ε β} :
    Breaks bad (x >>= f) ↔ Breaks bad x ∨ ∃ a, x = .ok a ∧ Breaks bad (f a) := by
  cases x with
  | ok a =>
      have hok : (Except.ok a >>= f) = f a := rfl
      simp [hok]
  | error e =>
      have herror : (Except.error e >>= f) = .error e := rfl
      simp [herror]

/-- A sequence passes if both parts do. -/
theorem passes_bind_iff {x : Except ε α} {f : α → Except ε β} {b : β} :
    x >>= f = .ok b ↔ ∃ a, x = .ok a ∧ f a = .ok b := by
  cases x with
  | ok a =>
      have hok : (Except.ok a >>= f) = f a := rfl
      simp [hok]
  | error e =>
      have herror : (Except.error e >>= f) = .error e := rfl
      simp [herror]

/-- What is done with a result does not matter to how a check fails. -/
theorem breaks_map_iff {x : Except ε α} {f : α → β} : Breaks bad (f <$> x) ↔ Breaks bad x := by
  cases x with
  | ok a => simp [Functor.map, Except.map]
  | error e => simp [Functor.map, Except.map]

/-- A loop breaks at an item, the ones before it having passed. -/
theorem breaks_forM_iff {f : α → Except ε Unit} {items : List α} :
    Breaks bad (items.forM f) ↔
      ∃ pre item post, items = pre ++ item :: post ∧ (∀ x ∈ pre, f x = .ok ()) ∧
        Breaks bad (f item) := by
  induction items with
  | nil => simp [List.forM]
  | cons x items ih =>
      have hcons : (x :: items).forM f = (f x >>= fun _ => items.forM f) := rfl
      rw [hcons, breaks_bind_iff]
      constructor
      · rintro (h | ⟨u, hx, h⟩)
        · exact ⟨[], x, items, rfl, by simp, h⟩
        · obtain ⟨pre, item, post, rfl, hpre, h⟩ := ih.mp h
          exact ⟨x :: pre, item, post, rfl, List.forall_mem_cons.mpr ⟨hx, hpre⟩, h⟩
      · rintro ⟨pre, item, post, heq, hpre, h⟩
        cases pre with
        | nil =>
            cases heq
            exact .inl h
        | cons y pre =>
            cases heq
            rw [List.forall_mem_cons] at hpre
            exact .inr ⟨(), hpre.1, ih.mpr ⟨pre, item, post, rfl, hpre.2, h⟩⟩

/-- A loop whose checks never break does not break. -/
theorem not_breaks_forM {f : α → Except ε Unit} {items : List α}
    (h : ∀ x, ¬Breaks bad (f x)) : ¬Breaks bad (items.forM f) := by
  rw [breaks_forM_iff]
  rintro ⟨-, item, -, -, -, hitem⟩
  exact h item hitem

/-! ## keys that differ -/

/-- Read every item, each with the keys that were read before it. -/
def readAll (key : ρ → κ) (step : List κ → α → Except ε ρ) (seen : List κ) :
    List α → Except ε (List ρ)
  | [] => .ok []
  | x :: xs => do
      let r ← step seen x
      let rs ← readAll key step (key r :: seen) xs
      return r :: rs

variable {key : ρ → κ} {step : List κ → α → Except ε ρ} {sound : α → ρ → Prop}

/-- All items are sound and their keys differ. -/
structure AllRead (key : ρ → κ) (sound : α → ρ → Prop) (seen : List κ) (items : List α)
    (read : List ρ) : Prop where
  sound : List.Forall₂ sound items read
  nodup : (read.map key).Nodup
  unseen : ∀ r ∈ read, key r ∉ seen

/-- An empty list is read as an empty list. -/
theorem allRead_nil (seen : List κ) : AllRead key sound seen [] [] := ⟨.nil, by simp, by simp⟩

/-- A list is read item by item, each under a key that was not there before. -/
theorem allRead_cons_iff {seen : List κ} {x : α} {items : List α} {r : ρ} {read : List ρ} :
    AllRead key sound seen (x :: items) (r :: read) ↔
      (sound x r ∧ key r ∉ seen) ∧ AllRead key sound (key r :: seen) items read := by
  constructor
  · rintro ⟨hsound, hnodup, hunseen⟩
    rw [List.forall₂_cons] at hsound
    rw [List.map_cons, List.nodup_cons] at hnodup
    rw [List.forall_mem_cons] at hunseen
    refine ⟨⟨hsound.1, hunseen.1⟩, hsound.2, hnodup.2, fun s hs => ?_⟩
    have hne : key s ≠ key r := fun heq => hnodup.1 (heq ▸ List.mem_map_of_mem hs)
    simp [hne, hunseen.2 s hs]
  · rintro ⟨⟨hx, hr⟩, hsound, hnodup, hunseen⟩
    have hnot : key r ∉ read.map key := by
      intro hmem
      obtain ⟨s, hs, heq⟩ := List.mem_map.mp hmem
      exact hunseen s hs (by simp [heq])
    refine ⟨.cons hx hsound, by simp [hnodup, hnot], ?_⟩
    rw [List.forall_mem_cons]
    exact ⟨hr, fun s hs hseen => hunseen s hs (List.mem_cons_of_mem _ hseen)⟩

/-- The loop passes with what it reads if every item is sound and no key comes
twice. -/
theorem readAll_eq_ok_iff
    (hstep : ∀ seen x r, step seen x = .ok r ↔ sound x r ∧ key r ∉ seen) {seen : List κ}
    {items : List α} {read : List ρ} :
    readAll key step seen items = .ok read ↔ AllRead key sound seen items read := by
  induction items generalizing seen read with
  | nil =>
      constructor
      · intro h
        cases h
        exact allRead_nil seen
      · intro h
        rw [List.forall₂_nil_left_iff.mp h.sound]
        rfl
  | cons x items ih =>
      rw [readAll]
      constructor
      · intro h
        obtain ⟨r, hx, h⟩ := passes_bind_iff.mp h
        obtain ⟨rs, hrs, h⟩ := passes_bind_iff.mp h
        cases h
        exact allRead_cons_iff.mpr ⟨(hstep ..).mp hx, ih.mp hrs⟩
      · intro h
        cases read with
        | nil => cases h.sound
        | cons r read =>
            obtain ⟨hx, hrest⟩ := allRead_cons_iff.mp h
            exact passes_bind_iff.mpr ⟨r, (hstep ..).mpr hx,
              passes_bind_iff.mpr ⟨read, ih.mpr hrest, rfl⟩⟩

/-- The loop breaks at an item, the ones before it being sound. -/
theorem breaks_readAll_iff
    (hstep : ∀ seen x r, step seen x = .ok r ↔ sound x r ∧ key r ∉ seen) {seen : List κ}
    {items : List α} :
    Breaks bad (readAll key step seen items) ↔
      ∃ pre item post read, items = pre ++ item :: post ∧ AllRead key sound seen pre read ∧
        Breaks bad (step ((read.map key).reverse ++ seen) item) := by
  induction items generalizing seen with
  | nil => simp [readAll]
  | cons x items ih =>
      rw [readAll, breaks_bind_iff]
      constructor
      · rintro (h | ⟨r, hr, h⟩)
        · exact ⟨[], x, items, [], rfl, allRead_nil seen, h⟩
        · rcases breaks_bind_iff.mp h with h | ⟨rs, -, h⟩
          · obtain ⟨pre, item, post, read, rfl, hread, h⟩ := ih.mp h
            refine ⟨x :: pre, item, post, r :: read, rfl,
              allRead_cons_iff.mpr ⟨(hstep ..).mp hr, hread⟩, ?_⟩
            simpa using h
          · exact absurd h (not_breaks_pure _)
      · rintro ⟨pre, item, post, read, heq, hread, h⟩
        cases pre with
        | nil =>
            cases heq
            rw [List.forall₂_nil_left_iff.mp hread.sound] at h
            exact .inl h
        | cons y pre =>
            cases heq
            cases read with
            | nil => cases hread.sound
            | cons r read =>
                obtain ⟨hx, hrest⟩ := allRead_cons_iff.mp hread
                refine .inr ⟨r, (hstep ..).mpr hx, breaks_bind_iff.mpr (.inl ?_)⟩
                exact ih.mpr ⟨pre, item, post, read, rfl, hrest, by simpa using h⟩

/-- A loop of its own that makes `finish` of what it reads. -/
theorem eq_readAll {γ : Type} {loop : List κ → List α → Except ε γ} (more : ρ → γ → γ)
    {finish : List ρ → γ} (hnil : ∀ seen, loop seen [] = .ok (finish []))
    (hcons : ∀ seen x xs, loop seen (x :: xs) = do
      let r ← step seen x
      more r <$> loop (key r :: seen) xs)
    (hfinish : ∀ r rs, finish (r :: rs) = more r (finish rs)) (seen : List κ) (items : List α) :
    loop seen items = finish <$> readAll key step seen items := by
  induction items generalizing seen with
  | nil => exact hnil seen
  | cons x items ih =>
      rw [hcons, readAll]
      cases hx : step seen x with
      | error e => rfl
      | ok r =>
          have hok {δ : Type} (f : ρ → Except ε δ) : (Except.ok r >>= f) = f r := rfl
          rw [hok, hok, ih]
          cases readAll key step (key r :: seen) items with
          | error e => rfl
          | ok rs => exact congrArg Except.ok (hfinish r rs).symm

end Checks
