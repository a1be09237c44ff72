/-!
# Lib.Runs

Runs of a machine that answers every input: the outputs in order and the
final state, and the two inductions over them that proofs need — a map of
states that commutes with one step commutes with runs, and what one step
preserves a run preserves, also where each step has to meet a condition
(`MeetsAll`).  A fact that only some steps make true was made so by one of them,
and kept by all that followed (`Since`).  This module depends only on the Lean 4
core library.
-/

/-- A machine: an input and a state give an output and the next state. -/
abbrev Machine (ι ω σ : Type) := ι → σ → ω × σ

namespace Machine

variable {ι ω ω' σ τ : Type}

/-- The outputs and the final state of a list of inputs. -/
def runAll (m : Machine ι ω σ) : List ι → σ → List ω × σ
  | [], s => ([], s)
  | i :: is, s =>
      let rest := runAll m is (m i s).2
      ((m i s).1 :: rest.1, rest.2)

@[simp] theorem runAll_nil (m : Machine ι ω σ) (s : σ) : m.runAll [] s = ([], s) := rfl

/-- A run answers its first input, then the others. -/
theorem runAll_cons (m : Machine ι ω σ) (i : ι) (is : List ι) (s : σ) :
    m.runAll (i :: is) s =
      ((m i s).1 :: (m.runAll is (m i s).2).1, (m.runAll is (m i s).2).2) := rfl

/-- A run of a concatenation is one run after the other. -/
theorem runAll_append (m : Machine ι ω σ) (is js : List ι) (s : σ) :
    m.runAll (is ++ js) s =
      ((m.runAll is s).1 ++ (m.runAll js (m.runAll is s).2).1,
        (m.runAll js (m.runAll is s).2).2) := by
  induction is generalizing s with
  | nil => rfl
  | cons i is ih =>
      rw [List.cons_append, runAll_cons, runAll_cons, ih]
      rfl

/-- Inputs that the machine answers without changing its state. -/
theorem runAll_of_stay {m : Machine ι ω σ} {out : ι → ω} {is : List ι} {s : σ}
    (h : ∀ i ∈ is, m i s = (out i, s)) : m.runAll is s = (is.map out, s) := by
  induction is with
  | nil => rfl
  | cons i is ih =>
      have hi := h i (by simp)
      have hrest := ih fun j hj => h j (by simp [hj])
      rw [runAll_cons, hi, hrest]
      rfl

/-- Inputs paired with the outputs that `f` gives them. -/
theorem mem_zip_iff_of_map_some {f : ι → Option ω} {is : List ι} {outs : List ω}
    (h : outs.map some = is.map f) (i : ι) (out : ω) :
    (i, out) ∈ is.zip outs ↔ i ∈ is ∧ f i = some out := by
  induction is generalizing outs with
  | nil => simp
  | cons j is ih =>
      cases outs with
      | nil => simp at h
      | cons out' outs =>
          obtain ⟨hhead, htail⟩ := List.cons.inj h
          rw [List.zip_cons_cons, List.mem_cons, List.mem_cons, ih htail, Prod.mk.injEq]
          constructor
          · intro hmem
            cases hmem with
            | inl heq =>
                obtain ⟨hi, hout⟩ := heq
                rw [hi, hout]
                exact ⟨.inl rfl, hhead.symm⟩
            | inr hrest => exact ⟨.inr hrest.1, hrest.2⟩
          · intro hmem
            obtain ⟨hi, hf⟩ := hmem
            cases hi with
            | inl hi =>
                subst hi
                exact .inl ⟨rfl, Option.some.inj (hf.symm.trans hhead.symm)⟩
            | inr hi => exact .inr ⟨hi, hf⟩

/-- A field that every step sets or leaves ends as the last step that set it
says. -/
theorem runAll_field {φ : Type} {m : Machine ι ω σ} (get : σ → Option φ)
    (sets : ι → ω → Option φ) (h : ∀ i s, get (m i s).2 = (sets i (m i s).1).or (get s))
    (is : List ι) (s : σ) :
    get (m.runAll is s).2 =
      ((is.zip (m.runAll is s).1).reverse.findSome? fun p => sets p.1 p.2).or (get s) := by
  induction is generalizing s with
  | nil => simp
  | cons i is ih =>
      have hstep := h i s
      have hrest := ih (m i s).2
      rw [runAll_cons, hrest, hstep, List.zip_cons_cons, List.reverse_cons, List.findSome?_append]
      simp [Option.or_assoc]

/-- A view of the states and of the outputs that commutes with every step
commutes with every run. -/
theorem runAll_commutes {m : Machine ι ω σ} {m' : Machine ι ω' τ} {view : σ → τ} {see : ω → ω'}
    (h : ∀ i s, m' i (view s) = (see (m i s).1, view (m i s).2)) (is : List ι) (s : σ) :
    m'.runAll is (view s) = ((m.runAll is s).1.map see, view (m.runAll is s).2) := by
  induction is generalizing s with
  | nil => rfl
  | cons i is ih =>
      have hstep := h i s
      have hrest := ih (m i s).2
      rw [runAll_cons, runAll_cons, hstep, hrest]
      rfl

end Machine

/-! ## where a fact comes from -/

section Since

variable {ι σ : Type} (step : σ → ι → σ) (gives keeps : σ → ι → Prop)

/-- One of the inputs gave the fact, and every input after it kept it. -/
def Since (s : σ) (is : List ι) : Prop :=
  ∃ before i rest, is = before ++ i :: rest ∧ gives (before.foldl step s) i ∧
    ∀ mid j last, rest = mid ++ j :: last → keeps ((before ++ i :: mid).foldl step s) j

variable {step gives keeps}

/-- What holds throughout a run, if every input preserves it. -/
theorem foldl_invariant {Inv : σ → Prop} (hstep : ∀ s i, Inv s → Inv (step s i)) {s : σ}
    (h : Inv s) (is : List ι) : Inv (is.foldl step s) := by
  induction is generalizing s with
  | nil => exact h
  | cons i is ih => exact ih (hstep s i h)

/-- Each input of a run meets a condition in the state that it finds. -/
def MeetsAll (step : σ → ι → σ) (cond : σ → ι → Prop) (s : σ) : List ι → Prop
  | [] => True
  | i :: is => cond s i ∧ MeetsAll step cond (step s i) is

/-- What each input keeps under its condition holds throughout the run. -/
theorem foldl_invariant_of_meets {cond : σ → ι → Prop} {Inv : σ → Prop}
    (hstep : ∀ s i, Inv s → cond s i → Inv (step s i)) {s : σ} (h : Inv s) {is : List ι}
    (hmeets : MeetsAll step cond s is) (n : Nat) : Inv ((is.take n).foldl step s) := by
  induction is generalizing s n with
  | nil => simpa using h
  | cons i is ih =>
      cases n with
      | zero => exact h
      | succ n => exact ih (hstep s i h hmeets.1) hmeets.2 n

/-- The same of a run that an error may stop; the invariant tells what has been
read. -/
theorem foldlM_invariant {ε : Type} {f : σ → ι → Except ε σ} (Inv : List ι → σ → Prop)
    (hstep : ∀ seen s i s', Inv seen s → f s i = .ok s' → Inv (seen ++ [i]) s') {s s' : σ}
    (h : Inv [] s) {is : List ι} (hrun : is.foldlM f s = .ok s') : Inv is s' := by
  suffices ∀ seen s, Inv seen s → is.foldlM f s = .ok s' → Inv (seen ++ is) s' from this [] s h hrun
  clear h hrun s
  intro seen s h hrun
  induction is generalizing seen s with
  | nil => simpa [← Except.ok.inj hrun] using h
  | cons i is ih =>
      rw [List.foldlM_cons] at hrun
      cases hi : f s i with
      | error e =>
          rw [hi] at hrun
          contradiction
      | ok next =>
          rw [hi] at hrun
          have hnext := ih _ _ (hstep seen s i next h hi) hrun
          rwa [List.append_assoc] at hnext

/-- One more step that keeps the property. -/
theorem Since.concat {s : σ} {is : List ι} {i : ι} (h : Since step gives keeps s is)
    (hkeeps : keeps (is.foldl step s) i) : Since step gives keeps s (is ++ [i]) := by
  obtain ⟨before, g, rest, his, hgives, hrest⟩ := h
  refine ⟨before, g, rest ++ [i], by simp [his], hgives, fun mid j last heq => ?_⟩
  rcases List.eq_nil_or_concat last with hnil | hconcat
  · rw [hnil] at heq
    obtain ⟨hmid, hj⟩ := List.append_inj' heq rfl
    rw [← hmid, ← (List.cons.inj hj).1, ← his]
    exact hkeeps
  · obtain ⟨last', x, hlast⟩ := hconcat
    rw [hlast, List.concat_eq_append, ← List.cons_append, ← List.append_assoc] at heq
    exact hrest mid j last' (List.append_inj_left' heq rfl)

/-- A fact that every step gives or keeps, and that does not hold at first, was
given and kept since. -/
theorem since_of_holds (Inv holds : σ → Prop) (hinv : ∀ s i, Inv s → Inv (step s i))
    (hstep : ∀ s i, Inv s → holds (step s i) → gives s i ∨ holds s ∧ keeps s i) {s : σ} (h : Inv s)
    (hnot : ¬holds s) (is : List ι) (hholds : holds (is.foldl step s)) :
    Since step gives keeps s is := by
  -- the induction takes the last input off
  generalize hlen : is.length = n
  induction n generalizing is with
  | zero =>
      rw [List.length_eq_zero_iff.mp hlen] at hholds
      exact absurd hholds hnot
  | succ n ih =>
      rcases List.eq_nil_or_concat is with hnil | hconcat
      · simp [hnil] at hlen
      · obtain ⟨front, i, heq⟩ := hconcat
        rw [List.concat_eq_append] at heq
        rw [heq] at hlen hholds ⊢
        rw [List.foldl_append] at hholds
        rcases hstep _ i (foldl_invariant hinv h front) hholds with hgives | hkept
        · exact ⟨front, i, [], rfl, hgives, fun mid j last hmid => by simp at hmid⟩
        · exact (ih front hkept.1 (by simpa using hlen)).concat hkept.2

end Since
