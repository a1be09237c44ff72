import ApiToDns.Plugins.WinRmRetry

/-!
# Plugins.WinRmAttempts

How many attempts `_run_ps_with_retry` makes.  It stops after a success and,
so as not to lock the account out, after an attempt that looks like a denied
access; but of a script that failed it looks twice, at all of the output first
and at one stream of it then (`careful_iff`).
-/

namespace ApiToDns.Microsoft

open Py

section

variable (U : Ucd)

/-- What comes of the attempts, one after the other. -/
abbrev Outcomes := Nat → Except Exc PsResult

/-- Sessions with these outcomes; the state counts the attempts. -/
def counted (outcomes : Outcomes) : Handler sessionSig Nat := fun _ n => (outcomes n, n + 1)

/-- All the output, or the text of the exception, matches a marker. -/
def Denied : Except Exc PsResult → Prop
  | .ok result => looksLikeAccessDenied U result.combined = true
  | .error exc => looksLikeAccessDenied U (excText exc) = true

/-- All the output matches a marker, and the exception for it does not. -/
def Masked : Except Exc PsResult → Prop
  | .ok result => result.statusCode ≠ 0 ∧ looksLikeAccessDenied U result.combined = true ∧
      looksLikeAccessDenied U (excText result.failure) = false
  | .error _ => False

/-- A failure that may pass. -/
def Transient : Except Exc PsResult → Prop
  | .ok result => result.statusCode ≠ 0 ∧ looksLikeAccessDenied U result.combined = false
  | .error (.importError _) => False
  | .error exc => looksLikeAccessDenied U (excText exc) = false

/-- From the attempt `first` on there are at most `left`; the first success is
the last one, and what is returned, and so is the first denied access. -/
def CarefulFrom (o : WinRmOp) (outcomes : Outcomes) (first left : Nat) : Prop :=
  let run := (attemptPs U o left).run (counted outcomes) first
  run.2 ≤ first + left ∧ ∀ n, first ≤ n → n < run.2 →
    (∀ result, outcomes n = .ok result → result.statusCode = 0 → run = (.ok result, n + 1)) ∧
      (Denied U (outcomes n) → run.2 = n + 1)

/-- The account is not hammered. -/
def Careful (o : WinRmOp) (outcomes : Outcomes) : Prop := CarefulFrom U o outcomes 0 maxAttempts

/-- No attempt that is followed by another is masked. -/
def Unmasked (outcomes : Outcomes) (first : Nat) : Nat → Prop
  | 0 => True
  | left + 1 => (left ≠ 0 → ¬Masked U (outcomes first)) ∧
      (Transient U (outcomes first) → Unmasked outcomes (first + 1) left)

end

variable {U : Ucd} {o : WinRmOp} {outcomes : Outcomes} {reply : Except Exc PsResult}

/-- A masked reply is denied. -/
theorem Masked.denied (h : Masked U reply) : Denied U reply := by
  cases reply with
  | ok result => exact h.2.1
  | error exc => contradiction

/-- A transient failure is not denied. -/
theorem Transient.not_denied (h : Transient U reply) : ¬Denied U reply := by
  cases reply with
  | ok result => simp [Denied, h.2]
  | error exc => cases exc <;> simp_all [Transient, Denied]

/-- Both are failures. -/
theorem failed_of_masked_or_transient (h : Masked U reply ∨ Transient U reply) : Failed reply := by
  intro result hresult
  subst hresult
  exact h.elim And.left And.left

/-- When a runtime error is tried again. -/
theorem onRuntimeError_eq_again_iff {isLast : Bool} {exc : Exc} :
    onRuntimeError U isLast exc = .again ↔
      isLast = false ∧ looksLikeAccessDenied U (excText exc) = false := by
  unfold onRuntimeError
  split_ifs <;> simp_all

/-- An attempt that is not the last one is followed by another if it failed and
may pass, or if the denied access is masked. -/
theorem attempt_eq_again_iff {isLast : Bool} :
    attempt U isLast reply = .again ↔ isLast = false ∧ (Masked U reply ∨ Transient U reply) := by
  cases reply with
  | ok result =>
      by_cases hstatus : result.statusCode = 0
      · simp [attempt, Masked, Transient, hstatus]
      · rw [attempt, if_neg hstatus]
        by_cases hdenied : looksLikeAccessDenied U result.combined = true
        · simp [hdenied, onRuntimeError_eq_again_iff, Masked, Transient, hstatus]
        · cases isLast <;> simp [hdenied, onRuntimeError_eq_again_iff, Masked, Transient, hstatus]
  | error exc =>
      cases exc with
      | importError msg => simp [attempt, Masked, Transient]
      | runtimeError msg | providerDisabled msg =>
          rw [attempt, onRuntimeError_eq_again_iff]
          simp [Masked, Transient]
      | valueError msg | validationError msg | patchMergeError msg | other msg =>
          rw [attempt] <;> try (intros; contradiction)
          split_ifs with hdenied hlast <;> simp_all [Masked, Transient]

/-- A success is returned. -/
theorem attempt_of_success {isLast : Bool} {result : PsResult} (h : result.statusCode = 0) :
    attempt U isLast (.ok result) = .returns result := by rw [attempt, if_pos h]

/-! ## one attempt -/

/-- After an attempt the next one follows. -/
theorem run_attemptPs_again {left first : Nat}
    (h : attempt U (left = 0) (outcomes first) = .again) :
    (attemptPs U o (left + 1)).run (counted outcomes) first =
      (attemptPs U o left).run (counted outcomes) (first + 1) := by
  rw [attemptPs, Prog.run_call]
  simp only [counted, h]

/-- An attempt that is not followed by another ends the run. -/
theorem run_attemptPs_ends {left first : Nat}
    (h : attempt U (left = 0) (outcomes first) ≠ .again) :
    ((attemptPs U o (left + 1)).run (counted outcomes) first).2 = first + 1 ∧
      ∀ result, outcomes first = .ok result → result.statusCode = 0 →
        (attemptPs U o (left + 1)).run (counted outcomes) first = (.ok result, first + 1) := by
  rw [attemptPs, Prog.run_call]
  constructor
  · cases hattempt : attempt U (left = 0) (outcomes first) with
    | returns result => simp [counted, hattempt]
    | raises exc => simp [counted, hattempt]
    | again => contradiction
  · intro result hresult hstatus
    simp [counted, hresult, attempt_of_success hstatus]

variable (U o outcomes) in
/-- There is an attempt if one is left. -/
theorem lt_run_attemptPs (left first : Nat) :
    first < ((attemptPs U o (left + 1)).run (counted outcomes) first).2 := by
  induction left generalizing first with
  | zero =>
      have hlast : attempt U ((0 : Nat) = 0) (outcomes first) ≠ .again := by
        simp [attempt_eq_again_iff]
      rw [(run_attemptPs_ends hlast).1]
      omega
  | succ left ih =>
      by_cases hagain : attempt U (left + 1 = 0) (outcomes first) = .again
      · rw [run_attemptPs_again hagain]
        have hlt := ih (first + 1)
        omega
      · rw [(run_attemptPs_ends hagain).1]
        omega

/-! ## all attempts -/

/-- Attempts are careful if no denial is masked before the last. -/
theorem carefulFrom_iff (first left : Nat) :
    CarefulFrom U o outcomes first left ↔ Unmasked U outcomes first left := by
  induction left generalizing first with
  | zero =>
      refine iff_of_true ⟨Nat.le_refl _, fun n hge hlt => ?_⟩ trivial
      have hnone : ((attemptPs U o 0).run (counted outcomes) first).2 = first := rfl
      omega
  | succ left ih =>
      rw [Unmasked, ← ih (first + 1)]
      by_cases hagain : attempt U (left = 0) (outcomes first) = .again
      · obtain ⟨hleft, hfailure⟩ := attempt_eq_again_iff.mp hagain
        have hleft : left ≠ 0 := by simpa using hleft
        have hgo := run_attemptPs_again (o := o) hagain
        obtain ⟨left, rfl⟩ := Nat.exists_eq_add_one_of_ne_zero hleft
        have hlt := lt_run_attemptPs U o outcomes left (first + 1)
        unfold CarefulFrom
        simp only [hgo]
        constructor
        · intro h
          refine ⟨fun _ hmasked => ?_, fun _ => ⟨by omega, fun n hge => h.2 n (by omega)⟩⟩
          have hstop := (h.2 first (Nat.le_refl _) (by omega)).2 hmasked.denied
          omega
        · intro h
          have hmasked := h.1 (Nat.succ_ne_zero _)
          have htransient := hfailure.resolve_left hmasked
          have hrest := h.2 htransient
          refine ⟨by omega, fun n hge hn => ?_⟩
          rcases Nat.eq_or_lt_of_le hge with rfl | hgt
          · refine ⟨fun result hresult hstatus => ?_, fun hdenied => ?_⟩
            · exact absurd hstatus (failed_of_masked_or_transient hfailure result hresult)
            · exact absurd hdenied htransient.not_denied
          · exact hrest.2 n hgt hn
      · obtain ⟨hend, hsuccess⟩ := run_attemptPs_ends (o := o) hagain
        refine iff_of_true ⟨by omega, fun n hge hn => ?_⟩ ?_
        · obtain rfl : n = first := by omega
          exact ⟨hsuccess, fun _ => hend⟩
        · rw [attempt_eq_again_iff, not_and] at hagain
          refine ⟨fun hleft hmasked => hagain (by simpa using hleft) (.inl hmasked), fun h => ?_⟩
          cases left with
          | zero => exact (ih (first + 1)).mpr trivial
          | succ left => exact absurd (.inr h) (hagain (by simp))

/-- The account is not hammered exactly if a denied access is not masked on the
first attempt, nor on the second one where there is one. -/
theorem careful_iff (U : Ucd) (o : WinRmOp) (outcomes : Outcomes) :
    Careful U o outcomes ↔
      ¬Masked U (outcomes 0) ∧ (Transient U (outcomes 0) → ¬Masked U (outcomes 1)) := by
  rw [Careful, carefulFrom_iff]
  simp [maxAttempts, Unmasked]

/-- A script with a warning on one stream and the denied access on the other. -/
def maskedResult : PsResult := ⟨1, lit "WARNING", lit "Access is denied."⟩

/-- The denied access is tried three times. -/
theorem not_careful_masked :
    ¬Careful .ascii ⟨lit "192.0.2.53", []⟩ fun _ => .ok maskedResult := by
  intro h
  have hmasked : Masked .ascii (.ok maskedResult) := by
    refine ⟨by decide, ?_, ?_⟩ <;> rfl
  rw [Careful, carefulFrom_iff] at h
  exact h.1 (by decide) hmasked

end ApiToDns.Microsoft
