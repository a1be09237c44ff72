import ApiToDns.Lib.Prog

/-!
# Lib.Script

A program alone in a world that has a say in what its operations do: a run
follows a script, one choice of the world for each operation.

`Prog.wp` is the weakest precondition over all scripts whose operations meet a
condition, with rules for sequences and exceptions; `wp_exec` is its
soundness.
-/

namespace Prog

variable {S : Sig} {χ σ α β : Type}

/-- The run of a program that the script takes to its end. -/
def exec (R : χ → Handler S σ) : Prog S α → List χ → σ → Option (α × σ)
  | .ret a, [], s => some (a, s)
  | .ret _, _ :: _, _ => none
  | .call _ _, [], _ => none
  | .call o k, x :: xs, s => exec R (k (R x o s).1) xs (R x o s).2

/-- Every operation of the run meets the condition. -/
def Along (R : χ → Handler S σ) (Q : χ → S.Op → σ → Prop) : Prog S α → List χ → σ → Prop
  | .ret _, _, _ => True
  | .call _ _, [], _ => True
  | .call o k, x :: xs, s => Q x o s ∧ Along R Q (k (R x o s).1) xs (R x o s).2

instance decidableAlong (R : χ → Handler S σ) (Q : χ → S.Op → σ → Prop)
    [∀ x o s, Decidable (Q x o s)] :
    (p : Prog S α) → (xs : List χ) → (s : σ) → Decidable (p.Along R Q xs s)
  | .ret _, _, _ => .isTrue trivial
  | .call _ _, [], _ => .isTrue trivial
  | .call o k, x :: xs, s =>
      @instDecidableAnd (Q x o s) _ inferInstance
        (decidableAlong R Q (k (R x o s).1) xs (R x o s).2)

/-- After every run whose operations meet the condition, `post` holds. -/
def wp (R : χ → Handler S σ) (Q : χ → S.Op → σ → Prop) : Prog S α → (α → σ → Prop) → σ → Prop
  | .ret a, post, s => post a s
  | .call o k, post, s => ∀ x, Q x o s → wp R Q (k (R x o s).1) post (R x o s).2

section

variable {R : χ → Handler S σ} {Q : χ → S.Op → σ → Prop} {post post' : α → σ → Prop}

@[simp] theorem wp_ret {a : α} {s : σ} : (Prog.ret a : Prog S α).wp R Q post s ↔ post a s := Iff.rfl

/-- The rule of sequences. -/
theorem wp_bind {p : Prog S β} {f : β → Prog S α} {s : σ} :
    (p >>= f).wp R Q post s ↔ p.wp R Q (fun b => (f b).wp R Q post) s := by
  induction p generalizing s with
  | ret b => rfl
  | call o k ih => exact forall_congr' fun x => imp_congr_right fun _ => ih _

/-- The rule of consequence. -/
theorem wp_mono {p : Prog S α} {s : σ} (h : p.wp R Q post s) (hpost : ∀ a s, post a s → post' a s) :
    p.wp R Q post' s := by
  induction p generalizing s with
  | ret a => exact hpost a s h
  | call o k ih => exact fun x hx => ih _ (h x hx)

/-- What always holds, holds at the end. -/
theorem wp_of_forall {p : Prog S α} {s : σ} (hpost : ∀ a s, post a s) : p.wp R Q post s := by
  induction p generalizing s with
  | ret a => exact hpost a s
  | call o k ih => exact fun x _ => ih _

/-- A run that meets the condition ends as its precondition says. -/
theorem wp_exec {p : Prog S α} {xs : List χ} {s s' : σ} {a : α} (h : p.wp R Q post s)
    (hrun : p.exec R xs s = some (a, s')) (hQ : p.Along R Q xs s) : post a s' := by
  induction p generalizing xs s with
  | ret b =>
      cases xs with
      | nil =>
          rw [exec, Option.some.injEq, Prod.mk.injEq] at hrun
          obtain ⟨rfl, rfl⟩ := hrun
          exact h
      | cons x xs => contradiction
  | call o k ih =>
      cases xs with
      | nil => contradiction
      | cons x xs => exact ih _ (h x hQ.1) hrun hQ.2

/-- What every call meets, every run meets. -/
theorem along_of_forall (h : ∀ x o s, Q x o s) (p : Prog S α) (xs : List χ) (s : σ) :
    p.Along R Q xs s := by
  induction p generalizing xs s with
  | ret a => trivial
  | call o k ih =>
      cases xs with
      | nil => trivial
      | cons x xs => exact ⟨h _ _ _, ih _ _ _⟩

end

end Prog

namespace Code

variable {S : Sig} {χ σ α β ε : Type} {R : χ → Handler S σ} {Q : χ → S.Op → σ → Prop}
  {post : Except ε α → σ → Prop} {s : σ}

@[simp] theorem wp_pure {a : α} :
    (pure a : Code ε S α).prog.wp R Q post s ↔ post (.ok a) s := Iff.rfl

@[simp] theorem wp_throw {e : ε} :
    (throw e : Code ε S α).prog.wp R Q post s ↔ post (.error e) s := Iff.rfl

/-- The rule of sequences with exceptions. -/
theorem wp_bind {c : Code ε S β} {f : β → Code ε S α} :
    (c >>= f).prog.wp R Q post s ↔
      c.prog.wp R Q (fun r => match r with
        | .ok b => (f b).prog.wp R Q post
        | .error e => post (.error e)) s := by
  rw [prog_bind, Prog.wp_bind]
  refine iff_of_eq (congrArg (fun K => c.prog.wp R Q K s) (funext fun r => ?_))
  cases r <;> rfl

/-- The rule of exception handlers. -/
theorem wp_tryCatch {c : Code ε S α} {f : ε → Code ε S α} :
    (tryCatch c f : Code ε S α).prog.wp R Q post s ↔
      c.prog.wp R Q (fun r => match r with
        | .ok a => post (.ok a)
        | .error e => (f e).prog.wp R Q post) s := by
  rw [prog_tryCatch, Prog.wp_bind]
  refine iff_of_eq (congrArg (fun K => c.prog.wp R Q K s) (funext fun r => ?_))
  cases r <;> rfl

end Code
