/-!
# Lib.Prog

Programs that act on the world through a fixed signature of operations, as
finitely branching trees: a program is a result, or an operation together
with the program to go on with for every reply.

One program has several readings, all defined here:

* `Prog.run` — executed alone against a stateful `Handler`, the operations it
  performs on the way being `Prog.calls`;
* `Prog.Issues` / `Prog.Returns` — which operations and results some replies
  lead to, whatever the world does;
* `Prog.IssuesIn` / `Prog.Ensures` — the same in a `World` that gives some
  replies only, with rules to prove what every operation and result satisfies;
* `Prog.translate` — its operations implemented by programs over another
  signature (`run_translate` says this commutes with running).

`Code` adds exceptions.  This module depends only on the Lean 4 core library.
-/

/-- A signature: operations and the type of the reply to each. -/
structure Sig where
  Op : Type
  Ret : Op → Type

/-- A program over the signature `S` with results in `α`. -/
inductive Prog (S : Sig) (α : Type) where
  | ret (a : α)
  | call (o : S.Op) (k : S.Ret o → Prog S α)

/-- The world's side: what an operation replies and does to the state. -/
abbrev Handler (S : Sig) (σ : Type) := (o : S.Op) → σ → S.Ret o × σ

namespace Prog

variable {S T : Sig} {α β σ : Type}

/-! ## sequencing -/

/-- Go on with `f` after the result. -/
def bind : Prog S α → (α → Prog S β) → Prog S β
  | ret a, f => f a
  | call o k, f => call o fun r => bind (k r) f

instance : Monad (Prog S) where
  pure := ret
  bind := bind

/-- One operation, its reply as the result. -/
def op (o : S.Op) : Prog S (S.Ret o) := call o ret

@[simp] theorem pure_eq (a : α) : (pure a : Prog S α) = ret a := rfl

@[simp] theorem ret_bind (a : α) (f : α → Prog S β) : ret a >>= f = f a := rfl

/-- A sequence makes the calls of its first part first. -/
@[simp] theorem call_bind (o : S.Op) (k : S.Ret o → Prog S α) (f : α → Prog S β) :
    call o k >>= f = call o fun r => k r >>= f := rfl

/-- Returning what was returned does nothing. -/
theorem bind_ret (p : Prog S α) : p >>= ret = p := by
  induction p with
  | ret a => rfl
  | call o k ih =>
      rw [call_bind]
      exact congrArg (call o) (funext ih)

/-- Sequences can be bracketed either way. -/
theorem bind_assoc {γ : Type} (p : Prog S α) (f : α → Prog S β) (g : β → Prog S γ) :
    p >>= f >>= g = p >>= fun a => f a >>= g := by
  induction p with
  | ret a => rfl
  | call o k ih =>
      rw [call_bind, call_bind, call_bind]
      exact congrArg (call o) (funext ih)

instance : LawfulMonad (Prog S) :=
  LawfulMonad.mk' _ bind_ret (fun _ _ => rfl) bind_assoc

/-! ## running alone -/

/-- Run a program against a handler. -/
def run (h : Handler S σ) : Prog S α → σ → α × σ
  | ret a, s => (a, s)
  | call o k, s => run h (k (h o s).1) (h o s).2

@[simp] theorem run_ret (h : Handler S σ) (a : α) (s : σ) : run h (ret a) s = (a, s) := rfl

/-- A run of a call goes on with the reply. -/
@[simp] theorem run_call (h : Handler S σ) (o : S.Op) (k : S.Ret o → Prog S α) (s : σ) :
    run h (call o k) s = run h (k (h o s).1) (h o s).2 := rfl

/-- A run of a sequence is one run after the other. -/
theorem run_bind (h : Handler S σ) (p : Prog S α) (f : α → Prog S β) (s : σ) :
    run h (p >>= f) s = run h (f (run h p s).1) (run h p s).2 := by
  induction p generalizing s with
  | ret a => rfl
  | call o k ih => rw [call_bind, run_call, run_call, ih]

/-- The operations of a run, each with the state it is performed in. -/
def calls (h : Handler S σ) : Prog S α → σ → List (S.Op × σ)
  | ret _, _ => []
  | call o k, s => (o, s) :: calls h (k (h o s).1) (h o s).2

@[simp] theorem calls_ret (h : Handler S σ) (a : α) (s : σ) : calls h (ret a) s = [] := rfl

/-- The first call of a run, and those after its reply. -/
@[simp] theorem calls_call (h : Handler S σ) (o : S.Op) (k : S.Ret o → Prog S α) (s : σ) :
    calls h (call o k) s = (o, s) :: calls h (k (h o s).1) (h o s).2 := rfl

/-- The calls of a sequence are those of its parts. -/
theorem calls_bind (h : Handler S σ) (p : Prog S α) (f : α → Prog S β) (s : σ) :
    calls h (p >>= f) s = calls h p s ++ calls h (f (run h p s).1) (run h p s).2 := by
  induction p generalizing s with
  | ret a => rfl
  | call o k ih => rw [call_bind, calls_call, calls_call, run_call, ih, List.cons_append]

/-! ## what a program may do -/

/-- Some replies lead the program to issue the operation `o`. -/
inductive Issues : Prog S α → S.Op → Prop
  | here {o : S.Op} {k : S.Ret o → Prog S α} : Issues (call o k) o
  | later {o o' : S.Op} {k : S.Ret o → Prog S α} (r : S.Ret o) :
      Issues (k r) o' → Issues (call o k) o'

/-- Some replies lead the program to the result `a`. -/
inductive Returns : Prog S α → α → Prop
  | ret {a : α} : Returns (ret a) a
  | call {o : S.Op} {k : S.Ret o → Prog S α} {a : α} (r : S.Ret o) :
      Returns (k r) a → Returns (call o k) a

@[simp] theorem not_issues_ret (a : α) (o : S.Op) : ¬ Issues (ret a : Prog S α) o := by
  intro h; cases h

/-- A tree issues its first call and what may follow it. -/
theorem issues_call_iff {o o' : S.Op} {k : S.Ret o → Prog S α} :
    Issues (call o k) o' ↔ o = o' ∨ ∃ r, Issues (k r) o' := by
  constructor
  · intro h
    cases h with
    | here => exact .inl rfl
    | later r h => exact .inr ⟨r, h⟩
  · intro h
    cases h with
    | inl h => subst h; exact .here
    | inr h => obtain ⟨r, h⟩ := h; exact .later r h

/-- A leaf returns its value. -/
theorem returns_ret_iff {a b : α} : Returns (ret a : Prog S α) b ↔ a = b := by
  constructor
  · intro h; cases h; rfl
  · intro h; subst h; exact .ret

/-- A call returns what one of its continuations returns. -/
theorem returns_call_iff {o : S.Op} {k : S.Ret o → Prog S α} {a : α} :
    Returns (call o k) a ↔ ∃ r, Returns (k r) a := by
  constructor
  · intro h
    cases h with
    | call r h => exact ⟨r, h⟩
  · intro h
    obtain ⟨r, h⟩ := h
    exact .call r h

/-- A sequence issues what its first part issues, and what its second part
issues after a result of the first. -/
theorem issues_bind_iff {p : Prog S α} {f : α → Prog S β} {o : S.Op} :
    Issues (p >>= f) o ↔ Issues p o ∨ ∃ a, Returns p a ∧ Issues (f a) o := by
  induction p with
  | ret a => simp [returns_ret_iff]
  | call o' k ih =>
      rw [call_bind, issues_call_iff, issues_call_iff]
      simp only [ih, returns_call_iff]
      constructor
      · intro h
        cases h with
        | inl h => exact .inl (.inl h)
        | inr h =>
            obtain ⟨r, h⟩ := h
            cases h with
            | inl h => exact .inl (.inr ⟨r, h⟩)
            | inr h => obtain ⟨a, ha, h⟩ := h; exact .inr ⟨a, ⟨r, ha⟩, h⟩
      · intro h
        cases h with
        | inl h =>
            cases h with
            | inl h => exact .inl h
            | inr h => obtain ⟨r, h⟩ := h; exact .inr ⟨r, .inl h⟩
        | inr h => obtain ⟨a, ⟨r, ha⟩, h⟩ := h; exact .inr ⟨r, .inr ⟨a, ha, h⟩⟩

/-- A sequence returns what its second part returns after the first. -/
theorem returns_bind_iff {p : Prog S α} {f : α → Prog S β} {b : β} :
    Returns (p >>= f) b ↔ ∃ a, Returns p a ∧ Returns (f a) b := by
  induction p with
  | ret a => simp [returns_ret_iff]
  | call o k ih =>
      rw [call_bind, returns_call_iff]
      simp only [ih, returns_call_iff]
      constructor
      · intro h
        obtain ⟨r, a, ha, h⟩ := h
        exact ⟨a, ⟨r, ha⟩, h⟩
      · intro h
        obtain ⟨a, ⟨r, ha⟩, h⟩ := h
        exact ⟨r, a, ha, h⟩

/-- If every operation has a reply, every program has a result. -/
theorem exists_returns (hrep : ∀ o, Nonempty (S.Ret o)) (p : Prog S α) : ∃ a, Returns p a := by
  induction p with
  | ret a => exact ⟨a, .ret⟩
  | call o k ih =>
      obtain ⟨r⟩ := hrep o
      obtain ⟨a, ha⟩ := ih r
      exact ⟨a, .call r ha⟩

/-! ## worlds -/

/-- The replies a world gives to each operation. -/
abbrev World (S : Sig) := (o : S.Op) → S.Ret o → Prop

/-- In the world `w` the program may issue the operation `o`. -/
inductive IssuesIn (w : World S) : Prog S α → S.Op → Prop
  | here {o : S.Op} {k : S.Ret o → Prog S α} : IssuesIn w (call o k) o
  | later {o o' : S.Op} {k : S.Ret o → Prog S α} (r : S.Ret o) (hr : w o r) :
      IssuesIn w (k r) o' → IssuesIn w (call o k) o'

/-- In the world `w` every operation satisfies `Q` and every result `post`. -/
def Ensures (w : World S) (Q : S.Op → Prop) (post : α → Prop) : Prog S α → Prop
  | ret a => post a
  | call o k => Q o ∧ ∀ r, w o r → Ensures w Q post (k r)

section Ensures

variable {w : World S} {Q : S.Op → Prop} {post : α → Prop} {mid : β → Prop}

@[simp] theorem ensures_ret {a : α} : (ret a).Ensures w Q post ↔ post a := Iff.rfl

/-- A call has to be allowed, and what follows its replies to ensure the rest. -/
@[simp] theorem ensures_call {o : S.Op} {k : S.Ret o → Prog S α} :
    (call o k).Ensures w Q post ↔ Q o ∧ ∀ r, w o r → (k r).Ensures w Q post := Iff.rfl

/-- What two parts ensure, their sequence ensures. -/
theorem Ensures.bind {p : Prog S β} {f : β → Prog S α} (h : p.Ensures w Q mid)
    (hf : ∀ b, mid b → (f b).Ensures w Q post) : (p >>= f).Ensures w Q post := by
  induction p with
  | ret b => exact hf b h
  | call o k ih => exact ⟨h.1, fun r hr => ih r (h.2 r hr)⟩

/-- The rule of consequence. -/
theorem Ensures.mono {p : Prog S α} {Q' : S.Op → Prop} {post' : α → Prop}
    (h : p.Ensures w Q post) (hQ : ∀ o, Q o → Q' o) (hpost : ∀ a, post a → post' a) :
    p.Ensures w Q' post' := by
  induction p with
  | ret a => exact hpost a h
  | call o k ih => exact ⟨hQ o h.1, fun r hr => ih r (h.2 r hr)⟩

/-- Every call that is issued is allowed. -/
theorem Ensures.of_issuesIn {p : Prog S α} {o : S.Op} (h : p.Ensures w Q post)
    (ho : IssuesIn w p o) : Q o := by
  induction ho with
  | here => exact h.1
  | later r hr _ ih => exact ih (h.2 r hr)

end Ensures

/-- The operations that are issued when each is answered by `h`. -/
def issued (h : (o : S.Op) → S.Ret o) : Prog S α → List S.Op
  | ret _ => []
  | call o k => o :: issued h (k (h o))

/-- The calls that are issued with given replies. -/
theorem mem_issued_iff {h : (o : S.Op) → S.Ret o} {p : Prog S α} {o : S.Op} :
    o ∈ p.issued h ↔ IssuesIn (fun o r => r = h o) p o := by
  induction p with
  | ret a =>
      constructor
      · intro ho
        contradiction
      · intro ho
        cases ho
  | call o' k ih =>
      rw [issued, List.mem_cons, ih]
      constructor
      · intro ho
        cases ho with
        | inl ho => rw [ho]; exact .here
        | inr ho => exact .later _ rfl ho
      · intro ho
        cases ho with
        | here => exact .inl rfl
        | later r hr ho => rw [hr] at ho; exact .inr ho

/-! ## implementing the operations -/

/-- Replace every operation by its implementation over the signature `T`. -/
def translate (t : (o : S.Op) → Prog T (S.Ret o)) : Prog S α → Prog T α
  | ret a => ret a
  | call o k => t o >>= fun r => translate t (k r)

@[simp] theorem translate_ret (t : (o : S.Op) → Prog T (S.Ret o)) (a : α) :
    translate t (ret a) = ret a := rfl

/-- A call is translated into its program. -/
@[simp] theorem translate_call (t : (o : S.Op) → Prog T (S.Ret o)) (o : S.Op)
    (k : S.Ret o → Prog S α) :
    translate t (call o k) = t o >>= fun r => translate t (k r) := rfl

/-- Running the implementation is running the program against the handler
that runs the implementations. -/
theorem run_translate (t : (o : S.Op) → Prog T (S.Ret o)) (h : Handler T σ) (p : Prog S α)
    (s : σ) : run h (translate t p) s = run (fun o s => run h (t o) s) p s := by
  induction p generalizing s with
  | ret a => rfl
  | call o k ih => rw [translate_call, run_bind, run_call, ih]

/-- What the implementations ensure of their replies the program may rely
on. -/
theorem Ensures.translate {t : (o : S.Op) → Prog T (S.Ret o)} {w : World S} {w' : World T}
    {Q : S.Op → Prop} {Q' : T.Op → Prop} {post : α → Prop} {p : Prog S α}
    (h : p.Ensures w Q post) (ht : ∀ o, Q o → (t o).Ensures w' Q' (w o)) :
    (translate t p).Ensures w' Q' post := by
  induction p with
  | ret a => exact h
  | call o k ih =>
      rw [translate_call]
      exact (ht o h.1).bind fun r hr => ih r (h.2 r hr)

end Prog

/-! ## exceptions -/

/-- A program that may end in an exception. -/
abbrev Code (ε : Type) (S : Sig) (α : Type) := ExceptT ε (Prog S) α

namespace Code

variable {ε : Type} {S : Sig} {α β σ : Type}

/-- A pure step that may raise. -/
def lift (e : Except ε α) : Code ε S α := ExceptT.mk (.ret e)

/-- The tree behind the code. -/
def prog (c : Code ε S α) : Prog S (Except ε α) := c

/-- A result that is at hand is returned. -/
theorem lift_ok (a : α) : (lift (.ok a) : Code ε S α) = pure a := rfl

@[simp] theorem prog_pure (a : α) : prog (pure a : Code ε S α) = .ret (.ok a) := rfl

@[simp] theorem prog_throw (e : ε) : prog (throw e : Code ε S α) = .ret (.error e) := rfl

@[simp] theorem prog_lift (e : Except ε α) : prog (lift e : Code ε S α) = .ret e := rfl

/-- Go on with a result, pass an exception through. -/
def andThen (f : α → Prog S (Except ε β)) : Except ε α → Prog S (Except ε β)
  | .ok a => f a
  | .error e => .ret (.error e)

@[simp] theorem andThen_ok (f : α → Prog S (Except ε β)) (a : α) : andThen f (.ok a) = f a := rfl

@[simp] theorem andThen_error (f : α → Prog S (Except ε β)) (e : ε) :
    andThen f (.error e) = .ret (.error e) := rfl

/-- Handle an exception, pass a result through. -/
def rescue (f : ε → Prog S (Except ε α)) : Except ε α → Prog S (Except ε α)
  | .ok a => .ret (.ok a)
  | .error e => f e

@[simp] theorem rescue_ok (f : ε → Prog S (Except ε α)) (a : α) :
    rescue f (.ok a) = .ret (.ok a) := rfl

@[simp] theorem rescue_error (f : ε → Prog S (Except ε α)) (e : ε) :
    rescue f (.error e) = f e := rfl

/-- The tree of a sequence, with its exceptions passed through. -/
theorem prog_bind (c : Code ε S α) (f : α → Code ε S β) :
    prog (c >>= f) = prog c >>= andThen fun a => prog (f a) := by
  refine congrArg (prog c >>= ·) (funext fun r => ?_)
  cases r with
  | ok a => rfl
  | error e => rfl

/-- The tree of an exception handler. -/
theorem prog_tryCatch (c : Code ε S α) (f : ε → Code ε S α) :
    prog (tryCatch c f) = prog c >>= rescue fun e => prog (f e) := by
  refine congrArg (prog c >>= ·) (funext fun r => ?_)
  cases r with
  | ok a => rfl
  | error e => rfl

/-- Run the code against a handler. -/
def run (h : Handler S σ) (c : Code ε S α) (s : σ) : Except ε α × σ := c.prog.run h s

@[simp] theorem run_pure (h : Handler S σ) (a : α) (s : σ) :
    run h (pure a : Code ε S α) s = (.ok a, s) := rfl

@[simp] theorem run_throw (h : Handler S σ) (e : ε) (s : σ) :
    run h (throw e : Code ε S α) s = (.error e, s) := rfl

@[simp] theorem run_lift (h : Handler S σ) (r : Except ε α) (s : σ) :
    run h (lift r : Code ε S α) s = (r, s) := rfl

/-- A run of a sequence ends with the first exception. -/
theorem run_bind (h : Handler S σ) (c : Code ε S α) (f : α → Code ε S β) (s : σ) :
    run h (c >>= f) s =
      match run h c s with
      | (.ok a, s') => run h (f a) s'
      | (.error e, s') => (.error e, s') := by
  rw [run, prog_bind, Prog.run_bind, run]
  obtain ⟨r, s'⟩ := c.prog.run h s
  cases r with
  | ok a => rfl
  | error e => rfl

/-- What ends well went well so far. -/
theorem run_bind_eq_ok {h : Handler S σ} {c : Code ε S α} {f : α → Code ε S β} {s s'' : σ} {b : β}
    (hr : run h (c >>= f) s = (.ok b, s'')) :
    ∃ a s', run h c s = (.ok a, s') ∧ run h (f a) s' = (.ok b, s'') := by
  rw [run_bind] at hr
  generalize hc : run h c s = end_ at hr
  obtain ⟨r, s'⟩ := end_
  cases r with
  | ok a => exact ⟨a, s', rfl, hr⟩
  | error e => cases hr

/-- When the run of a lifted result succeeds. -/
theorem run_lift_eq_ok {h : Handler S σ} {r : Except ε α} {s s' : σ} {a : α} :
    run h (lift r : Code ε S α) s = (.ok a, s') ↔ r = .ok a ∧ s = s' := by
  rw [run_lift, Prod.mk.injEq]

/-- A pure step that went well. -/
theorem run_lift_bind_eq_ok {h : Handler S σ} {r : Except ε α} {f : α → Code ε S β} {s s' : σ} {b : β}
    (hr : run h (lift r >>= f) s = (.ok b, s')) : ∃ a, r = .ok a ∧ run h (f a) s = (.ok b, s') := by
  obtain ⟨a, s₁, hlift, hr⟩ := run_bind_eq_ok hr
  obtain ⟨ha, rfl⟩ := run_lift_eq_ok.mp hlift
  exact ⟨a, ha, hr⟩

/-- When the run of a pure value ends with another. -/
theorem run_pure_eq_ok {h : Handler S σ} {s s' : σ} {a b : α} :
    run h (pure a : Code ε S α) s = (.ok b, s') ↔ a = b ∧ s = s' := by
  rw [run_pure, Prod.mk.injEq, Except.ok.injEq]

/-- A sequence goes on after a success. -/
theorem run_bind_ok {h : Handler S σ} {c : Code ε S α} {s s' : σ} {a : α}
    (hc : run h c s = (.ok a, s')) (f : α → Code ε S β) :
    run h (c >>= f) s = run h (f a) s' := by
  rw [run_bind, hc]

/-- A sequence stops at an exception. -/
theorem run_bind_error {h : Handler S σ} {c : Code ε S α} {s s' : σ} {e : ε}
    (hc : run h c s = (.error e, s')) (f : α → Code ε S β) :
    run h (c >>= f) s = (.error e, s') := by
  rw [run_bind, hc]

/-- The operations of a run, each with the state it is performed in. -/
def calls (h : Handler S σ) (c : Code ε S α) (s : σ) : List (S.Op × σ) := c.prog.calls h s

@[simp] theorem calls_pure (h : Handler S σ) (a : α) (s : σ) :
    calls h (pure a : Code ε S α) s = [] := rfl

@[simp] theorem calls_throw (h : Handler S σ) (e : ε) (s : σ) :
    calls h (throw e : Code ε S α) s = [] := rfl

@[simp] theorem calls_lift (h : Handler S σ) (r : Except ε α) (s : σ) :
    calls h (lift r : Code ε S α) s = [] := rfl

/-- A sequence makes no call after an exception. -/
theorem calls_bind (h : Handler S σ) (c : Code ε S α) (f : α → Code ε S β) (s : σ) :
    calls h (c >>= f) s = calls h c s ++
      match run h c s with
      | (.ok a, s') => calls h (f a) s'
      | (.error _, _) => [] := by
  rw [calls, prog_bind, Prog.calls_bind, run]
  obtain ⟨r, s'⟩ := c.prog.run h s
  cases r <;> rfl

/-- A run of an exception handler. -/
theorem run_tryCatch (h : Handler S σ) (c : Code ε S α) (f : ε → Code ε S α) (s : σ) :
    run h (tryCatch c f) s =
      match run h c s with
      | (.ok a, s') => (.ok a, s')
      | (.error e, s') => run h (f e) s' := by
  rw [run, prog_tryCatch, Prog.run_bind, run]
  obtain ⟨r, s'⟩ := c.prog.run h s
  cases r with
  | ok a => rfl
  | error e => rfl

/-! ## what code may do -/

variable {o : S.Op}

/-- A sequence issues the calls of its second part after a success only. -/
theorem issues_bind_iff {c : Code ε S α} {f : α → Code ε S β} :
    (c >>= f).prog.Issues o ↔ c.prog.Issues o ∨ ∃ a, c.prog.Returns (.ok a) ∧ (f a).prog.Issues o := by
  rw [prog_bind, Prog.issues_bind_iff]
  refine or_congr Iff.rfl ⟨fun h => ?_, fun h => ?_⟩
  · obtain ⟨r, hr, h⟩ := h
    cases r with
    | ok a => exact ⟨a, hr, h⟩
    | error e => exact absurd h (Prog.not_issues_ret _ _)
  · obtain ⟨a, ha, h⟩ := h
    exact ⟨.ok a, ha, h⟩

/-- A sequence returns what its second part returns, or the exception of the first. -/
theorem returns_bind_iff {c : Code ε S α} {f : α → Code ε S β} {r : Except ε β} :
    (c >>= f).prog.Returns r ↔
      (∃ a, c.prog.Returns (.ok a) ∧ (f a).prog.Returns r) ∨
        ∃ e, c.prog.Returns (.error e) ∧ r = .error e := by
  rw [prog_bind, Prog.returns_bind_iff]
  constructor
  · intro h
    obtain ⟨r', hr', h⟩ := h
    cases r' with
    | ok a => exact .inl ⟨a, hr', h⟩
    | error e => exact .inr ⟨e, hr', (Prog.returns_ret_iff.mp h).symm⟩
  · intro h
    cases h with
    | inl h => obtain ⟨a, ha, h⟩ := h; exact ⟨.ok a, ha, h⟩
    | inr h => obtain ⟨e, he, h⟩ := h; exact ⟨.error e, he, Prog.returns_ret_iff.mpr h.symm⟩

/-- The handler issues its calls after an exception only. -/
theorem issues_tryCatch_iff {c : Code ε S α} {f : ε → Code ε S α} :
    (tryCatch c f).prog.Issues o ↔
      c.prog.Issues o ∨ ∃ e, c.prog.Returns (.error e) ∧ (f e).prog.Issues o := by
  rw [prog_tryCatch, Prog.issues_bind_iff]
  refine or_congr Iff.rfl ⟨fun h => ?_, fun h => ?_⟩
  · obtain ⟨r, hr, h⟩ := h
    cases r with
    | ok a => exact absurd h (Prog.not_issues_ret _ _)
    | error e => exact ⟨e, hr, h⟩
  · obtain ⟨e, he, h⟩ := h
    exact ⟨.error e, he, h⟩

/-- An exception handler returns the success, or what follows the exception. -/
theorem returns_tryCatch_iff {c : Code ε S α} {f : ε → Code ε S α} {r : Except ε α} :
    (tryCatch c f).prog.Returns r ↔
      (∃ a, c.prog.Returns (.ok a) ∧ r = .ok a) ∨
        ∃ e, c.prog.Returns (.error e) ∧ (f e).prog.Returns r := by
  rw [prog_tryCatch, Prog.returns_bind_iff]
  constructor
  · intro h
    obtain ⟨r', hr', h⟩ := h
    cases r' with
    | ok a => exact .inl ⟨a, hr', (Prog.returns_ret_iff.mp h).symm⟩
    | error e => exact .inr ⟨e, hr', h⟩
  · intro h
    cases h with
    | inl h => obtain ⟨a, ha, h⟩ := h; exact ⟨.ok a, ha, Prog.returns_ret_iff.mpr h.symm⟩
    | inr h => obtain ⟨e, he, h⟩ := h; exact ⟨.error e, he, h⟩

/-- In the world `w` every operation of the code satisfies `Q` and every
result `post`. -/
def Ensures (w : Prog.World S) (Q : S.Op → Prop) (post : α → Prop) (c : Code ε S α) : Prop :=
  c.prog.Ensures w Q fun r => ∀ a, r = .ok a → post a

section Ensures

variable {w : Prog.World S} {Q : S.Op → Prop} {post : α → Prop} {mid : β → Prop}

/-- A pure value ensures what holds of it. -/
theorem Ensures.pure {a : α} (h : post a) : Ensures w Q post (pure a : Code ε S α) := by
  intro b hb
  rwa [← Except.ok.inj hb]

/-- An exception ensures nothing about a result. -/
theorem Ensures.throw {e : ε} : Ensures w Q post (throw e : Code ε S α) := by
  intro b hb
  contradiction

/-- A lifted result ensures what holds of its success. -/
theorem Ensures.lift {r : Except ε α} (h : ∀ a, r = .ok a → post a) :
    Ensures w Q post (lift r : Code ε S α) := h

/-- The rule of sequences. -/
theorem Ensures.bind {c : Code ε S β} {f : β → Code ε S α} (h : Ensures w Q mid c)
    (hf : ∀ b, mid b → Ensures w Q post (f b)) : Ensures w Q post (c >>= f) := by
  unfold Ensures
  rw [prog_bind]
  refine Prog.Ensures.bind h fun r hr => ?_
  cases r with
  | ok b => exact hf b (hr b rfl)
  | error e =>
      intro a ha
      contradiction

/-- The rule of exception handlers. -/
theorem Ensures.tryCatch {c : Code ε S α} {f : ε → Code ε S α} (h : Ensures w Q post c)
    (hf : ∀ e, Ensures w Q post (f e)) : Ensures w Q post (tryCatch c f) := by
  unfold Ensures
  rw [prog_tryCatch]
  refine Prog.Ensures.bind h fun r hr => ?_
  cases r with
  | ok a => exact hr
  | error e => exact hf e

end Ensures

@[simp] theorem not_issues_pure (a : α) : ¬(pure a : Code ε S α).prog.Issues o :=
  Prog.not_issues_ret _ _

@[simp] theorem not_issues_throw (e : ε) : ¬(throw e : Code ε S α).prog.Issues o :=
  Prog.not_issues_ret _ _

@[simp] theorem not_issues_lift (r : Except ε α) : ¬(lift r : Code ε S α).prog.Issues o :=
  Prog.not_issues_ret _ _

/-- A pure value returns itself. -/
@[simp] theorem returns_pure_iff {a : α} {r : Except ε α} :
    (pure a : Code ε S α).prog.Returns r ↔ r = .ok a :=
  Prog.returns_ret_iff.trans eq_comm

/-- A lifted result returns itself. -/
@[simp] theorem returns_lift_iff {r' r : Except ε α} :
    (lift r' : Code ε S α).prog.Returns r ↔ r = r' :=
  Prog.returns_ret_iff.trans eq_comm

end Code
