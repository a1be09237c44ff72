import ApiToDns.Lib.Prog
import ApiToDns.Lib.Runs
import Mathlib.Algebra.GroupWithZero.Nat
import Mathlib.Logic.Function.Basic
import Mathlib.Data.List.Basic

/-!
# Lib.Linearize

Programs that share a state and run interleaved, one operation at a time,
in the order a schedule gives.

A run is *linearised* against a sequential machine when every operation that
ends a program does at once what the machine does for that program
(its linearisation point), and every other operation is quiet: it changes
nothing the machine can see.  `runAll_of_linearizes` then turns the run into
the sequential run of the machine in the order of the linearisation points.
-/

/-- The indices of two or three programs. -/
instance neZeroTwo : NeZero (2 : Nat) := inferInstance

instance neZeroThree : NeZero (3 : Nat) := inferInstance

/-- A shared state and what is left of every program. -/
structure Config (S : Sig) (ι σ α : Type) where
  shared : σ
  procs : ι → Prog S α

namespace Config

variable {S : Sig} {ι σ τ α ω : Type}

/-- What the program `i` has answered, if it has ended. -/
def answer? (see : α → ω) (c : Config S ι σ α) (i : ι) : Option ω :=
  match c.procs i with
  | .ret a => some (see a)
  | .call _ _ => none

/-- A process that is done has its answer. -/
theorem answer?_of_ret {see : α → ω} {c : Config S ι σ α} {i : ι} {a : α}
    (hi : c.procs i = .ret a) : c.answer? see i = some (see a) := by
  unfold answer?
  rw [hi]

/-- A process before a call has no answer yet. -/
theorem answer?_of_call {see : α → ω} {c : Config S ι σ α} {i : ι} {o : S.Op}
    {k : S.Ret o → Prog S α} (hi : c.procs i = .call o k) : c.answer? see i = none := by
  unfold answer?
  rw [hi]

variable [DecidableEq ι]

section

variable (h : Handler S σ)

/-- One operation of the program `i`, if it has not ended. -/
def step (c : Config S ι σ α) (i : ι) : Config S ι σ α :=
  match c.procs i with
  | .ret _ => c
  | .call o k => ⟨(h o c.shared).2, Function.update c.procs i (k (h o c.shared).1)⟩

/-- One operation of every program the schedule names, in its order. -/
def run (c : Config S ι σ α) : List ι → Config S ι σ α
  | [] => c
  | i :: is => run (c.step h i) is

end

section

variable {h : Handler S σ} {c : Config S ι σ α} {i j : ι}

/-- A process that is done changes nothing. -/
theorem step_of_ret {a : α} (hi : c.procs i = .ret a) : c.step h i = c := by
  unfold step
  rw [hi]

/-- A step makes the next call of its process. -/
theorem step_of_call {o : S.Op} {k : S.Ret o → Prog S α} (hi : c.procs i = .call o k) :
    c.step h i = ⟨(h o c.shared).2, Function.update c.procs i (k (h o c.shared).1)⟩ := by
  unfold step
  rw [hi]

/-- A step of one program leaves the others alone. -/
theorem procs_step_of_ne (hij : j ≠ i) : (c.step h i).procs j = c.procs j := by
  cases hi : c.procs i with
  | ret a => rw [step_of_ret hi]
  | call o k =>
      rw [step_of_call hi]
      exact Function.update_of_ne hij _ _

/-- After its step a process goes on with the reply. -/
theorem procs_step_self {o : S.Op} {k : S.Ret o → Prog S α} (hi : c.procs i = .call o k) :
    (c.step h i).procs i = k (h o c.shared).1 := by
  rw [step_of_call hi]
  exact Function.update_self _ _ _

/-- A program that has ended stays as it is. -/
theorem procs_step_of_ret {a : α} (hj : c.procs j = .ret a) : (c.step h i).procs j = .ret a := by
  by_cases hij : j = i
  · subst hij
    rw [step_of_ret hj, hj]
  · rw [procs_step_of_ne hij, hj]

/-- A process that is done stays done. -/
theorem procs_run_of_ret (is : List ι) {a : α} (hj : c.procs j = .ret a) :
    (c.run h is).procs j = .ret a := by
  induction is generalizing c with
  | nil => exact hj
  | cons i is ih => exact ih (procs_step_of_ret hj)

/-- An answer stays. -/
theorem answer?_run {see : α → ω} (is : List ι) {out : ω} (hj : c.answer? see j = some out) :
    (c.run h is).answer? see j = some out := by
  cases hp : c.procs j with
  | ret a =>
      rw [answer?_of_ret hp] at hj
      rw [answer?_of_ret (procs_run_of_ret is hp), hj]
  | call o k =>
      rw [answer?_of_call hp] at hj
      contradiction

/-- The step of one process leaves the answers of the others alone. -/
theorem answer?_step_of_ne {see : α → ω} (hij : j ≠ i) :
    (c.step h i).answer? see j = c.answer? see j := by
  unfold answer?
  rw [procs_step_of_ne hij]

end

/-! ## linearised runs -/

/-- The schedule, run from a configuration, is linearised against `ref`; the
last list names the programs in the order of their linearisation points. -/
inductive Linearizes (h : Handler S σ) (view : σ → τ) (see : α → ω) (ref : Machine ι ω τ) :
    List ι → Config S ι σ α → List ι → Prop where
  | nil {c : Config S ι σ α} : Linearizes h view see ref [] c []
  /-- the program has ended before -/
  | ended {i : ι} {is order : List ι} {c : Config S ι σ α} {a : α} (hi : c.procs i = .ret a)
      (rest : Linearizes h view see ref is c order) : Linearizes h view see ref (i :: is) c order
  /-- the program goes on, and the machine sees no change -/
  | quiet {i : ι} {is order : List ι} {c : Config S ι σ α} {o o' : S.Op}
      {k : S.Ret o → Prog S α} {k' : S.Ret o' → Prog S α} (hi : c.procs i = .call o k)
      (hnext : k (h o c.shared).1 = .call o' k') (hview : view (h o c.shared).2 = view c.shared)
      (rest : Linearizes h view see ref is (c.step h i) order) :
      Linearizes h view see ref (i :: is) c order
  /-- the program ends here, as the machine would have answered it here -/
  | point {i : ι} {is order : List ι} {c : Config S ι σ α} {o : S.Op} {k : S.Ret o → Prog S α}
      {a : α} (hi : c.procs i = .call o k) (hnext : k (h o c.shared).1 = .ret a)
      (href : ref i (view c.shared) = (see a, view (h o c.shared).2))
      (rest : Linearizes h view see ref is (c.step h i) order) :
      Linearizes h view see ref (i :: is) c (i :: order)

section

variable {h : Handler S σ} {view : σ → τ} {see : α → ω} {ref : Machine ι ω τ} {is order : List ι}
  {c : Config S ι σ α}

/-- The linearisation points are those of the programs that end in the run,
one each. -/
theorem mem_order (hl : Linearizes h view see ref is c order) :
    order.Nodup ∧ ∀ j, j ∈ order ↔
      c.answer? see j = none ∧ (c.run h is).answer? see j ≠ none := by
  induction hl with
  | nil => simp [run]
  | ended hi rest ih =>
      rw [run, step_of_ret hi]
      exact ih
  | @quiet i is order c o o' k k' hi hnext hview rest ih =>
      refine ⟨ih.1, fun j => ?_⟩
      rw [run, ih.2 j]
      by_cases hij : j = i
      · subst hij
        have hnext' : (c.step h j).procs j = .call o' k' := by rw [procs_step_self hi, hnext]
        rw [answer?_of_call hi, answer?_of_call hnext']
      · rw [answer?_step_of_ne hij]
  | @point i is order c o k a hi hnext href rest ih =>
      have hret : (c.step h i).procs i = .ret a := by rw [procs_step_self hi, hnext]
      have hnot : i ∉ order := by
        rw [ih.2 i, answer?_of_ret hret]
        simp
      refine ⟨List.nodup_cons.mpr ⟨hnot, ih.1⟩, fun j => ?_⟩
      rw [run, List.mem_cons, ih.2 j]
      by_cases hij : j = i
      · subst hij
        have hend : ((c.step h j).run h is).answer? see j = some (see a) :=
          answer?_of_ret (procs_run_of_ret is hret)
        rw [answer?_of_call hi, hend]
        simp
      · rw [answer?_step_of_ne hij]
        simp [hij]

/-- A linearised run has the outcome of the sequential run in the order of
the linearisation points. -/
theorem runAll_of_linearizes (hl : Linearizes h view see ref is c order) :
    (ref.runAll order (view c.shared)).2 = view (c.run h is).shared ∧
      (ref.runAll order (view c.shared)).1.map some =
        order.map ((c.run h is).answer? see) := by
  induction hl with
  | nil => exact ⟨rfl, rfl⟩
  | ended hi rest ih =>
      rw [run, step_of_ret hi]
      exact ih
  | @quiet i is order c o o' k k' hi hnext hview rest ih =>
      have hshared : (c.step h i).shared = (h o c.shared).2 := by rw [step_of_call hi]
      rw [hshared, hview] at ih
      exact ih
  | @point i is order c o k a hi hnext href rest ih =>
      have hshared : (c.step h i).shared = (h o c.shared).2 := by rw [step_of_call hi]
      have hret : (c.step h i).procs i = .ret a := by rw [procs_step_self hi, hnext]
      have hend : ((c.step h i).run h is).answer? see i = some (see a) :=
        answer?_of_ret (procs_run_of_ret is hret)
      rw [hshared] at ih
      rw [Machine.runAll_cons, href, run, List.map_cons, List.map_cons, hend, ih.2]
      exact ⟨ih.1, rfl⟩

end

end Config
