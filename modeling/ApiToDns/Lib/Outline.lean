import ApiToDns.Lib.Linearize

/-!
# Lib.Outline

Programs that share a state and run interleaved, where the world has a say in
what an operation does and some operations have to wait.

What holds in every run is proved one program at a time:

* `inv_turns` — a property that every operation keeps;
* `Outline` — what a program knows of the state between its operations, the
  knowledge being such that the operations of the others keep it
  (`Stable`), with rules for sequences, and `outlined_turns` for runs.

A condition on the operations restricts the runs (`MeetsRun`).
-/

/-- The world of interleaved programs: whether an operation of a program can
take place, and what it replies and does, by a choice. -/
structure Env (S : Sig) (ι χ σ : Type) where
  ready : ι → S.Op → σ → Bool
  reply : ι → χ → Handler S σ

/-- A condition on an operation of a program: the choice, the operation and
the state it is done in. -/
abbrev Cond (S : Sig) (ι χ σ : Type) := ι → χ → S.Op → σ → Prop

namespace Config

variable {S : Sig} {ι χ σ α : Type} [DecidableEq ι]

/-- One operation of a program, if the program has one that can take place. -/
def turn (E : Env S ι χ σ) (c : Config S ι σ α) (e : ι × χ) : Config S ι σ α :=
  match c.procs e.1 with
  | .ret _ => c
  | .call o k =>
      if E.ready e.1 o c.shared then
        ⟨(E.reply e.1 e.2 o c.shared).2,
          Function.update c.procs e.1 (k (E.reply e.1 e.2 o c.shared).1)⟩
      else c

/-- The turns of a schedule, in its order. -/
def turns (E : Env S ι χ σ) (c : Config S ι σ α) : List (ι × χ) → Config S ι σ α
  | [] => c
  | e :: es => (c.turn E e).turns E es

/-- The operation of the turn meets the condition, if there is one. -/
def Meets (E : Env S ι χ σ) (Q : Cond S ι χ σ) (c : Config S ι σ α) (e : ι × χ) : Prop :=
  match c.procs e.1 with
  | .ret _ => True
  | .call o _ => E.ready e.1 o c.shared = true → Q e.1 e.2 o c.shared

/-- Every operation of the run meets the condition. -/
def MeetsRun (E : Env S ι χ σ) (Q : Cond S ι χ σ) (c : Config S ι σ α) : List (ι × χ) → Prop
  | [] => True
  | e :: es => c.Meets E Q e ∧ (c.turn E e).MeetsRun E Q es

section

variable {E : Env S ι χ σ} {Q : Cond S ι χ σ} {c : Config S ι σ α} {e : ι × χ}

instance [∀ i x o s, Decidable (Q i x o s)] : Decidable (c.Meets E Q e) := by
  unfold Meets
  split <;> infer_instance

instance decidableMeetsRun [∀ i x o s, Decidable (Q i x o s)] (c : Config S ι σ α) :
    (es : List (ι × χ)) → Decidable (c.MeetsRun E Q es)
  | [] => .isTrue trivial
  | e :: es =>
      @instDecidableAnd (c.Meets E Q e) _ inferInstance (decidableMeetsRun (c.turn E e) es)

/-- A process that is done changes nothing. -/
theorem turn_of_ret {a : α} (hi : c.procs e.1 = .ret a) : c.turn E e = c := by
  unfold turn
  rw [hi]

/-- A process that has to wait changes nothing. -/
theorem turn_of_waiting {o : S.Op} {k : S.Ret o → Prog S α} (hi : c.procs e.1 = .call o k)
    (hready : E.ready e.1 o c.shared = false) : c.turn E e = c := by
  unfold turn
  rw [hi]
  simp [hready]

/-- A turn makes the next call of its process. -/
theorem turn_of_call {o : S.Op} {k : S.Ret o → Prog S α} (hi : c.procs e.1 = .call o k)
    (hready : E.ready e.1 o c.shared = true) :
    c.turn E e = ⟨(E.reply e.1 e.2 o c.shared).2,
      Function.update c.procs e.1 (k (E.reply e.1 e.2 o c.shared).1)⟩ := by
  unfold turn
  rw [hi]
  simp [hready]

/-- A turn changes nothing, or is an operation that can take place. -/
theorem turn_cases (hm : c.Meets E Q e) :
    c.turn E e = c ∨ ∃ o k, c.procs e.1 = .call o k ∧ E.ready e.1 o c.shared = true ∧
      Q e.1 e.2 o c.shared ∧
        c.turn E e = ⟨(E.reply e.1 e.2 o c.shared).2,
          Function.update c.procs e.1 (k (E.reply e.1 e.2 o c.shared).1)⟩ := by
  cases hi : c.procs e.1 with
  | ret a => exact .inl (turn_of_ret hi)
  | call o k =>
      cases hready : E.ready e.1 o c.shared with
      | false => exact .inl (turn_of_waiting hi hready)
      | true =>
          unfold Meets at hm
          rw [hi] at hm
          exact .inr ⟨o, k, rfl, hready, hm hready, turn_of_call hi hready⟩

/-- What every call meets, every run meets. -/
theorem meetsRun_of_forall (h : ∀ i x o s, Q i x o s) (es : List (ι × χ)) : c.MeetsRun E Q es := by
  induction es generalizing c with
  | nil => trivial
  | cons e es ih =>
      refine ⟨?_, ih⟩
      unfold Meets
      split
      · trivial
      · exact fun _ => h _ _ _ _

/-- What every operation keeps, a run keeps. -/
theorem inv_turns {I : σ → Prop}
    (hstep : ∀ i x o s, I s → E.ready i o s = true → Q i x o s → I (E.reply i x o s).2)
    {es : List (ι × χ)} (hinv : I c.shared) (hm : c.MeetsRun E Q es) :
    I (c.turns E es).shared := by
  induction es generalizing c with
  | nil => exact hinv
  | cons e es ih =>
      refine ih ?_ hm.2
      rcases turn_cases hm.1 with hsame | ⟨o, k, -, hready, hQ, hturn⟩
      · rw [hsame]
        exact hinv
      · rw [hturn]
        exact hstep e.1 e.2 o c.shared hinv hready hQ

end

end Config

/-! ## proof outlines -/

/-- What the programs of a family are proved against: the operations and the
condition they meet, a property of the state that all keep, and what each
program relies on the others to keep. -/
structure Terms (S : Sig) (ι χ σ : Type) where
  env : Env S ι χ σ
  cond : Cond S ι χ σ
  inv : σ → Prop
  rely : ι → σ → σ → Prop

namespace Terms

variable {S : Sig} {ι χ σ α β : Type} (T : Terms S ι χ σ) (i : ι)

/-- Knowledge that the other programs keep. -/
def Stable (K : σ → Prop) : Prop :=
  ∀ s s', T.inv s → T.inv s' → T.rely i s s' → K s → K s'

/-- From any state with the knowledge `K`, the program `i` keeps its terms, has
`live` as long as it goes on, and ends with `post`. -/
def Outline (live : σ → Prop) (post : α → σ → Prop) : Prog S α → (σ → Prop) → Prop
  | .ret a, K => ∀ s, T.inv s → K s → post a s
  | .call o k, K =>
      (∀ s, T.inv s → K s → live s) ∧
        ∀ x s, T.inv s → K s → T.env.ready i o s = true → T.cond i x o s →
          T.inv (T.env.reply i x o s).2 ∧ (∀ j, j ≠ i → T.rely j s (T.env.reply i x o s).2) ∧
            ∃ K', T.Stable i K' ∧ K' (T.env.reply i x o s).2 ∧
              Outline live post (k (T.env.reply i x o s).1) K'

/-- The state keeps the terms, and every program has an outline from what it
knows of the state. -/
def Outlined (live : ι → σ → Prop) (post : ι → α → σ → Prop) (c : Config S ι σ α) : Prop :=
  T.inv c.shared ∧
    ∀ i, ∃ K, T.Stable i K ∧ K c.shared ∧ T.Outline i (live i) (post i) (c.procs i) K

section

variable {T i} {live : σ → Prop} {post post' : α → σ → Prop} {mid : β → σ → Prop}
  {K K' : σ → Prop}

/-- An outline with a weaker end and a stronger start. -/
theorem Outline.mono {p : Prog S α} (h : T.Outline i live post p K)
    (hK : ∀ s, T.inv s → K' s → K s) (hpost : ∀ a s, post a s → post' a s) :
    T.Outline i live post' p K' := by
  induction p generalizing K K' with
  | ret a => exact fun s hs hk => hpost a s (h s hs (hK s hs hk))
  | call o k ih =>
      refine ⟨fun s hs hk => h.1 s hs (hK s hs hk), fun x s hs hk hready hcond => ?_⟩
      obtain ⟨hinv, hrely, K₁, hstable, hK₁, hrest⟩ := h.2 x s hs (hK s hs hk) hready hcond
      exact ⟨hinv, hrely, K₁, hstable, hK₁, ih _ hrest fun s _ hk => hk⟩

/-- Outlines one after the other. -/
theorem Outline.bind {p : Prog S β} {f : β → Prog S α} (h : T.Outline i live mid p K)
    (hf : ∀ b, T.Outline i live post (f b) (mid b)) : T.Outline i live post (p >>= f) K := by
  induction p generalizing K with
  | ret b => exact (hf b).mono h fun _ _ h => h
  | call o k ih =>
      refine ⟨h.1, fun x s hs hk hready hcond => ?_⟩
      obtain ⟨hinv, hrely, K₁, hstable, hK₁, hrest⟩ := h.2 x s hs hk hready hcond
      exact ⟨hinv, hrely, K₁, hstable, hK₁, ih _ hrest⟩

variable {ε : Type} {postE : Except ε α → σ → Prop} {M : Except ε β → σ → Prop}

/-- After code that went well comes the rest; an exception is passed on. -/
theorem Outline.bindCode {c : Code ε S β} {f : β → Code ε S α} (h : T.Outline i live M c.prog K)
    (hok : ∀ b, T.Outline i live postE (f b).prog (M (.ok b)))
    (herr : ∀ e s, T.inv s → M (.error e) s → postE (.error e) s) :
    T.Outline i live postE (c >>= f).prog K := by
  rw [Code.prog_bind]
  refine h.bind fun r => ?_
  cases r with
  | ok b => exact hok b
  | error e => exact herr e

/-- An exception is handled; a result is passed on. -/
theorem Outline.tryCatch {c : Code ε S α} {f : ε → Code ε S α}
    {M : Except ε α → σ → Prop} (h : T.Outline i live M c.prog K)
    (herr : ∀ e, T.Outline i live postE (f e).prog (M (.error e)))
    (hok : ∀ a s, T.inv s → M (.ok a) s → postE (.ok a) s) :
    T.Outline i live postE (tryCatch c f : Code ε S α).prog K := by
  rw [Code.prog_tryCatch]
  refine h.bind fun r => ?_
  cases r with
  | ok a => exact hok a
  | error e => exact herr e

end

section

variable {T} {live : ι → σ → Prop} {post : ι → α → σ → Prop} {c : Config S ι σ α} {i : ι}

/-- What a program that has ended ended with. -/
theorem Outlined.post_of_ret {a : α} (h : T.Outlined live post c) (hi : c.procs i = .ret a) :
    post i a c.shared := by
  obtain ⟨K, -, hK, hout⟩ := h.2 i
  rw [hi] at hout
  exact hout c.shared h.1 hK

/-- A process before a call is live. -/
theorem Outlined.live_of_call {o : S.Op} {k : S.Ret o → Prog S α} (h : T.Outlined live post c)
    (hi : c.procs i = .call o k) : live i c.shared := by
  obtain ⟨K, -, hK, hout⟩ := h.2 i
  rw [hi] at hout
  exact hout.1 c.shared h.1 hK

variable [DecidableEq ι]

/-- A turn that meets the condition keeps the outline. -/
theorem outlined_turn {e : ι × χ} (h : T.Outlined live post c) (hm : c.Meets T.env T.cond e) :
    T.Outlined live post (c.turn T.env e) := by
  rcases Config.turn_cases hm with hsame | ⟨o, k, hi, hready, hcond, hturn⟩
  · rw [hsame]
    exact h
  · obtain ⟨K, -, hK, hout⟩ := h.2 e.1
    rw [hi] at hout
    obtain ⟨hinv, hrely, K', hstable', hK', hrest⟩ := hout.2 e.2 c.shared h.1 hK hready hcond
    rw [hturn]
    refine ⟨hinv, fun j => ?_⟩
    dsimp only
    by_cases hj : j = e.1
    · rw [hj, Function.update_self]
      exact ⟨K', hstable', hK', hrest⟩
    · -- the others keep what they know
      obtain ⟨Kj, hstable, hKj, houtj⟩ := h.2 j
      rw [Function.update_of_ne hj]
      exact ⟨Kj, hstable, hstable _ _ h.1 hinv (hrely j hj) hKj, houtj⟩

/-- A run that meets the condition keeps the outline. -/
theorem outlined_turns {es : List (ι × χ)} (h : T.Outlined live post c)
    (hm : c.MeetsRun T.env T.cond es) : T.Outlined live post (c.turns T.env es) := by
  induction es generalizing c with
  | nil => exact h
  | cons e es ih => exact ih (outlined_turn h hm.1) hm.2

end

end Terms
