import Mathlib.Algebra.BigOperators.Group.List.Basic
import Mathlib.Algebra.GroupWithZero.Nat
import Mathlib.Data.List.Basic

/-!
# Lib.Quoting

Texts of code and quoted literals, read one character at a time.

A literal stands between two characters of a class `quote`, and inside it two
quotes in a row stand for the second of them.  The writer of such a text
doubles some quotes and not others: `tokens_text_iff` says when its literals
are read as they were meant.  Both directions rest on one count: reading
neither loses nor invents characters (`length_read`).
-/

/-- The characters that matter to a reader of literals. -/
structure Quoting (α : Type) where
  /-- delimits a literal -/
  quote : α → Bool
  /-- a quote right after it begins a literal -/
  opens : α → Bool
  /-- may stand right after a literal -/
  closes : α → Bool
  /-- begins something that is neither plain code nor a literal -/
  foreign : α → Bool

namespace Quoting

variable {α : Type}

/-- What a text is read as: characters of code and literals. -/
inductive Token (α : Type) where
  | code (c : α)
  | literal (v : List α)
deriving DecidableEq, Repr

/-- How far a reader is: in code, where a quote begins a literal or not;
inside a literal; or behind a quote that ends it unless another follows. -/
inductive Reading (α : Type) where
  | code (opens : Bool)
  | literal (v : List α)
  | closing (v : List α)
deriving DecidableEq, Repr

variable (Q : Quoting α)

/-! ## reading -/

/-- Read a character of code. -/
def codeStep (c : α) : Option (List (Token α) × Reading α) :=
  if Q.foreign c then none else some ([.code c], .code (Q.opens c))

/-- Read one character. -/
def step : Reading α → α → Option (List (Token α) × Reading α)
  | .code opens, c =>
      if Q.quote c then if opens then some ([], .literal []) else none else Q.codeStep c
  | .literal v, c => if Q.quote c then some ([], .closing v) else some ([], .literal (v ++ [c]))
  | .closing v, c =>
      if Q.quote c then some ([], .literal (v ++ [c]))
      else if Q.closes c then (Q.codeStep c).map fun p => (.literal v :: p.1, p.2)
      else none

/-- Read on from where a first reading stopped. -/
def andThen (x : Option (List (Token α) × Reading α))
    (f : Reading α → Option (List (Token α) × Reading α)) : Option (List (Token α) × Reading α) :=
  x.bind fun p => (f p.2).map fun q => (p.1 ++ q.1, q.2)

/-- Read a text. -/
def read (r : Reading α) : List α → Option (List (Token α) × Reading α)
  | [] => some ([], r)
  | c :: cs => andThen (Q.step r c) fun r' => read r' cs

/-- What is still due at the end of a text. -/
def finish : Reading α → Option (List (Token α))
  | .code _ => some []
  | .literal _ => none
  | .closing v => some [.literal v]

/-- The tokens of a whole reading. -/
def complete (x : Option (List (Token α) × Reading α)) : Option (List (Token α)) :=
  x.bind fun p => (finish p.2).map fun us => p.1 ++ us

/-- The tokens of a text. -/
def tokens (s : List α) : Option (List (Token α)) := complete (Q.read (.code true) s)

variable {Q}

@[simp] theorem andThen_none (f : Reading α → Option (List (Token α) × Reading α)) :
    andThen none f = none := rfl

@[simp] theorem andThen_nil (r : Reading α) (f : Reading α → Option (List (Token α) × Reading α)) :
    andThen (some ([], r)) f = f r := by
  simp [andThen]

/-- Two readings one after the other have the tokens of both. -/
theorem andThen_eq_some {x : Option (List (Token α) × Reading α)}
    {f : Reading α → Option (List (Token α) × Reading α)} {p : List (Token α) × Reading α}
    (h : andThen x f = some p) :
    ∃ q q', x = some q ∧ f q.2 = some q' ∧ p = (q.1 ++ q'.1, q'.2) := by
  obtain ⟨q, hx, h⟩ := Option.bind_eq_some_iff.mp h
  obtain ⟨q', hf, hp⟩ := Option.map_eq_some_iff.mp h
  exact ⟨q, q', hx, hf, hp.symm⟩

/-- Readings can be bracketed either way. -/
theorem andThen_assoc (x : Option (List (Token α) × Reading α))
    (f g : Reading α → Option (List (Token α) × Reading α)) :
    andThen (andThen x f) g = andThen x fun r => andThen (f r) g := by
  cases x with
  | none => rfl
  | some p =>
      cases hf : f p.2 with
      | none => simp [andThen, hf]
      | some q => cases hg : g q.2 <;> simp [andThen, hf, hg]

@[simp] theorem read_nil (r : Reading α) : Q.read r [] = some ([], r) := rfl

/-- A text is read character by character. -/
theorem read_cons (r : Reading α) (c : α) (cs : List α) :
    Q.read r (c :: cs) = andThen (Q.step r c) fun r' => Q.read r' cs := rfl

/-- A concatenation is read one part after the other. -/
theorem read_append (r : Reading α) (s t : List α) :
    Q.read r (s ++ t) = andThen (Q.read r s) fun r' => Q.read r' t := by
  induction s generalizing r with
  | nil => simp
  | cons c cs ih =>
      rw [List.cons_append, read_cons, read_cons, andThen_assoc]
      congr
      funext r'
      exact ih r'

/-- What a complete reading consists of. -/
theorem complete_eq_some {x : Option (List (Token α) × Reading α)} {ts : List (Token α)}
    (h : complete x = some ts) : ∃ p us, x = some p ∧ finish p.2 = some us ∧ ts = p.1 ++ us := by
  obtain ⟨p, hx, h⟩ := Option.bind_eq_some_iff.mp h
  obtain ⟨us, hfin, hts⟩ := Option.map_eq_some_iff.mp h
  exact ⟨p, us, hx, hfin, hts.symm⟩

/-! ## counting characters -/

variable (Q)

/-- What a token takes in the text: two quotes around a literal, two for each inside. -/
def Token.length : Token α → Nat
  | .code _ => 1
  | .literal v => v.length + v.countP Q.quote + 2

/-- What is read that no token accounts for yet. -/
def Reading.length : Reading α → Nat
  | .code _ => 0
  | .literal v => v.length + v.countP Q.quote + 1
  | .closing v => v.length + v.countP Q.quote + 2

variable {Q}

/-- A character of code is one character of a token. -/
theorem length_codeStep {c : α} {p : List (Token α) × Reading α} (h : Q.codeStep c = some p) :
    (p.1.map (Token.length Q)).sum + Reading.length Q p.2 = 1 := by
  unfold codeStep at h
  split at h
  · contradiction
  · rw [← Option.some.inj h]
    rfl

/-- A step takes up one character. -/
theorem length_step {r : Reading α} {c : α} {p : List (Token α) × Reading α}
    (h : Q.step r c = some p) :
    (p.1.map (Token.length Q)).sum + Reading.length Q p.2 = Reading.length Q r + 1 := by
  by_cases hq : Q.quote c = true
  · cases r with
    | code opens =>
        cases opens with
        | false => simp [step, hq] at h
        | true =>
            simp only [step, hq, if_true, Option.some.injEq] at h
            subst h
            simp [Reading.length]
    | literal v =>
        simp only [step, hq, if_true, Option.some.injEq] at h
        subst h
        simp [Reading.length]
    | closing v =>
        simp only [step, hq, if_true, Option.some.injEq] at h
        subst h
        simp [Reading.length, hq]
        omega
  · cases r with
    | code opens =>
        simp only [step, hq, if_false, Bool.false_eq_true] at h
        rw [length_codeStep h]
        simp [Reading.length]
    | literal v =>
        simp only [step, hq, if_false, Bool.false_eq_true, Option.some.injEq] at h
        subst h
        simp [Reading.length, hq]
        omega
    | closing v =>
        simp only [step, hq, if_false, Bool.false_eq_true] at h
        split at h
        · obtain ⟨q, hstep, hp⟩ := Option.map_eq_some_iff.mp h
          have hcode := length_codeStep hstep
          subst hp
          have hclosing : Reading.length Q (.closing v) = Token.length Q (.literal v) := rfl
          rw [List.map_cons, List.sum_cons, hclosing]
          simp only
          omega
        · contradiction

/-- Reading neither loses nor invents characters. -/
theorem length_read {r : Reading α} {s : List α} {p : List (Token α) × Reading α}
    (h : Q.read r s = some p) :
    (p.1.map (Token.length Q)).sum + Reading.length Q p.2 =
      Reading.length Q r + s.length := by
  induction s generalizing r p with
  | nil =>
      rw [read_nil] at h
      rw [← Option.some.inj h]
      simp
  | cons c cs ih =>
      obtain ⟨q, q', hstep, hread, hp⟩ := andThen_eq_some h
      have hc := length_step hstep
      have hcs := ih hread
      subst hp
      rw [List.map_append, List.sum_append, List.length_cons]
      simp only
      omega

/-! ## pieces -/

/-- A piece of a text as its writer means it: code, or a text to quote. -/
inductive Piece (α : Type) where
  | code (t : List α)
  | quoted (s : List α)
deriving DecidableEq, Repr

/-- The text between two `q`, with the characters `doubled` twice. -/
def quoteWith (q : α) (doubled : α → Bool) (s : List α) : List α :=
  q :: s.flatMap (fun c => if doubled c then [c, c] else [c]) ++ [q]

/-- The text of a list of pieces. -/
def text (q : α) (doubled : α → Bool) : List (Piece α) → List α
  | [] => []
  | .code t :: ps => t ++ text q doubled ps
  | .quoted s :: ps => quoteWith q doubled s ++ text q doubled ps

variable (Q)

/-- Read a list of pieces, taking what is quoted for one literal each; it has
to stand where a literal begins. -/
def readPieces (r : Reading α) : List (Piece α) → Option (List (Token α) × Reading α)
  | [] => some ([], r)
  | .code t :: ps => andThen (Q.read r t) fun r' => readPieces r' ps
  | .quoted s :: ps =>
      match r with
      | .code true => readPieces (.closing s) ps
      | _ => none

/-- The tokens a list of pieces is meant to be. -/
def meant (ps : List (Piece α)) : Option (List (Token α)) := complete (Q.readPieces (.code true) ps)

variable {Q}

/-- A piece of code is read, then the others. -/
theorem readPieces_code (r : Reading α) (t : List α) (ps : List (Piece α)) :
    Q.readPieces r (.code t :: ps) = andThen (Q.read r t) fun r' => Q.readPieces r' ps := rfl

/-- A quoted piece is read at the beginning of a word only. -/
theorem readPieces_quoted {r : Reading α} {s : List α} {ps : List (Piece α)}
    {p : List (Token α) × Reading α} (h : Q.readPieces r (.quoted s :: ps) = some p) :
    r = .code true ∧ Q.readPieces (.closing s) ps = some p := by
  match r with
  | .code true => exact ⟨rfl, h⟩
  | .code false | .literal _ | .closing _ => simp [readPieces] at h

/-- What is due at the end accounts for what was not accounted for. -/
theorem length_finish {r : Reading α} {us : List (Token α)} (h : finish r = some us) :
    (us.map (Token.length Q)).sum = Reading.length Q r := by
  cases r with
  | code opens =>
      rw [← Option.some.inj h]
      rfl
  | literal v => simp [finish] at h
  | closing v =>
      rw [← Option.some.inj h]
      simp [Token.length, Reading.length]

/-- The tokens are as long as the text. -/
theorem length_tokens {s : List α} {ts : List (Token α)} (h : Q.tokens s = some ts) :
    (ts.map (Token.length Q)).sum = s.length := by
  obtain ⟨p, us, hread, hfin, hts⟩ := complete_eq_some h
  have hcount := length_read hread
  have hend := length_finish (Q := Q) hfin
  have hstart : Reading.length Q (.code true : Reading α) = 0 := rfl
  rw [hts, List.map_append, List.sum_append]
  omega

variable (Q) in
/-- What a piece takes in the text if all its quotes are doubled. -/
def Piece.length : Piece α → Nat
  | .code t => t.length
  | .quoted s => s.length + s.countP Q.quote + 2

variable (Q) in
/-- The quotes of a piece that are to be quoted and are not doubled. -/
def Piece.loose (doubled : α → Bool) : Piece α → Nat
  | .code _ => 0
  | .quoted s => s.countP fun c => Q.quote c && !doubled c

/-- What is meant is as long as the pieces. -/
theorem length_readPieces {r : Reading α} {ps : List (Piece α)}
    {p : List (Token α) × Reading α} (h : Q.readPieces r ps = some p) :
    (p.1.map (Token.length Q)).sum + Reading.length Q p.2 =
      Reading.length Q r + (ps.map (Piece.length Q)).sum := by
  induction ps generalizing r p with
  | nil =>
      have hp : ([], r) = p := Option.some.inj h
      rw [← hp]
      simp
  | cons piece ps ih =>
      cases piece with
      | code t =>
          obtain ⟨q, q', hread, hrest, hp⟩ := andThen_eq_some h
          have ht := length_read hread
          have hps := ih hrest
          subst hp
          simp only [List.map_append, List.sum_append, List.map_cons, List.sum_cons, Piece.length]
          omega
      | quoted s =>
          obtain ⟨hr, h⟩ := readPieces_quoted h
          have hps := ih h
          have hclosing : Reading.length Q (.closing s) = Piece.length Q (.quoted s) := rfl
          have hstart : Reading.length Q (.code true : Reading α) = 0 := rfl
          rw [hr, List.map_cons, List.sum_cons]
          omega

/-- The tokens that are meant are as long as the pieces. -/
theorem length_meant {ps : List (Piece α)} {ts : List (Token α)} (h : Q.meant ps = some ts) :
    (ts.map (Token.length Q)).sum = (ps.map (Piece.length Q)).sum := by
  obtain ⟨p, us, hread, hfin, hts⟩ := complete_eq_some h
  have hcount := length_readPieces hread
  have hend := length_finish (Q := Q) hfin
  have hstart : Reading.length Q (.code true : Reading α) = 0 := rfl
  rw [hts, List.map_append, List.sum_append]
  omega

section

variable {doubled : α → Bool}

/-- Between its quotes a text has every quote twice, save the loose ones. -/
theorem length_quoteWith (q : α) (hd : ∀ c, doubled c = true → Q.quote c = true) (s : List α) :
    (quoteWith q doubled s).length + Piece.loose Q doubled (.quoted s) =
      Piece.length Q (.quoted s) := by
  have hinner : (s.flatMap fun c => if doubled c then [c, c] else [c]).length +
      (s.countP fun c => Q.quote c && !doubled c) = s.length + s.countP Q.quote := by
    induction s with
    | nil => rfl
    | cons c s ih =>
        rw [List.flatMap_cons, List.length_append, List.countP_cons, List.countP_cons,
          List.length_cons]
        by_cases hc : doubled c = true
        · simp only [hc, hd c hc, if_true, Bool.not_true, Bool.and_false, Bool.false_eq_true,
            if_false, List.length_cons, List.length_nil]
          omega
        · simp only [hc, if_false, Bool.false_eq_true, List.length_cons, List.length_nil,
            Bool.not_false, Bool.and_true]
          omega
  simp only [quoteWith, Piece.loose, Piece.length, List.length_append, List.length_cons,
    List.length_nil, List.cons_append]
  omega

/-- A text is shorter than its pieces by the quotes that are not doubled. -/
theorem length_text (q : α) (hd : ∀ c, doubled c = true → Q.quote c = true)
    (ps : List (Piece α)) :
    (text q doubled ps).length + (ps.map (Piece.loose Q doubled)).sum =
      (ps.map (Piece.length Q)).sum := by
  induction ps with
  | nil => rfl
  | cons piece ps ih =>
      rw [List.map_cons, List.map_cons, List.sum_cons, List.sum_cons]
      cases piece with
      | code t =>
          rw [text, List.length_append, Piece.loose, Piece.length]
          omega
      | quoted s =>
          have hs := length_quoteWith q hd s
          rw [text, List.length_append]
          omega

/-- Any text that is read as the pieces are meant has a length: that of their text, and
one more for each loose quote. -/
theorem length_of_tokens (q : α) (hd : ∀ c, doubled c = true → Q.quote c = true)
    {ps : List (Piece α)} {ts : List (Token α)} (h : Q.meant ps = some ts) {s : List α}
    (hs : Q.tokens s = some ts) :
    s.length = (text q doubled ps).length + (ps.map (Piece.loose Q doubled)).sum := by
  have hread := length_tokens hs
  have hmeant := length_meant h
  have htext := length_text q hd ps
  omega

variable {q : α}

/-- A quoted text without loose quotes is read as one literal. -/
theorem read_quoteWith (hq : Q.quote q = true) (hd : ∀ c, doubled c = true → Q.quote c = true)
    {s : List α} (hs : ∀ c ∈ s, Q.quote c = true → doubled c = true) :
    Q.read (.code true) (quoteWith q doubled s) = some ([], .closing s) := by
  have hinner (v : List α) :
      Q.read (.literal v) (s.flatMap fun c => if doubled c then [c, c] else [c]) =
        some ([], .literal (v ++ s)) := by
    induction s generalizing v with
    | nil => simp
    | cons c s ih =>
        have hrest := ih (fun d hmem => hs d (List.mem_cons_of_mem c hmem)) (v ++ [c])
        rw [List.flatMap_cons, read_append]
        by_cases hc : doubled c = true
        · simp [read_cons, step, hc, hd c hc, hrest]
        · have hnot : Q.quote c = false := by
            rw [Bool.eq_false_iff]
            exact fun h => hc (hs c (List.mem_cons_self ..) h)
          simp [read_cons, step, hc, hnot, hrest]
  have hopen : Q.step (.code true) q = some ([], .literal []) := by simp [step, hq]
  rw [quoteWith, List.cons_append, read_cons, hopen, andThen_nil, read_append, hinner, andThen_nil]
  simp [read_cons, step, hq]

/-- A text whose pieces have no loose quotes is read as its pieces. -/
theorem read_text (hq : Q.quote q = true) (hd : ∀ c, doubled c = true → Q.quote c = true)
    {r : Reading α} {ps : List (Piece α)} {p : List (Token α) × Reading α}
    (hps : ∀ s, .quoted s ∈ ps → ∀ c ∈ s, Q.quote c = true → doubled c = true)
    (h : Q.readPieces r ps = some p) : Q.read r (text q doubled ps) = some p := by
  induction ps generalizing r p with
  | nil => exact h
  | cons piece ps ih =>
      have hrest : ∀ s, .quoted s ∈ ps → ∀ c ∈ s, Q.quote c = true → doubled c = true :=
        fun s hs => hps s (List.mem_cons_of_mem _ hs)
      cases piece with
      | code t =>
          obtain ⟨p', p'', hread, hpieces, hp⟩ := andThen_eq_some h
          rw [text, read_append, hread, hp]
          simp only [andThen, Option.bind_some, ih hrest hpieces, Option.map_some]
      | quoted s =>
          obtain ⟨hr, h⟩ := readPieces_quoted h
          have hs := read_quoteWith hq hd (hps s (List.mem_cons_self ..))
          rw [hr, text, read_append, hs, andThen_nil, ih hrest h]

/-- A text is read as it was meant exactly when every quote in what it quotes
is doubled. -/
theorem tokens_text_iff (hq : Q.quote q = true) (hd : ∀ c, doubled c = true → Q.quote c = true)
    {ps : List (Piece α)} {ts : List (Token α)} (h : Q.meant ps = some ts) :
    Q.tokens (text q doubled ps) = some ts ↔
      ∀ s, .quoted s ∈ ps → ∀ c ∈ s, Q.quote c = true → doubled c = true := by
  constructor
  · intro hread s hs c hc hquote
    have hlength := length_of_tokens q hd h hread
    have hloose : (ps.map (Piece.loose Q doubled)).sum = 0 := by omega
    have hzero : Piece.loose Q doubled (.quoted s) = 0 :=
      List.sum_eq_zero_iff_forall_eq_nat.mp hloose _ (List.mem_map_of_mem hs)
    have hnone := List.countP_eq_zero.mp hzero c hc
    simpa [hquote] using hnone
  · intro hps
    obtain ⟨p, us, hread, hfin, hts⟩ := complete_eq_some h
    simp [tokens, complete, read_text hq hd hps hread, hfin, hts]

end

/-! ## templates -/

/-- A token without what its literal says. -/
def Token.blank : Token α → Token α
  | .code c => .code c
  | .literal _ => .literal []

def Reading.blank : Reading α → Reading α
  | .code opens => .code opens
  | .literal _ => .literal []
  | .closing _ => .closing []

/-- A piece without what it quotes. -/
def Piece.blank : Piece α → Piece α
  | .code t => .code t
  | .quoted _ => .quoted []

/-- What is left of a step without what literals say. -/
def outline (p : List (Token α) × Reading α) : List (Token α) × Reading α :=
  (p.1.map Token.blank, p.2.blank)

/-- What a literal says so far does not matter to the next step. -/
theorem step_blank (r : Reading α) (c : α) :
    (Q.step r.blank c).map outline = (Q.step r c).map outline := by
  cases r with
  | code opens => rfl
  | literal v =>
      simp only [Reading.blank, step]
      split <;> rfl
  | closing v =>
      simp only [Reading.blank, step]
      split
      · rfl
      · split
        · rw [Option.map_map, Option.map_map]
          rfl
        · rfl

/-- Readings that look alike step by step look alike as a whole. -/
theorem outline_andThen {x y : Option (List (Token α) × Reading α)}
    {f g : Reading α → Option (List (Token α) × Reading α)}
    (hxy : x.map outline = y.map outline)
    (hfg : ∀ r r' : Reading α, r.blank = r'.blank → (f r).map outline = (g r').map outline) :
    (andThen x f).map outline = (andThen y g).map outline := by
  cases x with
  | none =>
      rw [Option.map_eq_none_iff.mp hxy.symm]
      rfl
  | some p =>
      obtain ⟨p', hy, hp⟩ := Option.map_eq_some_iff.mp hxy.symm
      have hrest := hfg p.2 p'.2 (congrArg Prod.snd hp).symm
      have htokens : p.1.map Token.blank = p'.1.map Token.blank := (congrArg Prod.fst hp).symm
      rw [hy]
      cases hf : f p.2 with
      | none =>
          rw [hf] at hrest
          simp [andThen, hf, Option.map_eq_none_iff.mp hrest.symm]
      | some q =>
          rw [hf] at hrest
          obtain ⟨q', hg, hq⟩ := Option.map_eq_some_iff.mp hrest.symm
          simp only [andThen, Option.bind_some, hf, hg, Option.map_some, outline, List.map_append,
            htokens]
          have hts : q'.1.map Token.blank = q.1.map Token.blank := congrArg Prod.fst hq
          have hr : q'.2.blank = q.2.blank := congrArg Prod.snd hq
          rw [hts, hr]

/-- Readings that look alike still do after a character. -/
theorem step_alike {r r' : Reading α} (h : r.blank = r'.blank) (c : α) :
    (Q.step r c).map outline = (Q.step r' c).map outline := by
  rw [← step_blank r, ← step_blank r', h]

/-- Readings that differ only in what literals say go on alike. -/
theorem read_alike {r r' : Reading α} (h : r.blank = r'.blank) (s : List α) :
    (Q.read r s).map outline = (Q.read r' s).map outline := by
  induction s generalizing r r' with
  | nil => simp [outline, h]
  | cons c cs ih => exact outline_andThen (step_alike h c) fun _ _ h => ih h

/-- Pieces that differ only in what they quote are read alike. -/
theorem readPieces_alike {r r' : Reading α} (hr : r.blank = r'.blank) {ps ps' : List (Piece α)}
    (hps : ps.map Piece.blank = ps'.map Piece.blank) :
    (Q.readPieces r ps).map outline = (Q.readPieces r' ps').map outline := by
  induction ps generalizing r r' ps' with
  | nil =>
      rw [List.map_nil, eq_comm, List.map_eq_nil_iff] at hps
      simp [hps, readPieces, outline, hr]
  | cons p ps ih =>
      cases ps' with
      | nil => simp at hps
      | cons p' ps' =>
          rw [List.map_cons, List.map_cons, List.cons.injEq] at hps
          obtain ⟨hp, hps⟩ := hps
          cases p with
          | code t =>
              cases p' with
              | code t' =>
                  have ht : t = t' := Piece.code.inj hp
                  rw [ht]
                  exact outline_andThen (read_alike hr t') fun _ _ h => ih h hps
              | quoted s' => contradiction
          | quoted s =>
              cases p' with
              | code t' => contradiction
              | quoted s' =>
                  cases r with
                  | code opens =>
                      cases r' with
                      | code opens' =>
                          have hopens : opens = opens' := Reading.code.inj hr
                          subst hopens
                          cases opens with
                          | false => rfl
                          | true =>
                              have hclosing : (Reading.closing s).blank =
                                  (Reading.closing s').blank := rfl
                              exact ih hclosing hps
                      | literal v' => contradiction
                      | closing v' => contradiction
                  | literal v => cases r' <;> first | contradiction | rfl
                  | closing v => cases r' <;> first | contradiction | rfl

/-- Readings that look alike end with tokens that look alike. -/
theorem complete_alike {x y : Option (List (Token α) × Reading α)}
    (h : x.map outline = y.map outline) :
    (complete x).map (List.map Token.blank) = (complete y).map (List.map Token.blank) := by
  cases x with
  | none => rw [Option.map_eq_none_iff.mp h.symm]
  | some p =>
      obtain ⟨p', hy, hp⟩ := Option.map_eq_some_iff.mp h.symm
      have hts : p'.1.map Token.blank = p.1.map Token.blank := congrArg Prod.fst hp
      have hr : p'.2.blank = p.2.blank := congrArg Prod.snd hp
      have hfinish (r : Reading α) :
          (finish r).map (List.map Token.blank) = finish r.blank := by
        cases r <;> rfl
      have hsame := (hfinish p.2).trans ((congrArg finish hr).symm.trans (hfinish p'.2).symm)
      rw [hy]
      cases hfin : finish p.2 with
      | none =>
          rw [hfin] at hsame
          simp [complete, hfin, Option.map_eq_none_iff.mp hsame.symm]
      | some us =>
          rw [hfin] at hsame
          obtain ⟨us', hfin', hus⟩ := Option.map_eq_some_iff.mp hsame.symm
          simp [complete, hfin, hfin', hts, hus]

/-- Pieces that differ only in what they quote are meant to be tokens that
differ only in what their literals say. -/
theorem meant_alike {ps ps' : List (Piece α)} (h : ps.map Piece.blank = ps'.map Piece.blank) :
    (Q.meant ps).map (List.map Token.blank) = (Q.meant ps').map (List.map Token.blank) :=
  complete_alike (readPieces_alike rfl h)

/-! ## lines -/

variable (Q)

/-- The state behind a character of code. -/
def codeNext (c : α) : Option (Reading α) :=
  if Q.foreign c then none else some (.code (Q.opens c))

/-- The state behind a character, without what literals say. -/
def next : Reading α → α → Option (Reading α)
  | .code opens, c =>
      if Q.quote c then if opens then some (.literal []) else none else Q.codeNext c
  | .literal _, c => if Q.quote c then some (.closing []) else some (.literal [])
  | .closing _, c =>
      if Q.quote c then some (.literal []) else if Q.closes c then Q.codeNext c else none

/-- The state behind a text. -/
def follow (r : Reading α) : List α → Option (Reading α)
  | [] => some r
  | c :: cs =>
      match Q.next r c with
      | some r' => follow r' cs
      | none => none

/-- The state behind a list of pieces. -/
def followPieces (r : Reading α) : List (Piece α) → Option (Reading α)
  | [] => some r
  | .code t :: ps =>
      match Q.follow r t with
      | some r' => followPieces r' ps
      | none => none
  | .quoted _ :: ps =>
      match r with
      | .code true => followPieces (.closing []) ps
      | _ => none

/-- The pieces lead from one state to the other, up to what literals say. -/
def Leads (r : Reading α) (ps : List (Piece α)) (r' : Reading α) : Prop :=
  Q.followPieces r ps = some r'

instance [DecidableEq α] (r : Reading α) (ps : List (Piece α)) (r' : Reading α) :
    Decidable (Q.Leads r ps r') :=
  inferInstanceAs (Decidable (_ = _))

/-- A line of a text, after which `sep` begins the next. -/
def Tidy (sep : α) (line : List (Piece α)) : Prop :=
  Q.Leads (.code true) (line ++ [.code [sep]]) (.code true)

instance [DecidableEq α] (sep : α) (line : List (Piece α)) : Decidable (Q.Tidy sep line) :=
  inferInstanceAs (Decidable (Q.Leads _ _ _))

variable {Q}

/-- The next reading does not depend on what is quoted. -/
theorem next_blank (r : Reading α) (c : α) :
    Q.next r.blank c = (Q.step r c).map fun p => p.2.blank := by
  have hcode : Q.codeNext c = (Q.codeStep c).map fun p => p.2.blank := by
    unfold codeNext codeStep
    split <;> rfl
  cases r with
  | code opens =>
      simp only [Reading.blank, next, step, hcode]
      split
      · split <;> rfl
      · rfl
  | literal v =>
      simp only [Reading.blank, next, step]
      split <;> rfl
  | closing v =>
      simp only [Reading.blank, next, step, hcode]
      split
      · rfl
      · split
        · rw [Option.map_map]
          rfl
        · rfl

/-- The state behind a text is the one its reading ends in. -/
theorem follow_blank (r : Reading α) (s : List α) :
    Q.follow r.blank s = (Q.read r s).map fun p => p.2.blank := by
  induction s generalizing r with
  | nil => rfl
  | cons c cs ih =>
      rw [follow, next_blank, read_cons]
      cases Q.step r c with
      | none => rfl
      | some p => simp [andThen, ih, Function.comp_def]

/-- Nor do the readings that follow. -/
theorem followPieces_blank (r : Reading α) (ps : List (Piece α)) :
    Q.followPieces r.blank ps = (Q.readPieces r ps).map fun p => p.2.blank := by
  induction ps generalizing r with
  | nil => rfl
  | cons p ps ih =>
      cases p with
      | code t =>
          rw [followPieces, follow_blank, readPieces_code]
          cases Q.read r t with
          | none => rfl
          | some p => simp [andThen, ih, Function.comp_def]
      | quoted s =>
          match r with
          | .code true => exact ih (.closing s)
          | .code false | .literal _ | .closing _ => rfl

/-- Pieces are followed one part after the other. -/
theorem followPieces_append (r : Reading α) (ps qs : List (Piece α)) :
    Q.followPieces r (ps ++ qs) = (Q.followPieces r ps).bind fun r' => Q.followPieces r' qs := by
  induction ps generalizing r with
  | nil => rfl
  | cons p ps ih =>
      cases p with
      | code t =>
          simp only [List.cons_append, followPieces]
          cases Q.follow r t with
          | none => rfl
          | some r' => exact ih r'
      | quoted s =>
          match r with
          | .code true => exact ih (.closing [])
          | .code false | .literal _ | .closing _ => rfl

/-- Pieces that lead on from each other. -/
theorem Leads.append {r r' r'' : Reading α} {ps qs : List (Piece α)} (hps : Q.Leads r ps r')
    (hqs : Q.Leads r' qs r'') : Q.Leads r (ps ++ qs) r'' := by
  unfold Leads at *
  rw [followPieces_append, hps, Option.bind_some, hqs]

/-- What is quoted does not matter to what follows. -/
theorem followPieces_map_blank (r : Reading α) (ps : List (Piece α)) :
    Q.followPieces r (ps.map Piece.blank) = Q.followPieces r ps := by
  induction ps generalizing r with
  | nil => rfl
  | cons p ps ih =>
      cases p with
      | code t =>
          simp only [List.map_cons, Piece.blank, followPieces]
          cases Q.follow r t with
          | none => rfl
          | some r' => exact ih r'
      | quoted s =>
          match r with
          | .code true => exact ih (.closing [])
          | .code false | .literal _ | .closing _ => rfl

/-- What is quoted does not matter to where reading leads. -/
theorem Leads.alike {r r' : Reading α} {ps ps' : List (Piece α)} (h : Q.Leads r ps r')
    (hps : ps.map Piece.blank = ps'.map Piece.blank) : Q.Leads r ps' r' := by
  rw [Leads, ← followPieces_map_blank, ← hps, followPieces_map_blank]
  exact h

/-- Characters of plain code lead to code in which no literal begins. -/
theorem leads_word {opens : Bool} {t : List α} (hne : t ≠ [])
    (ht : ∀ c ∈ t, Q.quote c = false ∧ Q.foreign c = false ∧ Q.opens c = false) :
    Q.Leads (.code opens) [.code t] (.code false) := by
  have hnext (b : Bool) {c : α} (hc : c ∈ t) : Q.next (.code b) c = some (.code false) := by
    obtain ⟨hquote, hforeign, hopens⟩ := ht c hc
    simp [next, codeNext, hquote, hforeign, hopens]
  have hfollow (s : List α) (hs : ∀ c ∈ s, c ∈ t) :
      Q.follow (.code false) s = some (.code false) := by
    induction s with
    | nil => rfl
    | cons c s ih =>
        rw [follow, hnext false (hs c (List.mem_cons_self ..))]
        exact ih fun d hd => hs d (List.mem_cons_of_mem c hd)
  cases t with
  | nil => contradiction
  | cons c s =>
      have hrest := hfollow s fun d hd => List.mem_cons_of_mem c hd
      simp [Leads, followPieces, follow, hnext opens (List.mem_cons_self ..), hrest]

/-- What is quoted does not matter to whether a line is tidy. -/
theorem Tidy.alike {sep : α} {line line' : List (Piece α)} (h : Q.Tidy sep line)
    (hline : line.map Piece.blank = line'.map Piece.blank) : Q.Tidy sep line' := by
  refine Leads.alike h ?_
  rw [List.map_append, List.map_append, hline]

/-- A tidy line leaves no literal open. -/
theorem meant_of_tidy {sep : α} {line : List (Piece α)} (h : Q.Tidy sep line) :
    ∃ ts, Q.meant line = some ts := by
  unfold Tidy Leads at h
  rw [followPieces_append] at h
  obtain ⟨r, hline, hsep⟩ := Option.bind_eq_some_iff.mp h
  have hread := followPieces_blank (Q := Q) (.code true) line
  rw [Reading.blank, hline] at hread
  obtain ⟨p, hread, hr⟩ := Option.map_eq_some_iff.mp hread.symm
  cases hp : p.2 with
  | code opens => exact ⟨p.1 ++ [], by simp [meant, hread, complete, hp, finish]⟩
  | literal v =>
      rw [← hr, hp] at hsep
      by_cases hquote : Q.quote sep = true
      · simp [Reading.blank, followPieces, follow, next, hquote] at hsep
      · simp [Reading.blank, followPieces, follow, next, hquote] at hsep
  | closing v => exact ⟨p.1 ++ [.literal v], by simp [meant, hread, complete, hp, finish]⟩

/-- Tidy lines make a tidy text. -/
theorem Tidy.intercalate {sep : α} {lines : List (List (Piece α))} (hne : lines ≠ [])
    (h : ∀ line ∈ lines, Q.Tidy sep line) : Q.Tidy sep ([.code [sep]].intercalate lines) := by
  induction lines with
  | nil => contradiction
  | cons line lines ih =>
      have hline := h line (List.mem_cons_self ..)
      cases lines with
      | nil =>
          rw [List.intercalate_singleton]
          exact hline
      | cons next lines =>
          have hrest := ih (by simp) fun l hl => h l (List.mem_cons_of_mem _ hl)
          rw [List.intercalate_cons_cons, Tidy, List.append_assoc]
          exact hline.append hrest

end Quoting
