import ApiToDns.Py.Str

/-!
# Py.Re

The part of Python's `re` that anchored validation patterns are written in:
character classes, bounded repetition of a class, sequence, `*`, `?`, the
look-around forms `(?=…)`, `(?!c)`, `(?<!c)` and `$` — which, as in Python,
also matches just before one final line feed.

A pattern denotes, for every position of the text, the positions where a
match from there may end (`Re.ends`); `re.match` succeeds when there is one
for the start of the text.  The `mem_ends_…` lemmas are the reasoning rules.
-/

namespace Py

/-- A position in a text: what is behind it (nearest first) and the rest. -/
structure Pos where
  behind : Str
  rest : Str
deriving DecidableEq

namespace Pos

/-- The position after the prefix `w` of the rest. -/
def advance (p : Pos) (w : Str) (rest : Str) : Pos := ⟨w.reverse ++ p.behind, rest⟩

@[simp] theorem advance_nil (p : Pos) : p.advance [] p.rest = p := rfl

/-- What is left after a word. -/
@[simp] theorem rest_advance (p : Pos) (w rest : Str) : (p.advance w rest).rest = rest := rfl

/-- What lies behind after a word. -/
@[simp] theorem behind_advance (p : Pos) (w rest : Str) :
    (p.advance w rest).behind = w.reverse ++ p.behind := rfl

end Pos

/-- A regular expression. -/
inductive Re where
  /-- one code point of a class -/
  | char (cls : Char → Bool)
  /-- `cls{lo,hi}` -/
  | run (cls : Char → Bool) (lo hi : Nat)
  | seq (a b : Re)
  | star (a : Re)
  | opt (a : Re)
  /-- `(?=a)` -/
  | ahead (a : Re)
  /-- `(?!c)` -/
  | notAhead (c : Char)
  /-- `(?<!c)` -/
  | notBehind (c : Char)
  /-- `$` -/
  | atEnd

namespace Re

/-- The end positions of a run of at most `hi` code points of the class, the
shorter runs first; those shorter than `lo` are left out. -/
def runEnds (cls : Char → Bool) (lo : Nat) : Nat → Pos → List Pos
  | 0, p => if lo = 0 then [p] else []
  | hi + 1, p =>
      (if lo = 0 then [p] else []) ++
        match p.rest with
        | [] => []
        | c :: cs => if cls c then runEnds cls (lo - 1) hi ⟨c :: p.behind, cs⟩ else []

/-- Iterations of `f`, each of which moves forward. -/
def starEnds (f : Pos → List Pos) : Nat → Pos → List Pos
  | 0, p => [p]
  | n + 1, p =>
      p :: ((f p).filter fun q => q.rest.length < p.rest.length).flatMap (starEnds f n)

/-- Where a match that starts at a position may end. -/
def ends : Re → Pos → List Pos
  | char cls, p => runEnds cls 1 1 p
  | run cls lo hi, p => runEnds cls lo hi p
  | seq a b, p => (ends a p).flatMap (ends b)
  | star a, p => starEnds (ends a) p.rest.length p
  | opt a, p => p :: ends a p
  | ahead a, p => if ends a p = [] then [] else [p]
  | notAhead c, p => if p.rest.head? = some c then [] else [p]
  | notBehind c, p => if p.behind.head? = some c then [] else [p]
  | atEnd, p => if p.rest = [] ∨ p.rest = ['\n'] then [p] else []

/-- `re.match(pattern, s)` finds a match. -/
def isMatch (r : Re) (s : Str) : Bool := !(r.ends ⟨[], s⟩).isEmpty

/-- An expression matches if there is an end for it. -/
theorem isMatch_iff (r : Re) (s : Str) : r.isMatch s = true ↔ ∃ q, q ∈ r.ends ⟨[], s⟩ := by
  rw [isMatch, Bool.not_eq_true', List.isEmpty_eq_false_iff_exists_mem]

/-! ## reasoning rules -/

/-- The ends of a bounded run of one class. -/
theorem mem_runEnds {cls : Char → Bool} {lo hi : Nat} {p q : Pos} :
    q ∈ runEnds cls lo hi p ↔
      ∃ w rest, p.rest = w ++ rest ∧ lo ≤ w.length ∧ w.length ≤ hi ∧ (∀ c ∈ w, cls c = true) ∧
        q = p.advance w rest := by
  induction hi generalizing lo p with
  | zero =>
      rw [runEnds]
      constructor
      · intro h
        split at h
        · next hlo =>
            have hq : q = p := by simpa using h
            exact ⟨[], p.rest, by simp, by simp [hlo], by simp, by simp, by simp [hq]⟩
        · simp at h
      · intro h
        obtain ⟨w, rest, hp, hlo, hhi, hcls, hq⟩ := h
        have hw : w = [] := List.length_eq_zero_iff.mp (by omega)
        subst hw
        have hlo0 : lo = 0 := by simpa using hlo
        rw [if_pos hlo0, hq, ← List.nil_append rest, ← hp]
        simp
  | succ hi ih =>
      obtain ⟨behind, rest⟩ := p
      rw [runEnds, List.mem_append]
      constructor
      · intro h
        cases h with
        | inl h =>
            split at h
            · next hlo =>
                have hq : q = ⟨behind, rest⟩ := by simpa using h
                exact ⟨[], rest, by simp, by simp [hlo], by simp, by simp, by simp [hq, Pos.advance]⟩
            · simp at h
        | inr h =>
            cases rest with
            | nil => simp at h
            | cons c cs =>
                simp only at h
                split at h
                · next hc =>
                    obtain ⟨w, rest, hcs, hlo, hhi, hcls, hq⟩ := ih.mp h
                    refine ⟨c :: w, rest, ?_, ?_, ?_, ?_, ?_⟩
                    · simpa using hcs
                    · simp only [List.length_cons]; omega
                    · simp only [List.length_cons]; omega
                    · intro d hd
                      cases List.mem_cons.mp hd with
                      | inl hd => rw [hd]; exact hc
                      | inr hd => exact hcls d hd
                    · simp [hq, Pos.advance]
                · simp at h
      · intro h
        obtain ⟨w, rest', hp, hlo, hhi, hcls, hq⟩ := h
        cases w with
        | nil =>
            left
            have hlo0 : lo = 0 := by simpa using hlo
            simp only [List.nil_append] at hp
            rw [if_pos hlo0, hq]
            simp [Pos.advance, hp]
        | cons c w =>
            right
            simp only [List.cons_append] at hp
            rw [hp]
            simp only [List.length_cons] at hlo hhi
            have hc : cls c = true := hcls c (by simp)
            simp only
            rw [if_pos hc]
            refine ih.mpr ⟨w, rest', rfl, by omega, by omega, ?_, ?_⟩
            · intro d hd; exact hcls d (by simp [hd])
            · simp [hq, Pos.advance]

attribute [local simp] ends

/-- One expression after the other. -/
theorem mem_ends_seq {a b : Re} {p q : Pos} :
    q ∈ (seq a b).ends p ↔ ∃ m, m ∈ a.ends p ∧ q ∈ b.ends m := by
  simp

/-- An expression or nothing. -/
theorem mem_ends_opt {a : Re} {p q : Pos} : q ∈ (opt a).ends p ↔ q = p ∨ q ∈ a.ends p := by
  simp

/-- A lookahead does not move. -/
theorem mem_ends_ahead {a : Re} {p q : Pos} :
    q ∈ (ahead a).ends p ↔ q = p ∧ ∃ m, m ∈ a.ends p := by
  rw [ends]
  cases h : a.ends p with
  | nil => simp
  | cons m ms =>
      simp

/-- A character that must not follow. -/
theorem mem_ends_notAhead {c : Char} {p q : Pos} :
    q ∈ (notAhead c).ends p ↔ q = p ∧ p.rest.head? ≠ some c := by
  rw [ends]
  split
  · next h => simp [h]
  · next h => simp [h]

/-- A character that must not precede. -/
theorem mem_ends_notBehind {c : Char} {p q : Pos} :
    q ∈ (notBehind c).ends p ↔ q = p ∧ p.behind.head? ≠ some c := by
  rw [ends]
  split
  · next h => simp [h]
  · next h => simp [h]

/-- The dollar sign holds before a last newline too. -/
theorem mem_ends_atEnd {p q : Pos} :
    q ∈ atEnd.ends p ↔ q = p ∧ (p.rest = [] ∨ p.rest = ['\n']) := by
  rw [ends]
  split
  · next h => simp [h]
  · next h => simp [h]

/-- One code point of a class. -/
theorem mem_ends_char {cls : Char → Bool} {p q : Pos} :
    q ∈ (char cls).ends p ↔
      ∃ c rest, p.rest = c :: rest ∧ cls c = true ∧ q = p.advance [c] rest := by
  rw [ends, mem_runEnds]
  constructor
  · intro h
    obtain ⟨w, rest, hp, hlo, hhi, hcls, hq⟩ := h
    obtain ⟨c, hw⟩ := List.length_eq_one_iff.mp (by omega : w.length = 1)
    subst hw
    exact ⟨c, rest, by simpa using hp, hcls c (by simp), hq⟩
  · intro h
    obtain ⟨c, rest, hp, hc, hq⟩ := h
    exact ⟨[c], rest, by simpa using hp, by simp, by simp, by simpa using hc, hq⟩

/-- Repetition of a pattern that spells the texts `word x`, for `x` in `ok`:
the repetition spells the concatenations of such texts. -/
theorem mem_ends_star {ι : Type} {a : Re} {word : ι → Str} {ok : ι → Prop}
    (hne : ∀ x, ok x → word x ≠ [])
    (ha : ∀ p q, q ∈ a.ends p ↔
      ∃ x rest, p.rest = word x ++ rest ∧ ok x ∧ q = p.advance (word x) rest)
    {p q : Pos} :
    q ∈ (star a).ends p ↔
      ∃ (xs : List ι) (rest : Str), p.rest = xs.flatMap word ++ rest ∧ (∀ x ∈ xs, ok x) ∧
        q = p.advance (xs.flatMap word) rest := by
  rw [ends]
  -- the fuel is the length of the rest, which every iteration shortens
  have key : ∀ n (p : Pos), p.rest.length ≤ n → (q ∈ starEnds a.ends n p ↔
      ∃ (xs : List ι) (rest : Str), p.rest = xs.flatMap word ++ rest ∧ (∀ x ∈ xs, ok x) ∧
        q = p.advance (xs.flatMap word) rest) := by
    intro n
    induction n with
    | zero =>
        intro p hn
        have hp : p.rest = [] := List.length_eq_zero_iff.mp (by omega)
        rw [starEnds, List.mem_singleton]
        constructor
        · intro hq
          exact ⟨([] : List ι), p.rest, by simp, by simp, by simp [hq]⟩
        · intro h
          obtain ⟨xs, rest, hxs, hok, hq⟩ := h
          rw [hp] at hxs
          obtain ⟨hxs, hrest⟩ := List.append_eq_nil_iff.mp hxs.symm
          rw [hq, hxs, hrest.trans hp.symm, Pos.advance_nil]
    | succ n ih =>
        intro p hn
        rw [starEnds, List.mem_cons, List.mem_flatMap]
        constructor
        · intro h
          cases h with
          | inl h => exact ⟨([] : List ι), p.rest, by simp, by simp, by simp [h]⟩
          | inr h =>
              obtain ⟨m, hm, hq⟩ := h
              rw [List.mem_filter] at hm
              obtain ⟨hm, hlt⟩ := hm
              have hlt : m.rest.length < p.rest.length := by simpa using hlt
              obtain ⟨xs, rest, hxs, hok, hq⟩ := (ih m (by omega)).mp hq
              obtain ⟨x, rest', hx, hokx, hmx⟩ := (ha p m).mp hm
              refine ⟨x :: xs, rest, ?_, ?_, ?_⟩
              · have : rest' = xs.flatMap word ++ rest := by simpa [hmx, Pos.advance] using hxs
                simp [hx, this]
              · intro y hy
                cases List.mem_cons.mp hy with
                | inl hy => rw [hy]; exact hokx
                | inr hy => exact hok y hy
              · simp [hq, hmx, Pos.advance]
        · intro h
          obtain ⟨xs, rest, hxs, hok, hq⟩ := h
          cases xs with
          | nil =>
              left
              simp only [List.flatMap_nil, List.nil_append] at hxs
              rw [hq, ← hxs]
              simp
          | cons x xs =>
              right
              have hokx : ok x := hok x (by simp)
              have hpos : 0 < (word x).length := List.length_pos_iff.mpr (hne x hokx)
              have hrest : p.rest = word x ++ (xs.flatMap word ++ rest) := by simpa using hxs
              have hlen := congrArg List.length hrest
              simp only [List.length_append] at hlen
              refine ⟨p.advance (word x) (xs.flatMap word ++ rest), ?_, ?_⟩
              · rw [List.mem_filter]
                refine ⟨(ha p _).mpr ⟨x, _, hrest, hokx, rfl⟩, ?_⟩
                simp only [Pos.advance, List.length_append, decide_eq_true_eq]
                omega
              · refine (ih _ ?_).mpr ⟨xs, rest, rfl, fun y hy => hok y (by simp [hy]), ?_⟩
                · simp only [Pos.advance, List.length_append]; omega
                · simp [hq, Pos.advance]
  exact key p.rest.length p (Nat.le_refl _)

end Re

end Py
