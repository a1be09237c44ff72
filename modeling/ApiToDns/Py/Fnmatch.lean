import ApiToDns.Py.Str

/-!
# Py.Fnmatch

`fnmatch.fnmatchcase`: shell patterns, matched against a whole text.

* `globs` — the pieces of a pattern, as `fnmatch.translate` reads them;
* `GlobMatches` — what it means that a text matches pieces;
* `globMatch_iff` — the matcher decides it;
* `hasSet` — patterns with a set of characters between brackets.
-/

namespace Py

/-! ## pieces -/

/-- A piece of a pattern. -/
inductive Glob where
  | star
  | any
  | set (negated : Bool) (ranges : List (Char × Char))
  | char (c : Char)
deriving DecidableEq, Repr

/-- A set, split at the hyphens that make ranges: a hyphen makes one when `skip`
characters stand to the left of it. -/
def setChunks : Nat → Nat → Str → List Str
  | 0, _, s => [s]
  | n + 1, skip, s =>
      match (s.drop skip).dropWhile (· ≠ '-') with
      | [] => [s]
      | _ :: rest => (s.take skip ++ (s.drop skip).takeWhile (· ≠ '-')) :: setChunks n 2 rest

/-- A hyphen at the end of the set makes no range. -/
def closeChunks : List Str → List Str
  | [] => []
  | [c, []] => [c ++ ['-']]
  | c :: cs => c :: closeChunks cs

/-- Empty ranges are removed with their ends. -/
def mergeChunks : List Str → List Str
  | [] => []
  | c :: cs =>
      match mergeChunks cs with
      | [] => [c]
      | d :: ds =>
          match c.getLast?, d.head? with
          | some x, some y => if x > y then (c.dropLast ++ d.tail) :: ds else c :: d :: ds
          | _, _ => c :: d :: ds

/-- The ranges of a set; `ranged` tells that the first character of the first
chunk ends a range.  A hyphen after an empty chunk stands for itself. -/
def chunkRanges (ranged : Bool) : List Str → List (Char × Char)
  | [] => []
  | c :: cs =>
      let c := if ranged then c.tail else c
      match c.getLast?, cs.head?.bind List.head? with
      | some x, some y => c.dropLast.map (fun c => (c, c)) ++ (x, y) :: chunkRanges true cs
      | _, _ =>
          c.map (fun c => (c, c)) ++
            (if cs = [] then [] else [('-', '-')]) ++ chunkRanges false cs

/-- What stands between the brackets of a set, read as `translate` does: the
exclamation mark is looked for when the empty ranges are gone. -/
def setOf (stuff : Str) : Glob :=
  let skip := if stuff.head? = some '!' then 2 else 1
  match mergeChunks (closeChunks (setChunks stuff.length skip stuff)) with
  | ('!' :: c) :: cs => .set true (chunkRanges false (c :: cs))
  | cs => .set false (chunkRanges false cs)

/-- How many characters at the beginning of a set do not close it. -/
def setLead (s : Str) : Nat :=
  if s.head? = some '!' then if s[1]? = some ']' then 2 else 1
  else if s.head? = some ']' then 1
  else 0

/-- The text up to the bracket that closes a set, and the text after it. -/
def closeSet (s : Str) : Option (Str × Str) :=
  match (s.drop (setLead s)).dropWhile (· ≠ ']') with
  | [] => none
  | _ :: rest => some (s.take (setLead s) ++ (s.drop (setLead s)).takeWhile (· ≠ ']'), rest)

/-- The piece of a character outside of sets. -/
def globOf (c : Char) : Glob :=
  if c = '*' then .star else if c = '?' then .any else .char c

/-- The pieces of a pattern of at most that length. -/
def globs : Nat → Str → List Glob
  | 0, _ | _, [] => []
  | n + 1, c :: s =>
      match if c = '[' then closeSet s else none with
      | some (stuff, rest) => setOf stuff :: globs n rest
      | none => globOf c :: globs n s

/-- A piece other than a star matches a character. -/
def Glob.accepts : Glob → Char → Bool
  | .star, _ => false
  | .any, _ => true
  | .set negated ranges, c => ranges.any (fun r => r.1 ≤ c && c ≤ r.2) != negated
  | .char d, c => c == d

/-- The whole text matches the pieces. -/
def globMatch : List Glob → Str → Bool
  | [], s => s.isEmpty
  | .star :: gs, s => s.tails.any (globMatch gs)
  | g :: gs, c :: s => g.accepts c && globMatch gs s
  | _ :: _, [] => false

/-- `fnmatch.fnmatchcase`. -/
def fnmatchcase (name pattern : Str) : Bool := globMatch (globs pattern.length pattern) name

example : fnmatchcase (lit "api-two") (lit "a?i-[!x]*") = true := by decide

/-! ## matching -/

/-- A text matches pieces: a star stands for any text, every other piece for one
character. -/
inductive GlobMatches : List Glob → Str → Prop where
  | nil : GlobMatches [] []
  | star (w : Str) {gs : List Glob} {s : Str} (h : GlobMatches gs s) :
      GlobMatches (.star :: gs) (w ++ s)
  | one {g : Glob} {c : Char} {gs : List Glob} {s : Str} (hc : g.accepts c = true)
      (h : GlobMatches gs s) : GlobMatches (g :: gs) (c :: s)

/-- The empty pattern matches the empty name. -/
theorem globMatches_nil_iff {s : Str} : GlobMatches [] s ↔ s = [] := by
  constructor
  · intro h
    cases h
    rfl
  · intro h
    rw [h]
    exact .nil

/-- A star matches any beginning. -/
theorem globMatches_star_iff {gs : List Glob} {s : Str} :
    GlobMatches (.star :: gs) s ↔ ∃ w rest, s = w ++ rest ∧ GlobMatches gs rest := by
  constructor
  · intro h
    cases h with
    | star w h => exact ⟨w, _, rfl, h⟩
    | one hc h => simp [Glob.accepts] at hc
  · rintro ⟨w, rest, rfl, h⟩
    exact .star w h

/-- Any other item matches one character. -/
theorem globMatches_cons_iff {g : Glob} (hg : g ≠ .star) {gs : List Glob} {s : Str} :
    GlobMatches (g :: gs) s ↔ ∃ c rest, s = c :: rest ∧ g.accepts c = true ∧ GlobMatches gs rest := by
  constructor
  · intro h
    cases h with
    | star w h => contradiction
    | one hc h => exact ⟨_, _, rfl, hc, h⟩
  · rintro ⟨c, rest, rfl, hc, h⟩
    exact .one hc h

/-- The matcher decides the relation. -/
theorem globMatch_iff (gs : List Glob) (s : Str) : globMatch gs s = true ↔ GlobMatches gs s := by
  induction gs generalizing s with
  | nil => rw [globMatches_nil_iff, globMatch, List.isEmpty_iff]
  | cons g gs ih =>
      by_cases hg : g = .star
      · subst hg
        rw [globMatches_star_iff, globMatch, List.any_eq_true]
        constructor
        · rintro ⟨rest, hmem, hrest⟩
          obtain ⟨w, hw⟩ := (List.mem_tails rest s).mp hmem
          exact ⟨w, rest, hw.symm, (ih rest).mp hrest⟩
        · rintro ⟨w, rest, rfl, h⟩
          exact ⟨rest, (List.mem_tails _ _).mpr (List.suffix_append w rest), (ih rest).mpr h⟩
      · rw [globMatches_cons_iff hg]
        cases s with
        | nil =>
            cases g <;> simp [globMatch]
            contradiction
        | cons c s =>
            have hcons : globMatch (g :: gs) (c :: s) = (g.accepts c && globMatch gs s) := by
              cases g <;> simp [globMatch]
              contradiction
            rw [hcons, Bool.and_eq_true, ih]
            simp

/-- A matched piece accepts a character of the text. -/
theorem GlobMatches.exists_accepts {gs : List Glob} {s : Str} (h : GlobMatches gs s) {g : Glob}
    (hmem : g ∈ gs) (hg : g ≠ .star) : ∃ c ∈ s, g.accepts c = true := by
  induction h with
  | nil => simp at hmem
  | star w h ih =>
      obtain ⟨c, hc, hacc⟩ := ih ((List.mem_cons.mp hmem).resolve_left hg)
      exact ⟨c, by simp [hc], hacc⟩
  | one hc h ih =>
      cases List.mem_cons.mp hmem with
      | inl heq => exact ⟨_, by simp, heq ▸ hc⟩
      | inr hmem =>
          obtain ⟨c, hc', hacc⟩ := ih hmem
          exact ⟨c, by simp [hc'], hacc⟩

/-- Pieces that accept a character each match a text of these characters. -/
theorem exists_globMatches {p : Char → Prop} {gs : List Glob}
    (h : ∀ g ∈ gs, g ≠ .star → ∃ c, p c ∧ g.accepts c = true) :
    ∃ s, GlobMatches gs s ∧ (∀ c ∈ s, p c) ∧ s.length = (gs.filter (· ≠ .star)).length := by
  induction gs with
  | nil => exact ⟨[], .nil, by simp, rfl⟩
  | cons g gs ih =>
      obtain ⟨s, hs, hp, hlen⟩ := ih fun g hg => h g (by simp [hg])
      by_cases hg : g = .star
      · subst hg
        exact ⟨s, .star [] hs, hp, by simpa using hlen⟩
      · obtain ⟨c, hc, hacc⟩ := h g (by simp) hg
        refine ⟨c :: s, .one hacc hs, ?_, by simp [hg, hlen]⟩
        intro d hd
        cases List.mem_cons.mp hd with
        | inl heq => rwa [heq]
        | inr hd => exact hp d hd

/-! ## sets -/

/-- A bracket opens a set, and another one closes it. -/
def hasSet : Str → Bool
  | [] => false
  | c :: s => (c = '[' && (closeSet s).isSome) || hasSet s

/-- A set is closed by a bracket behind its lead. -/
theorem isSome_closeSet_iff {s : Str} :
    (closeSet s).isSome = true ↔ ']' ∈ s.drop (setLead s) := by
  unfold closeSet
  split
  · next hdrop =>
      rw [List.dropWhile_eq_nil_iff] at hdrop
      have hall : ']' ∉ s.drop (setLead s) := fun hmem => by simpa using hdrop ']' hmem
      simp [hall]
  · next c rest hdrop =>
      have hhead := List.head?_dropWhile_not (· ≠ ']') (s.drop (setLead s))
      have hmem : c ∈ s.drop (setLead s) := (List.dropWhile_suffix _).subset (by rw [hdrop]; simp)
      rw [hdrop] at hhead
      have hbracket : c = ']' := by simpa using hhead
      simpa [hbracket] using hmem

/-- Only brackets open sets. -/
theorem hasSet_append_of_not_mem {w : Str} (h : '[' ∉ w) (s : Str) : hasSet (w ++ s) = hasSet s := by
  induction w with
  | nil => rfl
  | cons c w ih =>
      have hc : c ≠ '[' := fun heq => h (by simp [heq])
      rw [List.cons_append, hasSet, ih fun hmem => h (by simp [hmem])]
      simp [hc]

/-- The characters that brackets are read by. -/
def bracketChars : List Char := ['[', ']', '!']

section

variable {f : Char → Str} (hne : ∀ c, f c ≠ []) (hself : ∀ x ∈ bracketChars, f x = [x])
  (honly : ∀ c, ∀ x ∈ bracketChars, x ∈ f c → c = x)

include hself honly in

/-- A mapping that leaves brackets alone keeps them. -/
theorem mem_flatMap_iff_of_bracket {x : Char} (hx : x ∈ bracketChars) {s : Str} :
    x ∈ s.flatMap f ↔ x ∈ s := by
  rw [List.mem_flatMap]
  constructor
  · rintro ⟨c, hc, hmem⟩
    rwa [← honly c x hx hmem]
  · intro hmem
    exact ⟨x, hmem, by simp [hself x hx]⟩

include hne hself honly

/-- It keeps them at the beginning. -/
theorem head_flatMap_iff_of_bracket {x : Char} (hx : x ∈ bracketChars) {s : Str} :
    (s.flatMap f).head? = some x ↔ s.head? = some x := by
  cases s with
  | nil => simp
  | cons c s =>
      rw [List.flatMap_cons, List.head?_cons, Option.some.injEq]
      cases hc : f c with
      | nil => exact absurd hc (hne c)
      | cons d w =>
          rw [List.cons_append, List.head?_cons, Option.some.injEq]
          constructor
          · intro heq
            exact honly c x hx (by simp [hc, heq])
          · intro heq
            rw [heq, hself x hx, List.cons.injEq] at hc
            exact hc.1.symm

/-- It keeps sets closed. -/
theorem isSome_closeSet_flatMap (s : Str) :
    (closeSet (s.flatMap f)).isSome = (closeSet s).isSome := by
  have hclosing : ']' ∈ bracketChars := by decide
  have hbang : '!' ∈ bracketChars := by decide
  have hmem : ∀ s : Str, ']' ∈ s.flatMap f ↔ ']' ∈ s := fun _ =>
    mem_flatMap_iff_of_bracket hself honly hclosing
  have hhead : ∀ s : Str, (s.flatMap f).head? = some ']' ↔ s.head? = some ']' := fun _ =>
    head_flatMap_iff_of_bracket hne hself honly hclosing
  rw [Bool.eq_iff_iff, isSome_closeSet_iff, isSome_closeSet_iff]
  by_cases hfirst : s.head? = some '!'
  · -- the bracket after the exclamation mark closes nothing
    obtain ⟨rest, rfl⟩ := List.head?_eq_some_iff.mp hfirst
    rw [List.flatMap_cons, hself '!' hbang, List.singleton_append]
    have hsecond := hhead rest
    by_cases hrest : rest.head? = some ']'
    · obtain ⟨rest', rfl⟩ := List.head?_eq_some_iff.mp hrest
      rw [List.flatMap_cons, hself ']' hclosing, List.singleton_append]
      simpa [setLead] using hmem rest'
    · have hrest' : (rest.flatMap f).head? ≠ some ']' := fun h => hrest (hsecond.mp h)
      simp only [List.head?_eq_getElem?] at hrest hrest'
      simpa [setLead, hrest, hrest'] using hmem rest
  · have hfirst' : (s.flatMap f).head? ≠ some '!' := fun h =>
      hfirst ((head_flatMap_iff_of_bracket hne hself honly hbang).mp h)
    by_cases hleads : s.head? = some ']'
    · obtain ⟨rest, rfl⟩ := List.head?_eq_some_iff.mp hleads
      rw [List.flatMap_cons, hself ']' hclosing, List.singleton_append]
      simpa [setLead] using hmem rest
    · have hleads' : (s.flatMap f).head? ≠ some ']' := fun h => hleads ((hhead s).mp h)
      simpa [setLead, hfirst, hfirst', hleads, hleads'] using hmem s

/-- A substitution that keeps the characters of the syntax, and writes them for
no other one, keeps the sets. -/
theorem hasSet_flatMap (s : Str) : hasSet (s.flatMap f) = hasSet s := by
  induction s with
  | nil => rfl
  | cons c s ih =>
      have hopen : '[' ∈ bracketChars := by decide
      rw [List.flatMap_cons, hasSet]
      by_cases hc : c = '['
      · rw [hc, hself '[' hopen, List.singleton_append, hasSet, ih,
          isSome_closeSet_flatMap hne hself honly]
      · rw [hasSet_append_of_not_mem (fun hmem => hc (honly c '[' hopen hmem)), ih]
        simp [hc]

end

/-- Without sets every character is a piece. -/
theorem globs_of_not_hasSet {n : Nat} {s : Str} (hn : s.length ≤ n) (h : hasSet s = false) :
    globs n s = s.map globOf := by
  induction s generalizing n with
  | nil => cases n <;> rfl
  | cons c s ih =>
      obtain ⟨n, rfl⟩ : ∃ m, n = m + 1 := ⟨n - 1, by simp at hn; omega⟩
      simp only [hasSet, Bool.or_eq_false_iff] at h
      have hnone : (if c = '[' then closeSet s else none) = none := by
        by_cases hc : c = '['
        · simpa [hc] using h.1
        · simp [hc]
      rw [globs, hnone, ih (by simpa using hn) h.2]
      rfl

/-- The characters that stand for one character each, stars apart. -/
def unstarred (s : Str) : Nat := (s.filter (· ≠ '*')).length

/-- A star does not count. -/
@[simp] theorem unstarred_star (s : Str) : unstarred ('*' :: s) = unstarred s := by
  simp [unstarred]

/-- Every other character counts. -/
@[simp] theorem unstarred_cons {c : Char} (h : c ≠ '*') (s : Str) :
    unstarred (c :: s) = unstarred s + 1 := by
  simp [unstarred, h]

/-- The text of a set is what closes it, its bracket and the rest. -/
theorem eq_of_closeSet {s stuff rest : Str} (h : closeSet s = some (stuff, rest)) :
    s = stuff ++ ']' :: rest := by
  unfold closeSet at h
  split at h
  · contradiction
  · next c rest' hdrop =>
      obtain ⟨rfl, rfl⟩ := Prod.mk.inj (Option.some.inj h)
      have hbracket : c = ']' := by
        have hhead := List.head?_dropWhile_not (· ≠ ']') (s.drop (setLead s))
        rw [hdrop] at hhead
        simpa using hhead
      have hsplit := List.takeWhile_append_dropWhile (p := (· ≠ ']')) (l := s.drop (setLead s))
      rw [hdrop, hbracket] at hsplit
      rw [List.append_assoc, hsplit, List.take_append_drop]

/-- A set is no star. -/
theorem setOf_ne_star (stuff : Str) : setOf stuff ≠ .star := by
  unfold setOf
  simp only
  split <;> simp

/-- Only the star is one. -/
theorem globOf_eq_star_iff {c : Char} : globOf c = .star ↔ c = '*' := by
  unfold globOf
  split
  · simp [*]
  · split <;> simp [*]

/-- There are no more pieces than characters, stars apart, and fewer where a set
takes several characters. -/
theorem length_globs_le {n : Nat} {s : Str} (hn : s.length ≤ n) :
    ((globs n s).filter (· ≠ .star)).length + (if hasSet s then 1 else 0) ≤ unstarred s := by
  induction n generalizing s with
  | zero =>
      obtain rfl := List.eq_nil_of_length_eq_zero (Nat.le_zero.mp hn)
      simp [globs, hasSet, unstarred]
  | succ n ih =>
      cases s with
      | nil => simp [globs, hasSet, unstarred]
      | cons c s =>
          have hn' : s.length ≤ n := by simpa using hn
          rw [globs]
          cases hset : (if c = '[' then closeSet s else none) with
          | none =>
              have hno : (c = '[' && (closeSet s).isSome) = false := by
                by_cases hc : c = '['
                · rw [if_pos hc] at hset
                  simp [hset]
                · simp [hc]
              have hrest := ih hn'
              simp only [hasSet, hno, Bool.false_or, unstarred, List.filter_cons, decide_not]
                at hrest ⊢
              by_cases hc : c = '*' <;> simp [hc, globOf] at hrest ⊢ <;> grind
          | some found =>
              obtain ⟨stuff, rest⟩ := found
              have hc : c = '[' := by
                by_contra hc
                simp [hc] at hset
              rw [if_pos hc] at hset
              have hs := eq_of_closeSet hset
              have hrest := ih (s := rest) (by rw [hs] at hn'; simp at hn'; omega)
              have hne := setOf_ne_star stuff
              have hcount : unstarred (c :: s) = unstarred stuff + unstarred rest + 2 := by
                rw [hs, hc]
                simp [unstarred]
                omega
              rw [hcount]
              have hbound : (if hasSet (c :: s) then 1 else 0) ≤ 1 := by split <;> omega
              simp [hne] at hrest ⊢
              omega

end Py
