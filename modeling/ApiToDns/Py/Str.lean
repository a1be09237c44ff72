import Mathlib.Algebra.GroupWithZero.Nat
import Mathlib.Data.Char
import Mathlib.Data.List.DropRight
import Mathlib.Data.List.Infix
import Mathlib.Data.List.Lex
import Mathlib.Tactic.SplitIfs

/-!
# Py.Str

Python `str` as a list of code points, with the built-in methods that text
handling code leans on: `strip` / `rstrip`, `lower` / `upper`, `split`,
`endswith`, slicing from the right, `repr` and `int`.

White space is Python's own fixed table (`isSpace`).  Everything that
depends on the Unicode character database (case mappings, decimal digits,
printability) is read from a `Ucd`, whose fields pin down the ASCII rows and
leave the others open: what is proved of every `Ucd` holds for every version
of the database.
-/

namespace Py

/-- A Python string: its code points. -/
abbrev Str := List Char

/-- A literal. -/
def lit (s : String) : Str := s.toList

theorem lit_ofList (s : Str) : lit (String.ofList s) = s := String.toList_ofList

/-- What is computed of every character of a text holds of all of them. -/
theorem forall_mem_of_all {p : Char → Prop} [DecidablePred p] {s : Str}
    (h : s.all (fun c => p c) = true) : ∀ c ∈ s, p c := by
  simpa using h

instance lawfulBEqStr : LawfulBEq Str := inferInstance

/-- The characters of a text are looked at, and not all there are. -/
instance (priority := 2000) decidableForallMem (p : Char → Prop) [DecidablePred p] (s : Str) :
    Decidable (∀ c ∈ s, p c) :=
  decidable_of_iff (s.all (fun c => p c) = true) ⟨forall_mem_of_all, by simp⟩

instance (priority := 2000) decidableForallMemOption (p : Char → Prop) [DecidablePred p]
    (o : Option Char) : Decidable (∀ c ∈ o, p c) :=
  decidable_of_iff (∀ c ∈ o.toList, p c) (by simp)

/-! ## white space and stripping -/

/-- `str.isspace` of one code point. -/
def isSpace (c : Char) : Bool :=
  let n := c.toNat
  (9 ≤ n && n ≤ 13) || (28 ≤ n && n ≤ 32) || n == 0x85 || n == 0xA0 || n == 0x1680 ||
    (0x2000 ≤ n && n ≤ 0x200A) || n == 0x2028 || n == 0x2029 || n == 0x202F || n == 0x205F ||
    n == 0x3000

/-- `s.strip()`. -/
def strip (s : Str) : Str := (s.dropWhile isSpace).rdropWhile isSpace

/-- `s.rstrip(".")`. -/
def rstripDots (s : Str) : Str := s.rdropWhile (· == '.')

/-- What starts and ends outside a predicate is left alone when both ends are
trimmed. -/
theorem trim_eq_self {p : α → Bool} {s : List α} (hhead : ∀ c ∈ s.head?, p c = false)
    (hlast : ∀ c ∈ s.getLast?, p c = false) : (s.dropWhile p).rdropWhile p = s := by
  have hdrop : s.dropWhile p = s := by
    cases s with
    | nil => rfl
    | cons c cs =>
        have hc : p c = false := hhead c (by simp)
        simp [hc]
  rw [hdrop, List.rdropWhile_eq_self_iff]
  intro hne
  have := hlast (s.getLast hne) (List.getLast?_eq_getLast_of_ne_nil hne ▸ by simp)
  simp [this]

/-- Both ends are trimmed once. -/
theorem trim_trim (p : α → Bool) (s : List α) :
    (((s.dropWhile p).rdropWhile p).dropWhile p).rdropWhile p = (s.dropWhile p).rdropWhile p := by
  refine trim_eq_self (fun c hc => ?_) (fun c hc => ?_)
  · obtain ⟨rest, hrest⟩ : (s.dropWhile p).rdropWhile p <+: s.dropWhile p :=
      List.rdropWhile_prefix _ _
    have hfirst := List.head?_dropWhile_not p s
    rw [← hrest, List.head?_append, Option.mem_def.mp hc] at hfirst
    exact hfirst
  · by_cases hne : (s.dropWhile p).rdropWhile p = []
    · simp [hne] at hc
    · have hlast := List.rdropWhile_last_not p (s.dropWhile p) hne
      rw [List.getLast?_eq_getLast_of_ne_nil hne, Option.mem_some_iff] at hc
      rw [← hc]
      simpa using hlast

/-- A text whose first and last code points are no white space is stripped. -/
theorem strip_eq_self {s : Str} (hhead : ∀ c ∈ s.head?, isSpace c = false)
    (hlast : ∀ c ∈ s.getLast?, isSpace c = false) : strip s = s :=
  trim_eq_self hhead hlast

/-- A text without whitespace is left alone. -/
theorem strip_of_no_space {s : Str} (h : ∀ c ∈ s, isSpace c = false) : strip s = s :=
  strip_eq_self (fun c hc => h c (List.mem_of_mem_head? hc)) fun c hc =>
    h c (List.mem_of_mem_getLast? hc)

/-- Nothing is left of whitespace. -/
theorem strip_eq_nil {s : Str} (h : ∀ c ∈ s, isSpace c = true) : strip s = [] := by
  have hdrop : s.dropWhile isSpace = [] := List.dropWhile_eq_nil_iff.mpr h
  rw [strip, hdrop, List.rdropWhile_nil]

/-- Only of whitespace nothing is left. -/
theorem strip_eq_nil_iff {s : Str} : strip s = [] ↔ ∀ c ∈ s, isSpace c = true := by
  refine ⟨fun h => ?_, strip_eq_nil⟩
  have hblank : ∀ c ∈ s.dropWhile isSpace, isSpace c = true := List.rdropWhile_eq_nil_iff.mp h
  have hdrop : s.dropWhile isSpace = [] := by
    by_contra hne
    have hhead := List.head_dropWhile_not isSpace hne
    rw [hblank _ (List.head_mem hne)] at hhead
    contradiction
  exact List.dropWhile_eq_nil_iff.mp hdrop

/-- Stripping twice is stripping once. -/
theorem strip_strip (s : Str) : strip (strip s) = strip s := trim_trim isSpace s

/-- A text that does not end in a dot keeps its end. -/
theorem rstripDots_eq_self {s : Str} (hlast : ∀ c ∈ s.getLast?, c ≠ '.') : rstripDots s = s := by
  rw [rstripDots, List.rdropWhile_eq_self_iff]
  intro hne
  have := hlast (s.getLast hne) (List.getLast?_eq_getLast_of_ne_nil hne ▸ by simp)
  simpa using this

/-- What is left after `rstrip(".")` never ends in a dot. -/
theorem getLast_rstripDots {s : Str} : ∀ c ∈ (rstripDots s).getLast?, c ≠ '.' := by
  intro c hc
  by_cases hne : rstripDots s = []
  · simp [hne] at hc
  · have hlast := List.rdropWhile_last_not (· == '.') s hne
    rw [List.getLast?_eq_getLast_of_ne_nil hne, Option.mem_some_iff] at hc
    rw [← hc]
    simpa [rstripDots] using hlast

/-- So is stripping dots. -/
@[simp] theorem rstripDots_rstripDots (s : Str) : rstripDots (rstripDots s) = rstripDots s :=
  rstripDots_eq_self getLast_rstripDots

/-! ## suffixes -/

/-- `s.endswith(t)`. -/
def endsWith (s t : Str) : Bool := t.isSuffixOf s

/-- `s.startswith(t)`. -/
def startsWith (s t : Str) : Bool := t.isPrefixOf s

/-- `t in s`. -/
def contains (s t : Str) : Bool := s.tails.any fun rest => t.isPrefixOf rest

/-- `s.endswith(t)`. -/
@[simp] theorem endsWith_iff (s t : Str) : endsWith s t = true ↔ t <:+ s := by
  simp [endsWith]

/-- `s.startswith(t)`. -/
@[simp] theorem startsWith_iff (s t : Str) : startsWith s t = true ↔ t <+: s := by
  simp [startsWith]

/-- `s[:-n]` for `n > 0`: the text without its last `n` code points. -/
def dropEnd (s : Str) (n : Nat) : Str := s.rdrop n

/-- A suffix is dropped. -/
@[simp] theorem dropEnd_append (s t : Str) : dropEnd (s ++ t) t.length = s := by
  simp [dropEnd, List.rdrop]

/-- A suffix of a known length is dropped. -/
theorem dropEnd_append_of_length {s t : Str} {n : Nat} (h : t.length = n) :
    dropEnd (s ++ t) n = s := by
  subst h; simp

/-- What is left when characters are dropped. -/
theorem length_dropEnd (s : Str) (n : Nat) : (dropEnd s n).length = s.length - n := by
  simp [dropEnd, List.rdrop]

/-! ## the character database -/

/-- An ASCII code point. -/
def isAscii (c : Char) : Bool := c.toNat < 128

/-- The ASCII code points of the `Case_Ignorable` property. -/
def asciiCaseIgnorable : Str := ['\'', '.', ':', '^', '\x60']

/-- What `str` methods read of the Unicode character database.  The laws fix
the ASCII rows; the other rows are free, save that no code point lower-cases
to the empty text. -/
structure Ucd where
  lowerChar : Char → Str
  upperChar : Char → Str
  cased : Char → Bool
  caseIgnorable : Char → Bool
  decimal : Char → Option Nat
  printable : Char → Bool
  lowerChar_ascii : ∀ c, isAscii c = true → lowerChar c = [c.toLower]
  upperChar_ascii : ∀ c, isAscii c = true → upperChar c = [c.toUpper]
  cased_ascii : ∀ c, isAscii c = true → cased c = c.isAlpha
  caseIgnorable_ascii : ∀ c, isAscii c = true → caseIgnorable c = asciiCaseIgnorable.contains c
  decimal_ascii : ∀ c, isAscii c = true →
    decimal c = if c.isDigit then some (c.toNat - 48) else none
  lowerChar_ne_nil : ∀ c, lowerChar c ≠ []

namespace Ucd

/-- The database that knows ASCII only. -/
def ascii : Ucd where
  lowerChar c := [c.toLower]
  upperChar c := [c.toUpper]
  cased c := c.isAlpha
  caseIgnorable c := asciiCaseIgnorable.contains c
  decimal c := if c.isDigit then some (c.toNat - 48) else none
  printable c := isAscii c
  lowerChar_ascii _ _ := rfl
  upperChar_ascii _ _ := rfl
  cased_ascii _ _ := rfl
  caseIgnorable_ascii _ _ := rfl
  decimal_ascii _ _ := rfl
  lowerChar_ne_nil _ := by simp

variable (U : Ucd)

/-! ## case -/

/-- The `Final_Sigma` condition: the nearest code point that is not
case-ignorable is cased on the left (`before`, nearest first), and is not on
the right (`rest`). -/
def finalSigma (before rest : Str) : Bool :=
  (before.find? fun c => !U.caseIgnorable c).any U.cased &&
    !(rest.find? fun c => !U.caseIgnorable c).any U.cased

/-- Lower-case one code point in its context. -/
def lowerAt (before : Str) (c : Char) (rest : Str) : Str :=
  if c = 'Σ' then [if U.finalSigma before rest then 'ς' else 'σ'] else U.lowerChar c

/-- `lower` after the code points `before` (nearest first). -/
def lowerFrom (before : Str) : Str → Str
  | [] => []
  | c :: rest => U.lowerAt before c rest ++ lowerFrom (c :: before) rest

/-- `s.lower()`. -/
def lower (s : Str) : Str := U.lowerFrom [] s

/-- `s.upper()`. -/
def upper (s : Str) : Str := s.flatMap U.upperChar

@[simp] theorem lower_nil : U.lower [] = [] := rfl

/-- No character vanishes. -/
theorem lowerAt_ne_nil (before : Str) (c : Char) (rest : Str) : U.lowerAt before c rest ≠ [] := by
  unfold lowerAt
  split_ifs <;> simp [U.lowerChar_ne_nil]

/-- Lower-casing never shortens a text. -/
theorem length_le_length_lowerFrom (before s : Str) : s.length ≤ (U.lowerFrom before s).length := by
  induction s generalizing before with
  | nil => simp
  | cons c rest ih =>
      have hc := List.length_pos_iff.mpr (U.lowerAt_ne_nil before c rest)
      have hrest := ih (c :: before)
      simp only [lowerFrom, List.length_append, List.length_cons]
      omega

/-- A text in lower case is no shorter. -/
theorem length_le_length_lower (s : Str) : s.length ≤ (U.lower s).length :=
  U.length_le_length_lowerFrom [] s

/-- How long a lower-cased code point is does not depend on its context. -/
theorem length_lowerAt (before before' : Str) (c : Char) (rest rest' : Str) :
    (U.lowerAt before c rest).length = (U.lowerAt before' c rest').length := by
  unfold lowerAt
  split_ifs <;> rfl

/-- The length in lower case does not depend on what is before. -/
theorem length_lowerFrom (before before' s : Str) :
    (U.lowerFrom before s).length = (U.lowerFrom before' s).length := by
  induction s generalizing before before' with
  | nil => rfl
  | cons c rest ih =>
      rw [lowerFrom, lowerFrom, List.length_append, List.length_append,
        U.length_lowerAt before before' c rest rest, ih (c :: before) (c :: before')]

/-- The lengths of two parts in lower case add up. -/
theorem length_lowerFrom_append (before s t : Str) :
    (U.lowerFrom before (s ++ t)).length =
      (U.lowerFrom before s).length + (U.lower t).length := by
  induction s generalizing before with
  | nil => simpa [lowerFrom, lower] using U.length_lowerFrom before [] t
  | cons c rest ih =>
      rw [List.cons_append, lowerFrom, lowerFrom, List.length_append, List.length_append, ih,
        U.length_lowerAt before before c (rest ++ t) rest]
      omega

/-- The lengths of lower-cased parts add up. -/
theorem length_lower_append (s t : Str) :
    (U.lower (s ++ t)).length = (U.lower s).length + (U.lower t).length :=
  U.length_lowerFrom_append [] s t

/-- Only the empty text is empty in lower case. -/
@[simp] theorem lower_eq_nil (s : Str) : U.lower s = [] ↔ s = [] := by
  constructor
  · intro h
    have := U.length_le_length_lower s
    rw [h, List.length_nil] at this
    exact List.length_eq_zero_iff.mp (by omega)
  · rintro rfl; rfl

end Ucd

/-! ## equality up to ASCII case -/

/-- The text with its ASCII letters lower-cased, everything else as it is. -/
def foldAscii (s : Str) : Str := s.map Char.toLower

/-- Equal up to ASCII case. -/
def EqAsciiCase (s t : Str) : Prop := foldAscii s = foldAscii t

instance (s t : Str) : Decidable (EqAsciiCase s t) :=
  inferInstanceAs (Decidable (foldAscii s = foldAscii t))

/-- A text has its own letters. -/
theorem EqAsciiCase.refl (s : Str) : EqAsciiCase s s := rfl

/-- The case of either text does not matter. -/
theorem EqAsciiCase.symm {s t : Str} (h : EqAsciiCase s t) : EqAsciiCase t s := Eq.symm h

/-- Texts that differ in case only are as long. -/
theorem EqAsciiCase.length_eq {s t : Str} (h : EqAsciiCase s t) : s.length = t.length := by
  have := congrArg List.length h
  simpa [foldAscii] using this

/-- Texts that differ in case only, one after the other. -/
theorem EqAsciiCase.append {s t u v : Str} (h : EqAsciiCase s t) (h' : EqAsciiCase u v) :
    EqAsciiCase (s ++ u) (t ++ v) := by
  unfold EqAsciiCase foldAscii at *
  rw [List.map_append, List.map_append, h, h']

/-- Texts that differ in case only, character by character. -/
theorem EqAsciiCase.cons_iff {c d : Char} {s t : Str} :
    EqAsciiCase (c :: s) (d :: t) ↔ c.toLower = d.toLower ∧ EqAsciiCase s t := by
  simp [EqAsciiCase, foldAscii]

/-- ASCII capitals are 32 below their small letters. -/
theorem toNat_toLower (c : Char) :
    c.toLower.toNat = if 65 ≤ c.toNat ∧ c.toNat ≤ 90 then c.toNat + 32 else c.toNat := by
  unfold Char.toLower
  have hA : ('A' : Char).val.toNat = 65 := rfl
  have hZ : ('Z' : Char).val.toNat = 90 := rfl
  have hc : c.toNat = c.val.toNat := rfl
  split
  · next h =>
      have h1 : 65 ≤ c.val.toNat := by
        have := UInt32.le_iff_toNat_le.mp h.1
        omega
      have h2 : c.val.toNat ≤ 90 := by
        have := UInt32.le_iff_toNat_le.mp h.2
        omega
      rw [if_pos ⟨by omega, by omega⟩]
      change (c.val + ('a'.val - 'A'.val)).toNat = _
      rw [UInt32.toNat_add]
      have : ('a'.val - 'A'.val).toNat = 32 := rfl
      omega
  · next h =>
      rw [if_neg]
      rintro ⟨h1, h2⟩
      exact h ⟨UInt32.le_iff_toNat_le.mpr (by omega), UInt32.le_iff_toNat_le.mpr (by omega)⟩

/-- The ASCII letters. -/
theorem isAlpha_iff (c : Char) :
    c.isAlpha = true ↔ (65 ≤ c.toNat ∧ c.toNat ≤ 90) ∨ (97 ≤ c.toNat ∧ c.toNat ≤ 122) := by
  have halpha : c.isAlpha = (decide (c.val ≥ 'A'.val ∧ c.val ≤ 'Z'.val) ||
      (decide (c.val ≥ 'a'.val) && decide (c.val ≤ 'z'.val))) := rfl
  simp [halpha, UInt32.le_iff_toNat_le, ← Char.toNat_val]

/-- Two code points that agree up to ASCII case are the same one, or two
ASCII letters. -/
theorem eq_or_isAlpha_of_toLower_eq {c d : Char} (h : c.toLower = d.toLower) :
    c = d ∨ (isAscii c = true ∧ isAscii d = true ∧ c.isAlpha = true ∧ d.isAlpha = true) := by
  have hn : c.toLower.toNat = d.toLower.toNat := by rw [h]
  rw [toNat_toLower, toNat_toLower] at hn
  by_cases hcd : c.toNat = d.toNat
  · exact .inl (Char.toNat_inj.mp hcd)
  · right
    rw [isAlpha_iff, isAlpha_iff]
    unfold isAscii
    split_ifs at hn <;> simp <;> omega

/-- A small letter is one already. -/
theorem toLower_idem (c : Char) : c.toLower.toLower = c.toLower := by
  apply Char.toNat_inj.mp
  rw [toNat_toLower c.toLower, toNat_toLower c]
  split_ifs <;> omega

/-- Folding twice is folding once. -/
theorem foldAscii_idem (s : Str) : foldAscii (foldAscii s) = foldAscii s := by
  unfold foldAscii
  rw [List.map_map]
  exact List.map_congr_left fun c _ => toLower_idem c

/-- A code point that is no ASCII letter is only equal to itself up to case. -/
theorem toLower_eq_iff_of_not_isAlpha {c d : Char} (hd : d.isAlpha = false) :
    c.toLower = d.toLower ↔ c = d := by
  constructor
  · intro h
    rcases eq_or_isAlpha_of_toLower_eq h with h | ⟨-, -, -, h⟩
    · exact h
    · rw [hd] at h; contradiction
  · rintro rfl; rfl

namespace Ucd

variable (U : Ucd)

/-- The case of an ASCII letter does not matter to its lower case. -/
theorem lowerChar_congr {c d : Char} (h : c.toLower = d.toLower) :
    U.lowerChar c = U.lowerChar d := by
  rcases eq_or_isAlpha_of_toLower_eq h with rfl | ⟨hc, hd, -, -⟩
  · rfl
  · rw [U.lowerChar_ascii c hc, U.lowerChar_ascii d hd, h]

/-- Nor to whether it has case. -/
theorem cased_congr {c d : Char} (h : c.toLower = d.toLower) : U.cased c = U.cased d := by
  rcases eq_or_isAlpha_of_toLower_eq h with rfl | ⟨hc, hd, hca, hda⟩
  · rfl
  · rw [U.cased_ascii c hc, U.cased_ascii d hd, hca, hda]

/-- Letters are not ignored. -/
theorem caseIgnorable_of_isAlpha {c : Char} (h : isAscii c = true) (ha : c.isAlpha = true) :
    U.caseIgnorable c = false := by
  rw [U.caseIgnorable_ascii c h]
  rw [isAlpha_iff] at ha
  by_contra hmem
  simp only [Bool.not_eq_false, List.contains_iff_mem, asciiCaseIgnorable, List.mem_cons,
    List.not_mem_nil, or_false] at hmem
  rcases hmem with rfl | rfl | rfl | rfl | rfl <;> revert ha <;> decide

/-- The case of an ASCII letter does not matter to whether it is ignored. -/
theorem caseIgnorable_congr {c d : Char} (h : c.toLower = d.toLower) :
    U.caseIgnorable c = U.caseIgnorable d := by
  rcases eq_or_isAlpha_of_toLower_eq h with rfl | ⟨hc, hd, hca, hda⟩
  · rfl
  · rw [U.caseIgnorable_of_isAlpha hc hca, U.caseIgnorable_of_isAlpha hd hda]

/-- The nearest code point that is not case-ignorable is cased or not
whatever the ASCII case of the text. -/
theorem nearestCased_congr {s t : Str} (h : EqAsciiCase s t) :
    (s.find? fun c => !U.caseIgnorable c).any U.cased =
      (t.find? fun c => !U.caseIgnorable c).any U.cased := by
  induction s generalizing t with
  | nil =>
      cases t with
      | nil => rfl
      | cons d t => simp [EqAsciiCase, foldAscii] at h
  | cons c s ih =>
      cases t with
      | nil => simp [EqAsciiCase, foldAscii] at h
      | cons d t =>
          obtain ⟨hcd, hst⟩ := EqAsciiCase.cons_iff.mp h
          rw [List.find?_cons, List.find?_cons, U.caseIgnorable_congr hcd]
          cases U.caseIgnorable d with
          | true => exact ih hst
          | false => simpa using U.cased_congr hcd

/-- Nor does it matter in context. -/
theorem lowerAt_congr {b b' r r' : Str} {c d : Char} (hb : EqAsciiCase b b')
    (hcd : c.toLower = d.toLower) (hr : EqAsciiCase r r') :
    U.lowerAt b c r = U.lowerAt b' d r' := by
  have hsigma : c = 'Σ' ↔ d = 'Σ' := by
    constructor
    · rintro rfl
      exact ((toLower_eq_iff_of_not_isAlpha (by decide)).mp hcd.symm)
    · rintro rfl
      exact ((toLower_eq_iff_of_not_isAlpha (by decide)).mp hcd)
  unfold lowerAt finalSigma
  rw [U.nearestCased_congr hb, U.nearestCased_congr hr, U.lowerChar_congr hcd]
  simp only [hsigma]

/-- Nor does it matter in a text. -/
theorem lowerFrom_congr {b b' s t : Str} (hb : EqAsciiCase b b') (h : EqAsciiCase s t) :
    U.lowerFrom b s = U.lowerFrom b' t := by
  induction s generalizing b b' t with
  | nil =>
      cases t with
      | nil => rfl
      | cons d t => simp [EqAsciiCase, foldAscii] at h
  | cons c s ih =>
      cases t with
      | nil => simp [EqAsciiCase, foldAscii] at h
      | cons d t =>
          obtain ⟨hcd, hst⟩ := EqAsciiCase.cons_iff.mp h
          have htail := ih (EqAsciiCase.cons_iff.mpr ⟨hcd, hb⟩) hst
          rw [lowerFrom, lowerFrom, U.lowerAt_congr hb hcd hst, htail]

/-- Texts that agree up to ASCII case have one lower-casing. -/
theorem lower_congr {s t : Str} (h : EqAsciiCase s t) : U.lower s = U.lower t :=
  U.lowerFrom_congr (EqAsciiCase.refl []) h

/-- ASCII text is folded letter by letter. -/
theorem lowerFrom_ascii (b : Str) {s : Str} (h : ∀ c ∈ s, isAscii c = true) :
    U.lowerFrom b s = foldAscii s := by
  induction s generalizing b with
  | nil => rfl
  | cons c s ih =>
      have hc : isAscii c = true := h c (by simp)
      have hs : c ≠ 'Σ' := by rintro rfl; revert hc; decide
      rw [lowerFrom, ih (c :: b) (fun d hd => h d (by simp [hd])), lowerAt, if_neg hs,
        U.lowerChar_ascii c hc]
      rfl

/-- Upper-case ASCII text stays as it is. -/
theorem upper_eq_self {s : Str} (h : ∀ c ∈ s, isAscii c = true ∧ c.toUpper = c) :
    U.upper s = s := by
  induction s with
  | nil => rfl
  | cons c s ih =>
      obtain ⟨hc, hup⟩ := h c (by simp)
      have hs : U.upper s = s := ih fun d hd => h d (by simp [hd])
      rw [upper, List.flatMap_cons, ← upper, hs, U.upperChar_ascii c hc, hup]
      rfl

/-- On ASCII text `lower` is the ASCII fold. -/
theorem lower_ascii {s : Str} (h : ∀ c ∈ s, isAscii c = true) : U.lower s = foldAscii s :=
  U.lowerFrom_ascii [] h

end Ucd

/-! ## splitting -/

/-- `s.split()`. -/
def splitWords (s : Str) : List Str := (s.splitOnP isSpace).filter (· ≠ [])

/-- `s.split(None, n)`: at most `n` words are cut off, the rest stays one
piece (its trailing white space included). -/
def splitWordsMax : Nat → Str → List Str
  | 0, s =>
      let rest := s.dropWhile isSpace
      if rest = [] then [] else [rest]
  | n + 1, s =>
      let rest := s.dropWhile isSpace
      if rest = [] then []
      else rest.takeWhile (fun c => !isSpace c) ::
        splitWordsMax n (rest.dropWhile fun c => !isSpace c)

/-- What stands between separators is no separator. -/
theorem eq_false_of_mem_splitOnP {p : α → Bool} {xs w : List α} (hw : w ∈ xs.splitOnP p) :
    ∀ x ∈ w, p x = false := by
  induction xs generalizing w with
  | nil =>
      rw [List.splitOnP_nil, List.mem_singleton] at hw
      simp [hw]
  | cons x xs ih =>
      rw [List.splitOnP_cons_eq_if_modifyHead] at hw
      split_ifs at hw with hx
      · cases List.mem_cons.mp hw with
        | inl hw => simp [hw]
        | inr hw => exact ih hw
      · cases hsplit : xs.splitOnP p with
        | nil => exact absurd hsplit (List.splitOnP_ne_nil p xs)
        | cons head tail =>
            rw [hsplit, List.modifyHead_cons] at hw
            cases List.mem_cons.mp hw with
            | inl hw =>
                rw [hw, List.forall_mem_cons]
                exact ⟨by simpa using hx, ih (hsplit ▸ List.mem_cons_self)⟩
            | inr hw => exact ih (hsplit ▸ List.mem_cons_of_mem _ hw)

/-- A word has characters, none of them whitespace. -/
theorem mem_splitWords {s w : Str} (hw : w ∈ splitWords s) :
    w ≠ [] ∧ ∀ c ∈ w, isSpace c = false := by
  obtain ⟨hmem, hne⟩ := List.mem_filter.mp hw
  exact ⟨by simpa using hne, eq_false_of_mem_splitOnP hmem⟩

/-- A word is one word. -/
theorem splitWords_word {w : Str} (hne : w ≠ []) (hw : ∀ c ∈ w, isSpace c = false) :
    splitWords w = [w] := by
  rw [splitWords, List.splitOnP_eq_singleton hw]
  simp [hne]

/-- A word before a blank comes first. -/
theorem splitWords_cons {w : Str} (hne : w ≠ []) (hw : ∀ c ∈ w, isSpace c = false) (rest : Str) :
    splitWords (w ++ [' '] ++ rest) = w :: splitWords rest := by
  have hsplit : (w ++ ' ' :: rest).splitOnP isSpace = w :: rest.splitOnP isSpace :=
    List.splitOnP_append_cons_of_forall_mem hw ' ' (by decide) rest
  rw [List.append_assoc, List.singleton_append, splitWords, hsplit, List.filter_cons_of_pos]
  · rfl
  · simpa using hne

/-- `sep.join(parts)`. -/
def join (sep : Str) (parts : List Str) : Str := sep.intercalate parts

/-- What is joined from two parts has the separator. -/
theorem join_ne_nil {sep : Str} {parts : List Str} (hsep : sep ≠ []) (h : 2 ≤ parts.length) :
    join sep parts ≠ [] := by
  match parts, h with
  | p :: q :: parts, _ => simp [join, hsep]

/-- A character of joined parts is in the separator or a part. -/
theorem mem_join {c : Char} {sep : Str} {parts : List Str} (h : c ∈ join sep parts) :
    c ∈ sep ∨ ∃ part ∈ parts, c ∈ part := by
  unfold join at h
  induction parts with
  | nil => simp at h
  | cons part parts ih =>
      cases parts with
      | nil => exact .inr ⟨part, List.mem_cons_self, by simpa using h⟩
      | cons part' parts =>
          rw [List.intercalate_cons_cons, List.mem_append, List.mem_append] at h
          rcases h with (h | h) | h
          · exact .inr ⟨part, List.mem_cons_self, h⟩
          · exact .inl h
          · exact (ih h).imp id fun ⟨p, hp, hc⟩ => ⟨p, List.mem_cons_of_mem _ hp, hc⟩

/-! ## numbers -/

/-- `str(n)` of a natural number. -/
def natStr (n : Nat) : Str := Nat.toDigits 10 n

/-- `str(i)`. -/
def intStr : Int → Str
  | .ofNat n => natStr n
  | .negSucc n => '-' :: natStr (n + 1)

/-- A number is written with digits. -/
theorem intStr_ne_nil (i : Int) : intStr i ≠ [] := by
  cases i with
  | ofNat n => exact Nat.toDigits_ne_nil
  | negSucc n => simp [intStr]

/-- The characters of a number. -/
theorem mem_intStr {i : Int} {c : Char} (h : c ∈ intStr i) : c = '-' ∨ c.isDigit = true := by
  cases i with
  | ofNat n => exact .inr (Nat.isDigit_of_mem_toDigits (by decide) (by decide) h)
  | negSucc n =>
      cases List.mem_cons.mp h with
      | inl h => exact .inl h
      | inr h => exact .inr (Nat.isDigit_of_mem_toDigits (by decide) (by decide) h)

/-- A natural number consists of digits. -/
theorem mem_natStr {n : Nat} {c : Char} (h : c ∈ natStr n) : c.isDigit = true :=
  Nat.isDigit_of_mem_toDigits (by decide) (by decide) h

/-- It has no other character. -/
theorem not_mem_natStr {n : Nat} {c : Char} (h : c.isDigit = false) : c ∉ natStr n := by
  intro hc
  rw [mem_natStr hc] at h
  contradiction

/-- It has a digit. -/
theorem natStr_ne_nil (n : Nat) : natStr n ≠ [] := Nat.toDigits_ne_nil

/-- Different natural numbers are written differently. -/
theorem natStr_inj {m n : Nat} : natStr m = natStr n ↔ m = n := by
  constructor
  · intro h
    have hdigits := congrArg (Nat.ofDigitChars 10 · 0) h
    simpa [natStr, Nat.ofDigitChars_ten_toDigits] using hdigits
  · exact congrArg natStr

/-- Different numbers are written differently. -/
theorem intStr_inj {i j : Int} : intStr i = intStr j ↔ i = j := by
  have hsign : ∀ m n, natStr m ≠ '-' :: natStr n := by
    intro m n h
    have hdigit : '-'.isDigit = true := mem_natStr (by rw [h]; exact List.mem_cons_self)
    contradiction
  constructor
  · intro h
    cases i with
    | ofNat m =>
        cases j with
        | ofNat n => rw [natStr_inj.mp h]
        | negSucc n => exact absurd h (hsign _ _)
    | negSucc m =>
        cases j with
        | ofNat n => exact absurd h.symm (hsign _ _)
        | negSucc n =>
            have hnat := natStr_inj.mp (List.cons.inj h).2
            rw [Nat.succ.inj hnat]
  · exact congrArg intStr

/-- The code points of the digits. -/
theorem toNat_of_isDigit {c : Char} (h : c.isDigit = true) : 48 ≤ c.toNat ∧ c.toNat ≤ 57 := by
  simpa [Char.isDigit, UInt32.le_iff_toNat_le, ← Char.toNat_val] using h

/-- A digit is written as itself. -/
theorem digitChar_of_isDigit {c : Char} (h : c.isDigit = true) : (c.toNat - 48).digitChar = c := by
  obtain ⟨hle, hge⟩ := toNat_of_isDigit h
  have hdigits : ∀ n < 10, (n : Nat).digitChar = Char.ofNat (n + 48) := by decide
  rw [hdigits _ (by omega), Nat.sub_add_cancel hle, Char.ofNat_toNat]

/-- A digit is no whitespace. -/
theorem isSpace_of_isDigit {c : Char} (h : c.isDigit = true) : isSpace c = false := by
  have hrange := toNat_of_isDigit h
  simp only [isSpace, Bool.or_eq_false_iff, Bool.and_eq_false_iff, decide_eq_false_iff_not,
    beq_eq_false_iff_ne]
  omega

/-- `'%x' % n`. -/
def hexStr (n : Nat) : Str := Nat.toDigits 16 n

/-- A hexadecimal number has a digit. -/
theorem hexStr_ne_nil (n : Nat) : hexStr n ≠ [] := Nat.toDigits_ne_nil

/-- A hexadecimal number consists of hexadecimal digits. -/
theorem mem_hexStr {n : Nat} {c : Char} (h : c ∈ hexStr n) : ∃ d, d < 16 ∧ c = d.digitChar := by
  unfold hexStr at h
  induction n using Nat.strongRecOn with
  | ind n ih =>
      rw [Nat.toDigits_eq_if (by decide)] at h
      split at h
      · next hlt => exact ⟨n, hlt, by simpa using h⟩
      · next hge =>
          rw [List.mem_append, List.mem_singleton] at h
          cases h with
          | inl h => exact ih (n / 16) (by omega) h
          | inr h => exact ⟨n % 16, by omega, h⟩

/-- It has no other character. -/
theorem not_mem_hexStr {n : Nat} {c : Char} (h : ∀ d < 16, c ≠ d.digitChar) : c ∉ hexStr n := by
  intro hc
  obtain ⟨d, hd, heq⟩ := mem_hexStr hc
  exact h d hd heq

/-- `int` refuses longer runs of decimal digits. -/
def maxStrDigits : Nat := 4300

namespace Ucd

variable (U : Ucd)

/-- Decimal digits with single underscores between them; `prev` tells
whether a digit stands to the left. -/
def digitRun (prev : Bool) : Str → Option (List Nat)
  | [] => if prev then some [] else none
  | c :: cs =>
      if c = '_' then
        if prev then digitRun false cs else none
      else
        match U.decimal c with
        | some d => (digitRun true cs).map (d :: ·)
        | none => none

/-- The value of a digit run. -/
def natOfDigits (ds : List Nat) : Nat := ds.foldl (fun n d => 10 * n + d) 0

/-- The unsigned part of `int(s)`. -/
def parseNat (s : Str) : Option Nat :=
  (U.digitRun false s).bind fun ds =>
    if ds.length ≤ maxStrDigits then some (natOfDigits ds) else none

/-- The white space that `int` takes off: not the separators from U+001C to U+001F,
which `str.strip` takes off. -/
def isIntSpace (c : Char) : Bool := isSpace c && !(28 ≤ c.toNat && c.toNat ≤ 31)

/-- `int(s)`; `none` where Python raises `ValueError`. -/
def parseInt (s : Str) : Option Int :=
  match (s.dropWhile isIntSpace).rdropWhile isIntSpace with
  | '+' :: ds => (U.parseNat ds).map Int.ofNat
  | '-' :: ds => (U.parseNat ds).map fun n => -(n : Int)
  | ds => (U.parseNat ds).map Int.ofNat

/-- An ASCII digit has its value. -/
theorem decimal_of_isDigit {c : Char} (h : c.isDigit = true) :
    U.decimal c = some (c.toNat - 48) := by
  have hrange := toNat_of_isDigit h
  rw [U.decimal_ascii c (by simp [isAscii]; omega), if_pos h]

/-- ASCII digits are read one by one. -/
theorem digitRun_digits {s : Str} (h : ∀ c ∈ s, c.isDigit = true) {prev : Bool}
    (hne : prev = true ∨ s ≠ []) : U.digitRun prev s = some (s.map fun c => c.toNat - 48) := by
  induction s generalizing prev with
  | nil => simp [digitRun, hne.resolve_right (by simp)]
  | cons c cs ih =>
      have hc := h c (by simp)
      have hrest := ih (fun d hd => h d (by simp [hd])) (.inl rfl)
      have hund : c ≠ '_' := by
        intro hund
        rw [hund] at hc
        exact absurd hc (by decide)
      rw [digitRun, if_neg hund, U.decimal_of_isDigit hc]
      simp [hrest]

/-- `int(str(n))`. -/
theorem parseInt_natStr {n : Nat} (h : (natStr n).length ≤ maxStrDigits) :
    U.parseInt (natStr n) = some (n : Int) := by
  have hdigits : ∀ c ∈ natStr n, c.isDigit = true := fun c hc => mem_natStr hc
  have hspace : ∀ c ∈ natStr n, isIntSpace c = false := by
    intro c hc
    rw [isIntSpace, isSpace_of_isDigit (hdigits c hc), Bool.false_and]
  have hstrip : ((natStr n).dropWhile isIntSpace).rdropWhile isIntSpace = natStr n :=
    trim_eq_self (fun c hc => hspace c (List.mem_of_head? hc))
      fun c hc => hspace c (List.mem_of_getLast? hc)
  have hvalue : natOfDigits ((natStr n).map fun c => c.toNat - 48) = n := by
    rw [natOfDigits, List.foldl_map]
    exact Nat.ofDigitChars_ten_toDigits
  have hparse : U.parseNat (natStr n) = some n := by
    rw [parseNat, U.digitRun_digits hdigits (.inr (natStr_ne_nil n)), Option.bind_some,
      List.length_map, if_pos h, hvalue]
  unfold parseInt
  rw [hstrip]
  split
  · next ds hds => exact absurd (hdigits '+' (by simp [hds])) (by decide)
  · next ds hds => exact absurd (hdigits '-' (by simp [hds])) (by decide)
  · rw [hparse]
    rfl

/-! ## repr -/

/-- `n` in hexadecimal, at least `w` digits. -/
def hexPad (w n : Nat) : Str :=
  let ds := hexStr n
  List.replicate (w - ds.length) '0' ++ ds

/-- One code point inside `repr`, quoted by `q`. -/
def reprChar (q c : Char) : Str :=
  let n := c.toNat
  if c = q ∨ c = '\\' then ['\\', c]
  else if c = '\t' then lit "\\t"
  else if c = '\n' then lit "\\n"
  else if c = '\r' then lit "\\r"
  else if n < 32 ∨ n = 127 then lit "\\x" ++ hexPad 2 n
  else if n < 127 ∨ U.printable c then [c]
  else if n < 0x100 then lit "\\x" ++ hexPad 2 n
  else if n < 0x10000 then lit "\\u" ++ hexPad 4 n
  else lit "\\U" ++ hexPad 8 n

/-- `repr(s)`. -/
def repr (s : Str) : Str :=
  let q := if '\'' ∈ s ∧ '"' ∉ s then '"' else '\''
  q :: s.flatMap (U.reprChar q) ++ [q]

end Ucd

end Py
