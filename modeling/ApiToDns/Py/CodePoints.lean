import ApiToDns.Py.Encodings
import ApiToDns.Py.Utf8

/-!
# Py.CodePoints

Python texts with lone surrogates, for code that must say what becomes of
them: `str.lower`, `str.encode`, `repr` and the strings of `json.dumps`.
-/

namespace Py

/-- A code point: a character or a surrogate. -/
inductive CodePoint where
  | char (c : Char)
  | surrogate (n : Fin 2048)
deriving DecidableEq, Repr

/-- Any Python text. -/
abbrev Text := List CodePoint

namespace Text

/-- A text without surrogates. -/
def ofStr (s : Str) : Text := s.map .char

/-- `t in s`. -/
def contains (s t : Text) : Bool := s.tails.any fun rest => t.isPrefixOf rest

/-- A character, and not a surrogate. -/
def isChar : CodePoint → Bool
  | .char _ => true
  | .surrogate _ => false

/-- There is no surrogate. -/
def encodable (s : Text) : Bool := s.all isChar

/-- The characters, if there is no surrogate. -/
def toStr? : Text → Option Str
  | [] => some []
  | .char c :: s => (toStr? s).map (c :: ·)
  | .surrogate _ :: _ => none

/-- `s.encode("utf-8")`; `none` for `UnicodeEncodeError`. -/
def encode (s : Text) : Option (List UInt8) := (toStr? s).map Utf8.encode

/-- White space; no surrogate is. -/
def isSpace : CodePoint → Bool
  | .char c => Py.isSpace c
  | .surrogate _ => false

/-- `s.strip()`. -/
def strip (s : Text) : Text := (s.dropWhile isSpace).rdropWhile isSpace

/-- A text without surrogates is stripped as a string is. -/
theorem strip_ofStr (s : Str) : strip (ofStr s) = ofStr (Py.strip s) := by
  unfold strip ofStr Py.strip List.rdropWhile
  rw [List.dropWhile_map, ← List.map_reverse, List.dropWhile_map, ← List.map_reverse]
  rfl

/-- A string is one again. -/
@[simp] theorem toStr?_ofStr (s : Str) : toStr? (ofStr s) = some s := by
  induction s with
  | nil => rfl
  | cons c s ih =>
      unfold ofStr at ih ⊢
      rw [List.map_cons, toStr?, ih]
      rfl

/-- Strings differ as texts if they differ. -/
theorem ofStr_injective {s t : Str} (h : ofStr s = ofStr t) : s = t := by
  have heq := congrArg toStr? h
  rw [toStr?_ofStr, toStr?_ofStr] at heq
  exact Option.some.inj heq

/-- Stripping twice is stripping once. -/
theorem strip_strip (s : Text) : strip (strip s) = strip s := trim_trim isSpace s

/-- A text that is a string is that string. -/
theorem ofStr_of_toStr? {s : Text} {t : Str} (h : toStr? s = some t) : s = ofStr t := by
  induction s generalizing t with
  | nil =>
      obtain rfl := Option.some.inj h
      rfl
  | cons p s ih =>
      cases p with
      | surrogate n => contradiction
      | char c =>
          obtain ⟨t', ht, rfl⟩ := Option.map_eq_some_iff.mp h
          rw [ih ht]
          rfl

/-- A text is a string if it can be encoded. -/
theorem exists_toStr?_iff {s : Text} : (∃ t, toStr? s = some t) ↔ encodable s = true := by
  induction s with
  | nil => simp [toStr?, encodable]
  | cons p s ih =>
      cases p with
      | surrogate n => simp [toStr?, encodable, isChar]
      | char c => simpa [toStr?, encodable, isChar] using ih

/-- A string can be encoded. -/
@[simp] theorem encodable_ofStr (s : Str) : encodable (ofStr s) = true := by
  simp [encodable, ofStr, isChar]

/-- A concatenation can be encoded if both parts can. -/
@[simp] theorem encodable_append (s t : Text) :
    encodable (s ++ t) = (encodable s && encodable t) := List.all_append

/-- A character can always be encoded. -/
@[simp] theorem encodable_char_cons (c : Char) (s : Text) :
    encodable (.char c :: s) = encodable s := rfl

@[simp] theorem encodable_nil : encodable [] = true := rfl

/-- Parts between separators. -/
theorem encodable_intercalate {sep : Text} (hsep : encodable sep = true) (parts : List Text) :
    encodable (sep.intercalate parts) = true ↔ ∀ part ∈ parts, encodable part = true := by
  induction parts with
  | nil => simp
  | cons part parts ih =>
      cases parts with
      | nil => simp
      | cons next parts =>
          rw [List.intercalate_cons_cons, encodable_append, encodable_append, hsep]
          simp only [Bool.and_true, Bool.and_eq_true, ih]
          simp

end Text

namespace Ucd

variable (U : Ucd)

/-! ## lower case -/

/-- The nearest code point that is not case-ignorable is cased. -/
def nearestCased (s : Text) : Bool :=
  let ignorable : CodePoint → Bool
    | .char c => U.caseIgnorable c
    | .surrogate _ => false
  (s.find? fun p => !ignorable p).any fun
    | .char c => U.cased c
    | .surrogate _ => false

/-- Lower-case one code point in its context; a surrogate stays. -/
def lowerPoint (before : Text) (p : CodePoint) (rest : Text) : Text :=
  match p with
  | .surrogate n => [.surrogate n]
  | .char c =>
      if c = 'Σ' then
        [.char (if U.nearestCased before && !U.nearestCased rest then 'ς' else 'σ')]
      else Text.ofStr (U.lowerChar c)

/-- `lower` after the code points `before` (nearest first). -/
def lowerTextFrom (before : Text) : Text → Text
  | [] => []
  | p :: rest => U.lowerPoint before p rest ++ lowerTextFrom (p :: before) rest

/-- `s.lower()`. -/
def lowerText (s : Text) : Text := U.lowerTextFrom [] s

/-- Letters of ASCII are lower-cased in every context. -/
theorem lowerTextFrom_ofStr_append {w : Str} (h : ∀ c ∈ w, isAscii c = true) (before rest : Text) :
    ∃ before', U.lowerTextFrom before (Text.ofStr w ++ rest) =
      Text.ofStr (foldAscii w) ++ U.lowerTextFrom before' rest := by
  induction w generalizing before with
  | nil => exact ⟨before, rfl⟩
  | cons c w ih =>
      have hc := h c (by simp)
      obtain ⟨before', hrest⟩ := ih (fun d hd => h d (by simp [hd])) (.char c :: before)
      have hsigma : c ≠ 'Σ' := by
        intro heq
        rw [heq] at hc
        contradiction
      refine ⟨before', ?_⟩
      unfold Text.ofStr foldAscii at hrest ⊢
      rw [List.map_cons, List.cons_append, lowerTextFrom, lowerPoint, if_neg hsigma,
        U.lowerChar_ascii c hc, hrest]
      rfl

/-- A text that contains a word of ASCII contains it in lower case when it is
lower-cased. -/
theorem isInfix_lowerTextFrom {w : Str} (h : ∀ c ∈ w, isAscii c = true) (before pre post : Text) :
    Text.ofStr (foldAscii w) <:+: U.lowerTextFrom before (pre ++ Text.ofStr w ++ post) := by
  induction pre generalizing before with
  | nil =>
      obtain ⟨before', heq⟩ := U.lowerTextFrom_ofStr_append h before post
      rw [List.nil_append, heq]
      exact (List.prefix_append _ _).isInfix
  | cons p pre ih =>
      rw [List.cons_append, List.cons_append, lowerTextFrom]
      exact (ih (p :: before)).trans (List.suffix_append _ _).isInfix

/-! ## repr -/

/-- `repr(s)`. -/
def reprText (s : Text) : Text :=
  let q := if .char '\'' ∈ s ∧ .char '"' ∉ s then '"' else '\''
  .char q :: (s.flatMap fun
    | .char c => Text.ofStr (U.reprChar q c)
    | .surrogate n => Text.ofStr (lit "\\u" ++ hexPad 4 (0xD800 + n))) ++ [.char q]

end Ucd

/-- `t in s`. -/
theorem Text.contains_iff {s t : Text} : Text.contains s t = true ↔ t <:+: s := by
  unfold Text.contains
  rw [List.any_eq_true]
  constructor
  · intro h
    obtain ⟨rest, hrest, hpre⟩ := h
    exact (List.isPrefixOf_iff_prefix.mp hpre).isInfix.trans
      ((List.mem_tails rest s).mp hrest).isInfix
  · intro h
    obtain ⟨before, after, heq⟩ := h
    refine ⟨t ++ after, (List.mem_tails _ _).mpr ⟨before, by simpa using heq⟩, ?_⟩
    exact List.isPrefixOf_iff_prefix.mpr (List.prefix_append _ _)

/-! ## strings of JSON -/

namespace JsonText

/-- A character inside a string, other characters than ASCII left alone. -/
def escapeChar (c : Char) : Str :=
  if c = '"' then lit "\\\""
  else if c = '\\' then lit "\\\\"
  else if c = '\n' then lit "\\n"
  else if c = '\r' then lit "\\r"
  else if c = '\t' then lit "\\t"
  else if c.toNat = 12 then lit "\\f"
  else if c.toNat = 8 then lit "\\b"
  else if c.toNat < 32 then lit "\\u" ++ Ucd.hexPad 4 c.toNat
  else [c]

/-- A code point inside a string, with `ensure_ascii=False`. -/
def escapePoint : CodePoint → Text
  | .char c => Text.ofStr (escapeChar c)
  | .surrogate n => [.surrogate n]

/-- A string, with `ensure_ascii=False`. -/
def quote (s : Text) : Text := .char '"' :: s.flatMap escapePoint ++ [.char '"']

/-- A code point inside a string, with `ensure_ascii=True`. -/
def escapePointAscii : CodePoint → Str
  | .char c =>
      if 32 ≤ c.toNat ∧ c.toNat < 127 ∨ escapeChar c ≠ [c] then escapeChar c
      else (Utf16.unitsOf c).flatMap fun u => lit "\\u" ++ Ucd.hexPad 4 u
  | .surrogate n => lit "\\u" ++ Ucd.hexPad 4 (0xD800 + n)

/-- A string, with `ensure_ascii=True`. -/
def quoteAscii (s : Text) : Text :=
  Text.ofStr ('"' :: s.flatMap escapePointAscii ++ ['"'])

/-- Quoting keeps the surrogates, and adds none. -/
@[simp] theorem encodable_quote (s : Text) : Text.encodable (quote s) = Text.encodable s := by
  have hpoint : ∀ p, (escapePoint p).all Text.isChar = Text.isChar p := by
    intro p
    cases p with
    | char c => exact Text.encodable_ofStr _
    | surrogate n => rfl
  have hall : Text.encodable (s.flatMap escapePoint) = Text.encodable s := by
    unfold Text.encodable
    rw [List.all_flatMap]
    simp only [hpoint]
  rw [quote, List.cons_append, Text.encodable_char_cons, Text.encodable_append, hall]
  simp

end JsonText

end Py
