import ApiToDns.Exceptions
import ApiToDns.Py.CodePoints

/-!
# FormatMap

`str.format_map` over a dictionary of texts.  A template is read item by item,
and what an item looks up is looked up before the next one is read.  What
Python's objects do with attributes, indices, conversions and format
specifications is a parameter.

* `formatMap` — the formatter;
* `raisesValueError_formatMap` — a template whose fields are names only fails
  with a `ValueError`, if it fails.
-/

namespace ApiToDns.FormatMap

open Py

def indexError : Exc := .other (lit "IndexError")
def keyError : Exc := .other (lit "KeyError")
def typeError : Exc := .other (lit "TypeError")
def attributeError : Exc := .other (lit "AttributeError")

/-- Python's objects, as far as a format string can ask them for something. -/
structure Objects where
  ucd : Ucd
  Obj : Type
  ofText : Text → Obj
  getattr : Obj → Str → Except Exc Obj
  getitem : Obj → Nat ⊕ Str → Except Exc Obj
  /-- `str`, `repr` and `ascii`, by their conversion characters -/
  str : Obj → Except Exc Text
  repr : Obj → Except Exc Text
  ascii : Obj → Except Exc Text
  /-- `format(obj, spec)` -/
  format : Obj → Text → Except Exc Text

/-! ## the syntax -/

/-- A replacement field; the specification of a field may have fields itself. -/
structure Field where
  name : Str
  conversion : Option Char
  spec : Str
  nested : Bool
deriving DecidableEq

/-- The name of a field, up to the `}`, `:` or `!` that ends it; what is in
brackets is skipped. -/
def scanName : Bool → Str → Except Exc (Str × Str)
  | _, [] => .ok ([], [])
  | true, c :: s => (fun r => (c :: r.1, r.2)) <$> scanName (c ≠ ']') s
  | false, c :: s =>
      if c = '\x7b' then .error (.valueError (lit "unexpected '\x7b' in field name"))
      else if c = '\x7d' ∨ c = ':' ∨ c = '!' then .ok ([], c :: s)
      else (fun r => (c :: r.1, r.2)) <$> scanName (c = '[') s

/-- A specification, up to the brace that closes the field: whether it has
braces, and what follows. -/
def scanSpec : Nat → Str → Except Exc (Str × Bool × Str)
  | _, [] => .error (.valueError (lit "unmatched '\x7b' in format spec"))
  | depth, c :: s =>
      if c = '\x7b' then (fun r => (c :: r.1, true, r.2.2)) <$> scanSpec (depth + 1) s
      else if c = '\x7d' then
        match depth with
        | 0 => .ok ([], false, s)
        | depth + 1 => (fun r => (c :: r.1, r.2)) <$> scanSpec depth s
      else (fun r => (c :: r.1, r.2)) <$> scanSpec depth s

/-- The specification that follows a name and perhaps a conversion. -/
def parseSpec (name : Str) (conversion : Option Char) (s : Str) : Except Exc (Field × Str) := do
  let (spec, nested, rest) ← scanSpec 0 s
  .ok (⟨name, conversion, spec, nested⟩, rest)

/-- `parse_field`, after the opening brace. -/
def parseField (s : Str) : Except Exc (Field × Str) := do
  let (name, rest) ← scanName false s
  match rest with
  | '\x7d' :: rest => .ok (⟨name, none, [], false⟩, rest)
  | ':' :: rest => parseSpec name none rest
  | '!' :: [] =>
      .error (.valueError (lit "end of string while looking for conversion specifier"))
  | '!' :: [_] => .error (.valueError (lit "unmatched '\x7b' in format spec"))
  | '!' :: c :: '\x7d' :: rest => .ok (⟨name, some c, [], false⟩, rest)
  | '!' :: c :: ':' :: rest => parseSpec name (some c) rest
  | '!' :: _ :: _ => .error (.valueError (lit "expected ':' after conversion specifier"))
  | _ => .error (.valueError (lit "expected '\x7d' before end of string"))

def isBrace (c : Char) : Bool := c = '\x7b' || c = '\x7d'

/-- The literal text at the front, the field after it, and the rest. -/
def nextItem (s : Str) : Except Exc (Str × Option Field × Str) :=
  let literal := s.takeWhile fun c => !isBrace c
  match s.dropWhile fun c => !isBrace c with
  | '\x7b' :: '\x7b' :: rest => .ok (literal ++ ['\x7b'], none, rest)
  | '\x7d' :: '\x7d' :: rest => .ok (literal ++ ['\x7d'], none, rest)
  | ['\x7b'] => .error (.valueError (lit "Single '\x7b' encountered in format string"))
  | '\x7d' :: _ => .error (.valueError (lit "Single '\x7d' encountered in format string"))
  | '\x7b' :: rest => (fun r => (literal, some r.1, r.2)) <$> parseField rest
  | _ => .ok (literal, none, [])

/-! ## fields -/

/-- `PY_SSIZE_T_MAX`. -/
def maxIndex : Nat := 2 ^ 63 - 1

variable (O : Objects)

/-- `get_integer`: a text of decimal digits. -/
def digitsFrom (n : Nat) : Str → Except Exc (Option Nat)
  | [] => .ok (some n)
  | c :: s =>
      match O.ucd.decimal c with
      | none => .ok none
      | some d =>
          if maxIndex / 10 < n then
            .error (.valueError (lit "Too many decimal digits in format string"))
          else digitsFrom (10 * n + d) s

def integerOf (s : Str) : Except Exc (Option Nat) :=
  if s = [] then .ok none else digitsFrom O 0 s

/-- Where the next lookup of a name begins. -/
def startsLookup (c : Char) : Bool := c = '.' || c = '['

/-- The lookups after the first name; one more call than there are characters
is enough. -/
def lookups : Nat → O.Obj → Str → Except Exc O.Obj
  | _, obj, [] => .ok obj
  | 0, obj, _ :: _ => .ok obj
  | n + 1, obj, c :: s =>
      if c = '.' then
        let name := s.takeWhile fun c => !startsLookup c
        if name = [] then .error (.valueError (lit "Empty attribute in format string"))
        else do
          let obj ← O.getattr obj name
          lookups n obj (s.dropWhile fun c => !startsLookup c)
      else if c = '[' then
        let name := s.takeWhile (· ≠ ']')
        match s.dropWhile (· ≠ ']') with
        | [] => .error (.valueError (lit "Missing ']' in format string"))
        | _ :: rest => do
            let index ← integerOf O name
            if name = [] then .error (.valueError (lit "Empty attribute in format string"))
            else
              let obj ← O.getitem obj ((index.map .inl).getD (.inr name))
              lookups n obj rest
      else
        .error (.valueError
          (lit "Only '.' or '[' may follow ']' in format field specifier"))

/-- `get_field_object`; a name that is missing is an empty text. -/
def getFieldObject (values : List (Str × Text)) (name : Str) : Except Exc O.Obj := do
  let first := name.takeWhile fun c => !startsLookup c
  let index ← integerOf O first
  if first = [] ∨ index.isSome then
    .error (.valueError (lit "Format string contains positional fields"))
  else
    lookups O name.length (O.ofText ((values.lookup first).getD []))
      (name.dropWhile fun c => !startsLookup c)

/-- The object after its conversion. -/
def convert (obj : O.Obj) : Option Char → Except Exc O.Obj
  | none => .ok obj
  | some c =>
      if c = 'r' then O.ofText <$> O.repr obj
      else if c = 's' then O.ofText <$> O.str obj
      else if c = 'a' then O.ofText <$> O.ascii obj
      else
        let shown := if 32 < c.toNat ∧ c.toNat < 127 then [c] else lit "\\x" ++ hexStr c.toNat
        .error (.valueError (lit "Unknown conversion specifier " ++ shown))

/-- A field, its specification being expanded by `expand`. -/
def renderField (values : List (Str × Text)) (expand : Str → Except Exc Text) (field : Field) :
    Except Exc Text := do
  let obj ← getFieldObject O values field.name
  let obj ← convert O obj field.conversion
  let spec ← (if field.nested then expand field.spec else .ok (Text.ofStr field.spec))
  O.format obj spec

/-- One item after the other; no more than there are characters. -/
def renderItems (field : Field → Except Exc Text) : Nat → Str → Except Exc Text
  | _, [] => .ok []
  | 0, _ :: _ => .ok []
  | n + 1, c :: s => do
      let (literal, replaced, rest) ← nextItem (c :: s)
      let part ← (match replaced with
        | none => .ok []
        | some f => field f)
      let parts ← renderItems field n rest
      .ok (Text.ofStr literal ++ part ++ parts)

/-- Fields within specifications go two levels deep. -/
def expand (values : List (Str × Text)) : Nat → Str → Except Exc Text
  | 0, _ => .error (.valueError (lit "Max string recursion exceeded"))
  | depth + 1, s => renderItems (renderField O values (expand values depth)) s.length s

/-- `template.format_map(values)`. -/
def formatMap (values : List (Str × Text)) (template : Str) : Except Exc Text :=
  expand O values 2 template

/-! ## simple templates -/

/-- A character that begins no lookup, conversion or specification. -/
def isPlain (c : Char) : Bool := c ≠ '.' && c ≠ '[' && c ≠ '!' && c ≠ ':'

/-- What stands in braces is plain. -/
def isSimple (s : Str) : Bool :=
  s.tails.all fun
    | '\x7b' :: s => (s.takeWhile (· ≠ '\x7d')).all isPlain
    | _ => true

/-- A field that is a name. -/
def nameField (name : Str) : Field := ⟨name, none, [], false⟩

/-- The rest of a simple template is simple. -/
theorem isSimple_of_suffix {s t : Str} (h : isSimple s = true) (hsuffix : t <:+ s) :
    isSimple t = true := by
  unfold isSimple at h ⊢
  rw [List.all_eq_true] at h ⊢
  intro u hu
  exact h u ((List.mem_tails _ _).mpr (((List.mem_tails _ _).mp hu).trans hsuffix))

/-- The braces of a simple template hold names. -/
theorem isPlain_of_isSimple {s : Str} (h : isSimple ('\x7b' :: s) = true) :
    ∀ c ∈ s.takeWhile (· ≠ '\x7d'), isPlain c = true := by
  unfold isSimple at h
  rw [List.all_eq_true] at h
  exact List.all_eq_true.mp (h ('\x7b' :: s) ((List.mem_tails _ _).mpr (List.suffix_refl _)))

/-- A plain name ends at a closing brace or at the end of the text. -/
theorem scanName_of_isPlain {s : Str} (h : ∀ c ∈ s.takeWhile (· ≠ '\x7d'), isPlain c = true) :
    (∃ msg, scanName false s = .error (.valueError msg)) ∨
      ∃ name rest, scanName false s = .ok (name, rest) ∧ s = name ++ rest ∧
        (∀ c ∈ name, isPlain c = true) ∧ ∀ c ∈ rest.head?, c = '\x7d' := by
  induction s with
  | nil => exact .inr ⟨[], [], rfl, rfl, by simp, by simp⟩
  | cons c s ih =>
      unfold scanName
      by_cases hopen : c = '\x7b'
      · rw [if_pos hopen]
        exact .inl ⟨_, rfl⟩
      · by_cases hclose : c = '\x7d'
        · rw [if_neg hopen, if_pos (.inl hclose)]
          exact .inr ⟨[], c :: s, rfl, rfl, by simp, by simpa using hclose⟩
        · have hc := h c (by simp [hclose])
          have hplain : c ≠ '.' ∧ c ≠ '[' ∧ c ≠ '!' ∧ c ≠ ':' := by
            simpa [isPlain, and_assoc] using hc
          have hbracket : decide (c = '[') = false := by simp [hplain]
          have htake : (c :: s).takeWhile (· ≠ '\x7d') = c :: s.takeWhile (· ≠ '\x7d') := by
            simp [hclose]
          have hrest : ∀ d ∈ s.takeWhile (· ≠ '\x7d'), isPlain d = true :=
            fun d hd => h d (by rw [htake]; exact List.mem_cons_of_mem _ hd)
          rw [if_neg hopen, if_neg (by simp [hclose, hplain]), hbracket]
          obtain ⟨msg, herr⟩ | ⟨name, rest, hok, hs, hname, hhead⟩ := ih hrest
          · exact .inl ⟨msg, by rw [herr]; rfl⟩
          · refine .inr ⟨c :: name, rest, by rw [hok]; rfl, by rw [hs]; rfl, ?_, hhead⟩
            intro d hd
            obtain rfl | hd := List.mem_cons.mp hd
            · exact hc
            · exact hname d hd

/-- A plain field is a name or a value error. -/
theorem parseField_of_isPlain {s : Str} (h : ∀ c ∈ s.takeWhile (· ≠ '\x7d'), isPlain c = true) :
    (∃ msg, parseField s = .error (.valueError msg)) ∨
      ∃ name rest, parseField s = .ok (nameField name, rest) ∧
        (∀ c ∈ name, isPlain c = true) ∧ rest <:+ s := by
  unfold parseField
  obtain ⟨msg, herr⟩ | ⟨name, rest, hok, rfl, hname, hhead⟩ := scanName_of_isPlain h
  · exact .inl ⟨msg, by rw [herr]; rfl⟩
  · rw [hok, ok_bind]
    cases rest with
    | nil => exact .inl ⟨_, rfl⟩
    | cons c rest =>
        obtain rfl := hhead c rfl
        exact .inr ⟨name, rest, rfl, hname,
          (List.suffix_cons _ _).trans (List.suffix_append _ _)⟩

/-- An item of a simple template is a literal text, a name, or an error. -/
theorem nextItem_of_isSimple {s : Str} (h : isSimple s = true) :
    (∃ msg, nextItem s = .error (.valueError msg)) ∨
      ∃ literal replaced rest, nextItem s = .ok (literal, replaced, rest) ∧ rest <:+ s ∧
        ∀ f ∈ replaced, ∃ name, f = nameField name ∧ ∀ c ∈ name, isPlain c = true := by
  have hsuffix : (s.dropWhile fun c => !isBrace c) <:+ s := List.dropWhile_suffix _
  unfold nextItem
  dsimp only
  split
  · next rest heq =>
      rw [heq] at hsuffix
      exact .inr ⟨_, _, _, rfl,
        ((List.suffix_cons _ _).trans (List.suffix_cons _ _)).trans hsuffix, by simp⟩
  · next rest heq =>
      rw [heq] at hsuffix
      exact .inr ⟨_, _, _, rfl,
        ((List.suffix_cons _ _).trans (List.suffix_cons _ _)).trans hsuffix, by simp⟩
  · exact .inl ⟨_, rfl⟩
  · exact .inl ⟨_, rfl⟩
  · next rest _ _ heq =>
      rw [heq] at hsuffix
      obtain ⟨msg, herr⟩ | ⟨name, rest', hok, hname, hrest⟩ :=
        parseField_of_isPlain (isPlain_of_isSimple (isSimple_of_suffix h hsuffix))
      · exact .inl ⟨msg, by rw [herr]; rfl⟩
      · refine .inr ⟨_, some (nameField name), rest', by rw [hok]; rfl,
          (hrest.trans (List.suffix_cons _ _)).trans hsuffix, ?_⟩
        intro f hf
        exact ⟨name, (Option.some.inj hf).symm, hname⟩
  · exact .inr ⟨_, _, _, rfl, List.nil_suffix, by simp⟩

/-- Reading an integer raises value errors only. -/
theorem raisesValueError_integerOf (s : Str) : RaisesValueError (integerOf O s) := by
  have hfrom : ∀ n, RaisesValueError (digitsFrom O n s) := by
    induction s with
    | nil => exact fun n => .ok _
    | cons c s ih =>
        intro n
        unfold digitsFrom
        split
        · exact .ok _
        · exact .ite (.error rfl) (ih _)
  unfold integerOf
  exact .ite (.ok _) (hfrom 0)

section Render

variable {O} {values : List (Str × Text)}

/-- A name is looked up among the values only. -/
theorem getFieldObject_of_isPlain {name : Str} (h : ∀ c ∈ name, isPlain c = true) :
    (∃ exc, getFieldObject O values name = .error exc ∧ exc.isValueError = true) ∨
      ∃ s, getFieldObject O values name = .ok (O.ofText s) := by
  have hplain : ∀ c ∈ name, (!startsLookup c) = true := by
    intro c hc
    have hplain := h c hc
    simp only [isPlain, ne_eq, Bool.and_eq_true, decide_eq_true_eq] at hplain
    simp [startsLookup, hplain]
  have hfirst : (name.takeWhile fun c => !startsLookup c) = name :=
    List.takeWhile_eq_self_iff.mpr hplain
  have hafter : (name.dropWhile fun c => !startsLookup c) = [] :=
    List.dropWhile_eq_nil_iff.mpr hplain
  have hlookups : ∀ n obj, lookups O n obj [] = .ok obj := by
    intro n obj
    cases n <;> rfl
  simp only [getFieldObject, hfirst, hafter, hlookups]
  cases hindex : integerOf O name with
  | error exc => exact .inl ⟨exc, rfl, raisesValueError_integerOf O name exc hindex⟩
  | ok index =>
      rw [ok_bind]
      split
      · exact .inl ⟨_, rfl, rfl⟩
      · exact .inr ⟨_, rfl⟩

variable (hformat : ∀ s, O.format (O.ofText s) [] = .ok s)

include hformat

/-- So does a plain field. -/
theorem raisesValueError_nameField {name : Str} (h : ∀ c ∈ name, isPlain c = true)
    (expand : Str → Except Exc Text) :
    RaisesValueError (renderField O values expand (nameField name)) := by
  unfold renderField nameField
  dsimp only
  have hobject : (∃ exc, getFieldObject O values name = .error exc ∧ exc.isValueError = true) ∨
      ∃ s, getFieldObject O values name = .ok (O.ofText s) := getFieldObject_of_isPlain h
  obtain ⟨exc, herr, hvalue⟩ | ⟨s, hok⟩ := hobject
  · rw [herr, error_bind]
    exact .error hvalue
  · rw [hok, ok_bind, convert, ok_bind, if_neg (by simp), ok_bind]
    show RaisesValueError (O.format (O.ofText s) [])
    rw [hformat]
    exact .ok s

/-- A template whose fields are names only fails with a `ValueError`, if it
fails. -/
theorem raisesValueError_formatMap {template : Str} (h : isSimple template = true) :
    RaisesValueError (formatMap O values template) := by
  have hitems : ∀ n s, isSimple s = true →
      RaisesValueError (renderItems (renderField O values (expand O values 1)) n s) := by
    intro n
    induction n with
    | zero => intro s _; cases s <;> exact .ok _
    | succ n ih =>
        intro s hs
        cases s with
        | nil => exact .ok _
        | cons c s =>
            unfold renderItems
            obtain ⟨msg, herr⟩ | ⟨literal, replaced, rest, hok, hrest, hfield⟩ :=
              nextItem_of_isSimple hs
            · rw [herr]
              exact .error rfl
            · rw [hok, ok_bind]
              refine .bind ?_ fun part => .bind (ih rest (isSimple_of_suffix hs hrest)) fun parts => .ok _
              cases replaced with
              | none => exact .ok _
              | some f =>
                  obtain ⟨name, rfl, hname⟩ := hfield f rfl
                  exact raisesValueError_nameField hformat hname _
  exact hitems template.length template h

end Render

/-- Objects that are texts and nothing else. -/
def textObjects (U : Ucd) : Objects where
  ucd := U
  Obj := Text
  ofText s := s
  getattr _ _ := .error attributeError
  getitem s
    | .inl n => match s[n]? with
      | some p => .ok [p]
      | none => .error indexError
    | .inr _ => .error typeError
  str s := .ok s
  repr s := .ok (U.reprText s)
  ascii s := .ok (U.reprText s)
  format s spec :=
    if spec = [] then .ok s else .error (.valueError (lit "Invalid format specifier"))

end ApiToDns.FormatMap
