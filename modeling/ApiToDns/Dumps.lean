import ApiToDns.Exceptions
import ApiToDns.Py.CodePoints

/-!
# Dumps

Structures like JSON, and how Python writes them: `json.dumps` and `repr`.
-/

namespace ApiToDns.Dumps

open Py

/-! ## structures -/

/-- A structure like JSON.  A float is known by its `repr`. -/
inductive Details where
  | null
  | bool (b : Bool)
  | int (i : Int)
  | float (text : Str)
  | str (s : Text)
  | list (items : List Details)
  | tuple (items : List Details)
  | dict (fields : List (Text × Details))

def recursionError : Exc := .other (lit "RecursionError")

/-! ## writing -/

/-- How values are written: by `json.dumps` or by `repr`. -/
structure Style where
  /-- what stands between items, and after a key -/
  comma : Str
  colon : Str
  null : Str
  bool : Bool → Str
  float : Str → Str
  str : Text → Text
  tuple : List Text → Text

/-- Parts between brackets. -/
def bracketed (comma : Str) (before after : Char) (parts : List Text) : Text :=
  [.char before] ++ (Text.ofStr comma).intercalate parts ++ [.char after]

/-- A float in `json.dumps`. -/
def jsonFloat (text : Str) : Str :=
  if text = lit "nan" then lit "NaN"
  else if text = lit "inf" then lit "Infinity"
  else if text = lit "-inf" then lit "-Infinity"
  else text

/-- `json.dumps(…, ensure_ascii=False)`. -/
def jsonStyle : Style where
  comma := lit ", "
  colon := lit ": "
  null := lit "null"
  bool b := if b then lit "true" else lit "false"
  float := jsonFloat
  str := JsonText.quote
  tuple := bracketed (lit ", ") '[' ']'

/-- `json.dumps(…, ensure_ascii=True, separators=(",", ":"))`. -/
def compactStyle : Style where
  comma := lit ","
  colon := lit ":"
  null := lit "null"
  bool b := if b then lit "true" else lit "false"
  float := jsonFloat
  str := JsonText.quoteAscii
  tuple := bracketed (lit ",") '[' ']'

/-- `repr`. -/
def reprStyle (U : Ucd) : Style where
  comma := lit ", "
  colon := lit ": "
  null := lit "None"
  bool b := if b then lit "True" else lit "False"
  float text := text
  str := U.reprText
  tuple
    | [part] => [.char '('] ++ part ++ Text.ofStr (lit ",)")
    | parts => bracketed (lit ", ") '(' ')' parts

mutual

/-- A value is written, with the nesting that is left to the interpreter; `int`
writes no number of more than 4300 digits. -/
def write (S : Style) : Nat → Details → Except Exc Text
  | _, .null => .ok (Text.ofStr S.null)
  | _, .bool b => .ok (Text.ofStr (S.bool b))
  | _, .int i =>
      if i.natAbs < 10 ^ maxStrDigits then .ok (Text.ofStr (intStr i))
      else .error (.valueError (lit "Exceeds the limit (4300 digits) for integer string conversion"))
  | _, .float text => .ok (Text.ofStr (S.float text))
  | _, .str s => .ok (S.str s)
  | 0, .list _ | 0, .tuple _ | 0, .dict _ => .error recursionError
  | n + 1, .list items => bracketed S.comma '[' ']' <$> writeItems S n items
  | n + 1, .tuple items => S.tuple <$> writeItems S n items
  | n + 1, .dict fields => bracketed S.comma '\x7b' '\x7d' <$> writeFields S n fields

def writeItems (S : Style) (n : Nat) : List Details → Except Exc (List Text)
  | [] => .ok []
  | item :: items => do
      let part ← write S n item
      let parts ← writeItems S n items
      .ok (part :: parts)

def writeFields (S : Style) (n : Nat) : List (Text × Details) → Except Exc (List Text)
  | [] => .ok []
  | (key, value) :: fields => do
      let part ← write S n value
      let parts ← writeFields S n fields
      .ok ((S.str key ++ Text.ofStr S.colon ++ part) :: parts)

end

/-- A bracketed list can be encoded if its parts can. -/
theorem encodable_bracketed (comma : Str) (before after : Char) (parts : List Text) :
    Text.encodable (bracketed comma before after parts) = true ↔
      ∀ part ∈ parts, Text.encodable part = true := by
  rw [← Text.encodable_intercalate (Text.encodable_ofStr comma) parts, bracketed]
  simp

mutual

/-- Every style fails where another one does. -/
theorem write_error (S S' : Style) {n : Nat} {a : Details} {e : Exc} (h : write S n a = .error e) :
    write S' n a = .error e := by
  cases a with
  | null => simp [write] at h
  | bool => simp [write] at h
  | int i =>
      unfold write at h ⊢
      split at h
      · cases h
      · next hlong => rw [if_neg hlong, h]
  | float => simp [write] at h
  | str => simp [write] at h
  | list items =>
      cases n with
      | zero => simpa [write] using h
      | succ n =>
          unfold write at h ⊢
          cases hitems : writeItems S n items with
          | ok parts => simp [hitems] at h
          | error e' =>
              rw [hitems] at h
              rw [writeItems_error S S' hitems]
              exact h
  | tuple items =>
      cases n with
      | zero => simpa [write] using h
      | succ n =>
          unfold write at h ⊢
          cases hitems : writeItems S n items with
          | ok parts => simp [hitems] at h
          | error e' =>
              rw [hitems] at h
              rw [writeItems_error S S' hitems]
              exact h
  | dict fields =>
      cases n with
      | zero => simpa [write] using h
      | succ n =>
          unfold write at h ⊢
          cases hfields : writeFields S n fields with
          | ok parts => simp [hfields] at h
          | error e' =>
              rw [hfields] at h
              rw [writeFields_error S S' hfields]
              exact h

/-- What a list raises does not depend on the style. -/
theorem writeItems_error (S S' : Style) {n : Nat} {items : List Details} {e : Exc}
    (h : writeItems S n items = .error e) : writeItems S' n items = .error e := by
  cases items with
  | nil => simp [writeItems] at h
  | cons a items =>
      unfold writeItems at h ⊢
      cases ha : write S n a with
      | error e' =>
          rw [ha, error_bind] at h
          rw [write_error S S' ha, error_bind, h]
      | ok part =>
          rw [ha, ok_bind] at h
          cases hs : writeItems S n items with
          | ok parts => simp [hs] at h
          | error e' =>
              rw [hs, error_bind] at h
              cases ha' : write S' n a with
              | error e'' =>
                  rw [write_error S' S ha'] at ha
                  contradiction
              | ok part' => rw [ok_bind, writeItems_error S S' hs, error_bind, h]

/-- What a dictionary raises does not depend on the style. -/
theorem writeFields_error (S S' : Style) {n : Nat} {fields : List (Text × Details)} {e : Exc}
    (h : writeFields S n fields = .error e) : writeFields S' n fields = .error e := by
  cases fields with
  | nil => simp [writeFields] at h
  | cons field fields =>
      obtain ⟨key, a⟩ := field
      unfold writeFields at h ⊢
      cases ha : write S n a with
      | error e' =>
          rw [ha, error_bind] at h
          rw [write_error S S' ha, error_bind, h]
      | ok part =>
          rw [ha, ok_bind] at h
          cases hs : writeFields S n fields with
          | ok parts => simp [hs] at h
          | error e' =>
              rw [hs, error_bind] at h
              cases ha' : write S' n a with
              | error e'' =>
                  rw [write_error S' S ha'] at ha
                  contradiction
              | ok part' => rw [ok_bind, writeFields_error S S' hs, error_bind, h]

end

end ApiToDns.Dumps
