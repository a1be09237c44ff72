import ApiToDns.Py.Str

/-!
# Py.Json

The values `json.loads` builds, with the three things dynamic code asks of
them: truthiness, `str`, and the key of a dictionary.
-/

namespace Py

/-- A decoded JSON value.  A number with a fraction or an exponent carries
its `repr` and whether it is zero; a dictionary lists its keys once each, in
insertion order. -/
inductive Json where
  | null
  | bool (b : Bool)
  | int (i : Int)
  | float (text : Str) (isZero : Bool)
  | str (s : Str)
  | arr (items : List Json)
  | obj (fields : List (Str × Json))
deriving Repr

namespace Json

/-- `bool(x)`. -/
def truthy : Json → Bool
  | null => false
  | bool b => b
  | int i => i ≠ 0
  | float _ isZero => !isZero
  | str s => !s.isEmpty
  | arr items => !items.isEmpty
  | obj fields => !fields.isEmpty

variable (U : Ucd)

mutual

/-- `repr(x)`. -/
def pyRepr : Json → Str
  | null => lit "None"
  | bool b => if b then lit "True" else lit "False"
  | int i => intStr i
  | float text _ => text
  | str s => U.repr s
  | arr items => ['['] ++ join (lit ", ") (pyReprItems items) ++ [']']
  | obj fields => ['\x7b'] ++ join (lit ", ") (pyReprFields fields) ++ ['\x7d']

/-- `repr` of every item. -/
def pyReprItems : List Json → List Str
  | [] => []
  | x :: xs => pyRepr x :: pyReprItems xs

/-- `key: value` of every field. -/
def pyReprFields : List (Str × Json) → List Str
  | [] => []
  | (k, x) :: xs => (U.repr k ++ lit ": " ++ pyRepr x) :: pyReprFields xs

end

/-- `str(x)`. -/
def pyStr : Json → Str
  | str s => s
  | x => pyRepr U x

/-- `x or y`. -/
def orElse (x y : Json) : Json := if x.truthy then x else y

@[simp] theorem pyStr_str (s : Str) : pyStr U (str s) = s := by rw [pyStr]

end Json

/-- A dictionary with text keys. -/
abbrev Dict := List (Str × Json)

/-- `d.get(key)`. -/
def Dict.get (d : Dict) (key : Str) : Json :=
  match d.find? fun field => field.1 == key with
  | some field => field.2
  | none => .null

/-- `key in d`. -/
def Dict.has (d : Dict) (key : Str) : Bool := d.any fun field => field.1 == key

/-- `d.get(key, default)`. -/
def Dict.getD (d : Dict) (key : Str) (default : Json) : Json :=
  if d.has key then d.get key else default

end Py
