import ApiToDns.Exceptions
import ApiToDns.Models
import ApiToDns.Py.Base64
import ApiToDns.Py.Utf8

/-!
# Platform

What the code outside the record path calls and this repository does not
contain — Fernet, passlib, the affinities of SQLite's columns, the readers of
`json` and `datetime` — as one parameter, and the dynamic operations on
decoded JSON that the code relies on.
-/

namespace ApiToDns

open Py

/-- `cryptography.fernet.Fernet`, by the text of the key. -/
structure Fernet where
  /-- whether `Fernet(key)` accepts the key -/
  valid : Str → Bool
  encrypt : Str → List UInt8 → Str
  /-- `none` for `InvalidToken` -/
  decrypt : Str → Str → Option (List UInt8)

/-- What a key encrypts it decrypts, and the empty text is no token. -/
structure Fernet.Laws (F : Fernet) : Prop where
  decrypt_encrypt : ∀ {key}, F.valid key = true → ∀ data, F.decrypt key (F.encrypt key data) = some data
  decrypt_nil : ∀ key, F.decrypt key [] = none

/-- A token that is given in bytes, with a character for each of them. -/
def tokenOf (bytes : List UInt8) : Str := bytes.map fun b => Char.ofNat b.toNat

/-- The layouts `json.dumps` is asked for. -/
inductive Layout where
  | compact
  | indented
deriving DecidableEq

/-- What `json.loads` raises on a text besides `JSONDecodeError`: the text is
nested too deep, or has an integer with too many digits. -/
inductive LoadsFault where
  | recursion
  | digits
deriving DecidableEq, Repr

/-- The code this repository calls and does not contain. -/
structure Platform where
  ucd : Ucd
  fernet : Fernet
  /-- whether `pwd_context.identify(hash)` knows the hash -/
  identify : Str → Bool
  /-- `datetime.fromisoformat`, as a column keeps it -/
  fromisoformat : Str → Except Exc Datetime
  /-- `int(x)` of a float, by its text -/
  intOfFloat : Str → Except Exc Int
  /-- a float in a column of text -/
  textOfFloat : Str → Str
  /-- a float in a column of integers -/
  cellOfFloat : Str → Cell
  /-- a text in a column of integers -/
  cellOfText : Str → Cell
  dumps : Layout → Json → Str
  /-- `none` for `JSONDecodeError` -/
  loads : Str → Option Json
  loadsFault : Str → Option LoadsFault
  /-- the key of `derive_backup_fernet`: password, salt, iterations -/
  pbkdf2 : Str → List UInt8 → Nat → Str

def typeError : Exc := .other (lit "TypeError")

def LoadsFault.exc : LoadsFault → Exc
  | .recursion => .other (lit "RecursionError")
  | .digits => .valueError (lit "Exceeds the limit (4300 digits) for integer string conversion")

def attributeError : Exc := .other (lit "AttributeError")

def invalidToken : Exc := .other (lit "InvalidToken")

def integrityError : Exc := .other (lit "IntegrityError")

/-! ## decoded JSON in dynamic code -/

/-- `x` where only a dictionary has the method that is called on it. -/
def asDict : Json → Except Exc Dict
  | .obj fields => .ok fields
  | _ => .error attributeError

/-- `x` where only a text has the method that is called on it. -/
def asText : Json → Except Exc Str
  | .str s => .ok s
  | _ => .error attributeError

/-- `(x or "").strip()`. -/
def stripped (x : Json) : Except Exc Str := strip <$> asText (x.orElse (.str []))

/-- `x or []`, iterated over as a list. -/
def listOr (x : Json) : Option (List Json) :=
  match x.orElse (.arr []) with
  | .arr items => some items
  | _ => none

/-- `list(x)`. -/
def iterated : Json → Except Exc (List Json)
  | .arr items => .ok items
  | .obj fields => .ok (fields.map fun field => .str field.1)
  | .str s => .ok (s.map fun c => .str [c])
  | _ => .error typeError

/-- `d[key]`. -/
def subscript (d : Dict) (key : Str) : Except Exc Json :=
  if d.has key then .ok (d.get key) else .error (.other (lit "KeyError"))

/-- `hash(x)` does not raise. -/
def hashable : Json → Bool
  | .arr _ | .obj _ => false
  | _ => true

/-- The texts in `set(x)`. -/
def textsOf : Json → Except Exc (List Str)
  | .str s => .ok (s.map ([·]))
  | .obj fields => .ok (fields.map Prod.fst)
  | .arr items =>
      if items.all hashable then
        .ok (items.filterMap fun
          | .str s => some s
          | _ => none)
      else .error typeError
  | _ => .error typeError

variable (P : Platform)

/-- `int(x)`. -/
def pyInt : Json → Except Exc Int
  | .bool b => .ok (if b then 1 else 0)
  | .int i => .ok i
  | .float text _ => P.intOfFloat text
  | .str s =>
      match P.ucd.parseInt s with
      | some i => .ok i
      | none => .error (.valueError (lit "invalid literal for int()"))
  | _ => .error typeError

/-- `_parse_dt`. -/
def parseDt (value : Json) : Except Exc (Option Datetime) :=
  if value.truthy then do
    let text := strip (← asText value)
    let text := if endsWith text ['Z'] then dropEnd text 1 ++ lit "+00:00" else text
    some <$> P.fromisoformat text
  else .ok none

/-! ## columns -/

/-- The integers a column can hold. -/
def fitsColumn (i : Int) : Bool := -9223372036854775808 ≤ i && i < 9223372036854775808

/-- An integer bound to a column. -/
def bindInt (i : Int) : Except Exc Int :=
  if fitsColumn i then .ok i else .error (.other (lit "OverflowError"))

/-- A value bound to a nullable column of text. -/
def bindText : Json → Except Exc (Option Str)
  | .null => .ok none
  | .bool b => .ok (some (if b then ['1'] else ['0']))
  | .int i => (fun i => some (intStr i)) <$> bindInt i
  | .float text _ => .ok (some (P.textOfFloat text))
  | .str s => .ok (some s)
  | _ => .error (.other (lit "InterfaceError"))

/-- A value bound to a column of text that is `NOT NULL`. -/
def bindTextNotNull (x : Json) : Except Exc Str := do
  match ← bindText P x with
  | some s => .ok s
  | none => .error integrityError

/-- A value bound to a nullable column of integers. -/
def bindInteger : Json → Except Exc Cell
  | .null => .ok .null
  | .bool b => .ok (.int (if b then 1 else 0))
  | .int i => Cell.int <$> bindInt i
  | .float text _ => .ok (P.cellOfFloat text)
  | .str s => .ok (P.cellOfText s)
  | _ => .error (.other (lit "InterfaceError"))

/-- `db.add(row)` with its flush. -/
def addRow [Record α] (t : Table α) (v : α) : Except Exc (Table α) :=
  match t.insert v with
  | some t' => .ok t'
  | none => .error integrityError

/-- A row is added if it goes in. -/
theorem addRow_eq_ok_iff [Record α] {t u : Table α} {v : α} :
    addRow t v = .ok u ↔ t.insert v = some u := by
  unfold addRow
  cases t.insert v <;> simp

/-! ## secrets at rest -/

/-- `encrypt_value`. -/
def encryptValue (key value : Str) : Str := P.fernet.encrypt key (Utf8.encode value)

/-- `decrypt_value`. -/
def decryptValue (key token : Str) : Except Exc Str :=
  match P.fernet.decrypt key token with
  | none => .error invalidToken
  | some data =>
      match Utf8.decodeStrict data with
      | some value => .ok value
      | none => .error (.valueError (lit "UnicodeDecodeError"))

/-- What is encrypted is decrypted. -/
theorem decryptValue_encryptValue (hF : P.fernet.Laws) {key : Str} (hkey : P.fernet.valid key = true)
    (value : Str) : decryptValue P key (encryptValue P key value) = .ok value := by
  rw [decryptValue, encryptValue, hF.decrypt_encrypt hkey]
  dsimp only
  rw [Utf8.decodeStrict_encode]

/-! ## a stand-in -/

/-- Tokens that carry the key and the data. -/
def Fernet.plain : Fernet where
  valid key := key.length = 44
  encrypt key data := key ++ Base64.encode data
  decrypt key token :=
    if token = [] then none
    else if startsWith token key then Base64.b64decode true (token.drop key.length)
    else none

/-- The plain sealing is lawful. -/
theorem Fernet.plain_laws : Fernet.plain.Laws where
  decrypt_encrypt := by
    intro key hkey data
    have hne : key ≠ [] := by
      intro heq
      rw [heq] at hkey
      contradiction
    simp [Fernet.plain, startsWith, hne, Base64.decode_encode]
  decrypt_nil _ := rfl

/-- Python on texts of ASCII, with timestamps as `isoformat` writes them. -/
def Platform.plain : Platform where
  ucd := .ascii
  fernet := .plain
  identify hash := startsWith hash (lit "$pbkdf2-sha256$")
  fromisoformat text := .ok ⟨text⟩
  intOfFloat _ := .error (.other (lit "OverflowError"))
  textOfFloat text := text
  cellOfFloat text := .real text
  cellOfText text := .text text
  dumps _ _ := []
  loads _ := none
  loadsFault _ := none
  pbkdf2 password _ _ := password

end ApiToDns
