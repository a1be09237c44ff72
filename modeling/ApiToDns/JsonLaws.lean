import ApiToDns.JsonReader
import ApiToDns.Platform

/-!
# JsonLaws

What the code relies on in `json.dumps` and `json.loads`: which values a text
brings back.

* `ReadBack`, `JsonLaws` — the values that are read back, as laws;
* `Compact.dumps`, `Compact.laws` — a writer without blanks and its reader,
  which have them.
-/

namespace Py

/-- The names in a dictionary. -/
def Dict.names (d : Dict) : List Str := d.map Prod.fst

end Py

namespace ApiToDns

open Py

/-- The value is read back from its text. -/
def ReadBack (P : Platform) (dumps : Json → Str) (x : Json) : Prop := P.loads (dumps x) = some x

/-- What `json.dumps` writes, `json.loads` reads: texts, numbers, and what is put
together from values that are read back; and whatever was read once. -/
structure JsonLaws (P : Platform) (dumps : Json → Str) : Prop where
  null : ReadBack P dumps .null
  bool : ∀ b, ReadBack P dumps (.bool b)
  int : ∀ i, fitsColumn i = true → ReadBack P dumps (.int i)
  str : ∀ s, ReadBack P dumps (.str s)
  arr : ∀ items, ReadBack P dumps (.arr items) ↔ ∀ x ∈ items, ReadBack P dumps x
  obj : ∀ fields, ReadBack P dumps (.obj fields) ↔
    (Dict.names fields).Nodup ∧ ∀ f ∈ fields, ReadBack P dumps f.2
  loaded : ∀ text x, P.loads text = some x → ReadBack P dumps x
  notBlank : ∀ items, strip (dumps (.arr items)) ≠ []
  emptyList : P.loads (lit "[]") = some (.arr [])

/-! ## a stand-in -/

namespace Compact

open Dumps JsonText

mutual

/-- A value as it is written. -/
def details : Json → Details
  | .null => .null
  | .bool b => .bool b
  | .int i => .int i
  | .float text _ => .float text
  | .str s => .str (Text.ofStr s)
  | .arr items => .list (detailsItems items)
  | .obj fields => .dict (detailsFields fields)

def detailsItems : List Json → List Details
  | [] => []
  | item :: items => details item :: detailsItems items

def detailsFields : List (Str × Json) → List (Text × Details)
  | [] => []
  | (key, value) :: fields => (Text.ofStr key, details value) :: detailsFields fields

end

mutual

/-- A value as it is read; a float, or a name that is there twice, is not. -/
def value? : Details → Option Json
  | .null => some .null
  | .bool b => some (.bool b)
  | .int i => some (.int i)
  | .str s => (Text.toStr? s).map .str
  | .list items => (valueItems? items).map .arr
  | .dict fields => ((valueFields? fields).filter fun fields => (Dict.names fields).Nodup).map .obj
  | .float _ | .tuple _ => none

def valueItems? : List Details → Option (List Json)
  | [] => some []
  | item :: items => do
      let x ← value? item
      let xs ← valueItems? items
      some (x :: xs)

def valueFields? : List (Text × Details) → Option (List (Str × Json))
  | [] => some []
  | (key, item) :: fields => do
      let name ← Text.toStr? key
      let x ← value? item
      let xs ← valueFields? fields
      some ((name, x) :: xs)

end

/-- Written without blanks. -/
def dumps (x : Json) : Str := compact jsonFloat (details x)

/-- The reader of such texts. -/
def loads (text : Str) : Option Json := (parseJson text).bind value?

mutual

/-- There are no floats, and each name is there once. -/
def plain : Json → Bool
  | .float _ _ => false
  | .arr items => plainItems items
  | .obj fields => decide (Dict.names fields).Nodup && plainFields fields
  | _ => true

def plainItems : List Json → Bool
  | [] => true
  | item :: items => plain item && plainItems items

def plainFields : List (Str × Json) → Bool
  | [] => true
  | (_, value) :: fields => plain value && plainFields fields

end

/-- A list is plain if its items are. -/
theorem plainItems_iff {items : List Json} : plainItems items = true ↔ ∀ x ∈ items, plain x = true := by
  induction items with
  | nil => simp [plainItems]
  | cons item items ih => simp [plainItems, ih]

/-- An object is plain if its fields are. -/
theorem plainFields_iff {fields : List (Str × Json)} :
    plainFields fields = true ↔ ∀ f ∈ fields, plain f.2 = true := by
  induction fields with
  | nil => simp [plainFields]
  | cons field fields ih => simp [plainFields, ih]

mutual

/-- A plain value is read as it was written. -/
theorem value?_details (x : Json) (h : plain x = true) :
    value? (asJson (details x)) = some x ∧ readable (details x) = true := by
  cases x with
  | null => exact ⟨rfl, rfl⟩
  | bool b => exact ⟨rfl, rfl⟩
  | int i => exact ⟨rfl, rfl⟩
  | float text isZero => simp [plain] at h
  | str s => simp [details, asJson, value?, readable, hasPair_ofStr]
  | arr items =>
      have hitems := valueItems?_details items h
      simp [details, asJson, value?, readable, hitems]
  | obj fields =>
      rw [plain, Bool.and_eq_true] at h
      have hfields := valueFields?_details fields h.2
      have hnames := of_decide_eq_true h.1
      simp [details, asJson, value?, readable, hfields, hnames]

/-- A plain list is read back from its details. -/
theorem valueItems?_details (items : List Json) (h : plainItems items = true) :
    valueItems? (asJsonItems (detailsItems items)) = some items ∧
      readableItems (detailsItems items) = true := by
  cases items with
  | nil => exact ⟨rfl, rfl⟩
  | cons item items =>
      rw [plainItems, Bool.and_eq_true] at h
      have hitem := value?_details item h.1
      have hitems := valueItems?_details items h.2
      simp [detailsItems, asJsonItems, valueItems?, readableItems, hitem, hitems]

/-- A plain object is read back from its details. -/
theorem valueFields?_details (fields : List (Str × Json)) (h : plainFields fields = true) :
    valueFields? (asJsonFields (detailsFields fields)) = some fields ∧
      readableFields (detailsFields fields) = true := by
  cases fields with
  | nil => exact ⟨rfl, rfl⟩
  | cons field fields =>
      obtain ⟨key, value⟩ := field
      rw [plainFields, Bool.and_eq_true] at h
      have hvalue := value?_details value h.1
      have hfields := valueFields?_details fields h.2
      simp [detailsFields, asJsonFields, valueFields?, readableFields, hasPair_ofStr, hvalue,
        hfields]

end

mutual

/-- What is read is plain. -/
theorem plain_of_value? (a : Details) {x : Json} (h : value? a = some x) : plain x = true := by
  cases a with
  | null => rw [← Option.some.inj h]; rfl
  | bool b => rw [← Option.some.inj h]; rfl
  | int i => rw [← Option.some.inj h]; rfl
  | float text => contradiction
  | str s =>
      obtain ⟨t, -, ht⟩ := Option.map_eq_some_iff.mp h
      rw [← ht]
      rfl
  | tuple items => contradiction
  | list items =>
      obtain ⟨xs, hxs, hx⟩ := Option.map_eq_some_iff.mp h
      rw [← hx]
      exact plainItems_of_valueItems? items hxs
  | dict fields =>
      obtain ⟨xs, hxs, hx⟩ := Option.map_eq_some_iff.mp h
      rw [Option.filter_eq_some_iff] at hxs
      rw [← hx, plain, Bool.and_eq_true]
      exact ⟨hxs.2, plainFields_of_valueFields? fields hxs.1⟩

/-- What is read of a list is plain. -/
theorem plainItems_of_valueItems? (items : List Details) {xs : List Json}
    (h : valueItems? items = some xs) : plainItems xs = true := by
  cases items with
  | nil => rw [← Option.some.inj h]; rfl
  | cons item items =>
      simp only [valueItems?, Option.bind_eq_bind, Option.bind_eq_some_iff] at h
      obtain ⟨x, hx, ys, hys, h⟩ := h
      rw [← Option.some.inj h, plainItems, Bool.and_eq_true]
      exact ⟨plain_of_value? item hx, plainItems_of_valueItems? items hys⟩

/-- What is read of an object is plain. -/
theorem plainFields_of_valueFields? (fields : List (Text × Details)) {xs : List (Str × Json)}
    (h : valueFields? fields = some xs) : plainFields xs = true := by
  cases fields with
  | nil => rw [← Option.some.inj h]; rfl
  | cons field fields =>
      obtain ⟨key, item⟩ := field
      simp only [valueFields?, Option.bind_eq_bind, Option.bind_eq_some_iff] at h
      obtain ⟨name, -, x, hx, ys, hys, h⟩ := h
      rw [← Option.some.inj h, plainFields, Bool.and_eq_true]
      exact ⟨plain_of_value? item hx, plainFields_of_valueFields? fields hys⟩

end

/-- Python with this reader. -/
def platform : Platform := { Platform.plain with loads }

/-- Exactly the plain values are read back. -/
theorem readBack_iff {x : Json} : ReadBack platform dumps x ↔ plain x = true := by
  constructor
  · intro h
    obtain ⟨a, -, hvalue⟩ := Option.bind_eq_some_iff.mp h
    exact plain_of_value? a hvalue
  · intro h
    obtain ⟨hvalue, hreadable⟩ := value?_details x h
    have hparse := (parseJson_compact_iff keepsFloats_jsonFloat (details x)).mpr hreadable
    exact Option.bind_eq_some_iff.mpr ⟨_, hparse, hvalue⟩

/-- The laws hold of the reader and the writer. -/
theorem laws : JsonLaws platform dumps where
  null := readBack_iff.mpr rfl
  bool _ := readBack_iff.mpr rfl
  int _ _ := readBack_iff.mpr rfl
  str _ := readBack_iff.mpr rfl
  arr items := by simp [readBack_iff, plain, plainItems_iff]
  obj fields := by simp [readBack_iff, plain, plainFields_iff]
  loaded text x h := by
    obtain ⟨a, -, hvalue⟩ := Option.bind_eq_some_iff.mp h
    exact readBack_iff.mpr (plain_of_value? a hvalue)
  notBlank items h := by
    have hspace : isSpace '[' = true := strip_eq_nil_iff.mp h '[' List.mem_cons_self
    contradiction
  emptyList := rfl

end Compact

end ApiToDns
