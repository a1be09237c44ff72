import ApiToDns.Dumps

/-!
# Redaction

The details of an event in the activity log (`activity_logging.py`): what is
stored under a key that looks like a secret is replaced before anything is
written, and the text is cut off at a number of bytes.

* `redactDetails`, `detailsToJson` — the code;
* `SameOutside` — structures that differ under such keys only;
* `Writable` — the structures that the interpreter can write;
* `redacts_iff` — for these the same bounded text is written of both.
-/

namespace ApiToDns.Redaction

open Py Dumps

/-! ## redacting -/

/-- The Python that runs the code: how deep its functions call each other, and
how deep its encoder and `repr` go. -/
structure Interpreter where
  ucd : Ucd
  frames : Nat
  nesting : Nat

/-- `DETAILS_BYTE_CAP`. -/
def detailsByteCap : Nat := 4096

/-- `_SENSITIVE_KEY_FRAGMENTS`. -/
def sensitiveKeyFragments : List Str :=
  [lit "password", lit "secret", lit "token", lit "api_key", lit "apikey", lit "authorization",
    lit "auth", lit "credential", lit "client_secret", lit "tsig", lit "encryption_key"]

/-- `_REDACTED`. -/
def redacted : Text := Text.ofStr (lit "***redacted***")

/-- What stands at the end of a text that is cut off. -/
def truncated : Text := Text.ofStr (lit "...[truncated]")

/-- A text in the details, cut off. -/
def capText (s : Text) : Text :=
  if detailsByteCap < s.length then s.take detailsByteCap ++ truncated else s

section Redact

variable (U : Ucd)

/-- `_key_is_sensitive`. -/
def keyIsSensitive (key : Text) : Bool :=
  sensitiveKeyFragments.any fun fragment =>
    Text.contains (U.lowerText key) (Text.ofStr fragment)

mutual

/-- `redact_details`, with the calls that are left to the interpreter. -/
def redactDetails : Nat → Details → Except Exc Details
  | 0, _ => .error recursionError
  | n + 1, .dict fields => .dict <$> redactFields n fields
  | n + 1, .list items => .list <$> redactItems n items
  | n + 1, .tuple items => .list <$> redactItems n items
  | _ + 1, .str s => .ok (.str (capText s))
  | _ + 1, details => .ok details

def redactItems (n : Nat) : List Details → Except Exc (List Details)
  | [] => .ok []
  | item :: items => do
      let item ← redactDetails n item
      let items ← redactItems n items
      .ok (item :: items)

def redactFields (n : Nat) : List (Text × Details) → Except Exc (List (Text × Details))
  | [] => .ok []
  | (key, value) :: fields => do
      let value ← (if keyIsSensitive U key then .ok (.str redacted) else redactDetails n value)
      let fields ← redactFields n fields
      .ok ((key, value) :: fields)

end

end Redact

section Code

variable (I : Interpreter)

/-- `str(details)`. -/
def strDetails : Details → Except Exc Text
  | .str s => .ok s
  | details => write (reprStyle I.ucd) I.nesting details

/-- The text of the details, before it is cut off. -/
def encodedDetails (details : Details) : Except Exc Text := do
  let safe ← redactDetails I.ucd I.frames details
  match write jsonStyle I.nesting safe with
  | .ok encoded => .ok encoded
  | .error (.valueError _) =>
      let text ← strDetails I safe
      .ok (Text.ofStr (lit "\x7b\"unserializable\": ") ++ JsonText.quoteAscii text ++ [.char '\x7d'])
  | .error e => .error e

/-- A text is cut off where its bytes are too many. -/
def capBytes (encoded : Text) : Except Exc Text :=
  match Text.encode encoded with
  | none => .error (.valueError (lit "UnicodeEncodeError"))
  | some bytes =>
      if detailsByteCap < bytes.length then
        .ok (Text.ofStr (Utf8.decodeIgnore (bytes.take detailsByteCap)) ++ truncated)
      else .ok encoded

/-- `_details_to_json`. -/
def detailsToJson (details : Details) : Except Exc (Option Text) :=
  match details with
  | .null => .ok none
  | details => do
      let encoded ← encodedDetails I details
      some <$> capBytes encoded

end Code

/-! ## what is meant -/

/-- A key contains a sensitive fragment, in any letter case. -/
def HasFragment (key : Text) : Prop :=
  ∃ fragment ∈ sensitiveKeyFragments, ∃ pre w post,
    EqAsciiCase w fragment ∧ key = pre ++ Text.ofStr w ++ post

mutual

/-- The structures are equal, except for what is stored under keys that contain
a sensitive fragment. -/
inductive SameOutside : Details → Details → Prop where
  | null : SameOutside .null .null
  | bool (b : Bool) : SameOutside (.bool b) (.bool b)
  | int (i : Int) : SameOutside (.int i) (.int i)
  | float (text : Str) : SameOutside (.float text) (.float text)
  | str (s : Text) : SameOutside (.str s) (.str s)
  | list {items items' : List Details} (h : SameItems items items') :
      SameOutside (.list items) (.list items')
  | tuple {items items' : List Details} (h : SameItems items items') :
      SameOutside (.tuple items) (.tuple items')
  | dict {fields fields' : List (Text × Details)} (h : SameFields fields fields') :
      SameOutside (.dict fields) (.dict fields')

inductive SameItems : List Details → List Details → Prop where
  | nil : SameItems [] []
  | cons {a b : Details} {items items' : List Details} (h : SameOutside a b)
      (hs : SameItems items items') : SameItems (a :: items) (b :: items')

inductive SameFields : List (Text × Details) → List (Text × Details) → Prop where
  | nil : SameFields [] []
  | shown (key : Text) {a b : Details} {fields fields' : List (Text × Details)}
      (h : SameOutside a b) (hs : SameFields fields fields') :
      SameFields ((key, a) :: fields) ((key, b) :: fields')
  | hidden {key : Text} (hkey : HasFragment key) (a b : Details)
      {fields fields' : List (Text × Details)} (hs : SameFields fields fields') :
      SameFields ((key, a) :: fields) ((key, b) :: fields')

end

/-- The text takes so many bytes at most, and is `full` or whole characters of
its beginning before the marker. -/
def Bounded (full s : Text) : Prop :=
  (∃ bytes, Text.encode s = some bytes ∧ bytes.length ≤ detailsByteCap + truncated.length) ∧
    (s = full ∨ ∃ before, before <+: full ∧ s = before ++ truncated)

/-- The same bounded text is written of all structures that are the same outside
of sensitive keys. -/
def Redacts (I : Interpreter) (a : Details) : Prop :=
  ∀ b, SameOutside a b →
    ∃ out, detailsToJson I a = .ok out ∧ detailsToJson I b = .ok out ∧
      ∀ s ∈ out, ∃ full, encodedDetails I a = .ok full ∧ Bounded full s

mutual

/-- Outside of sensitive keys, the structure is not too deep, its numbers have
at most 4300 digits, and its texts have no surrogates as far as they are kept. -/
def writable (U : Ucd) : Nat → Nat → Details → Bool
  | 0, _, _ => false
  | _ + 1, _, .null | _ + 1, _, .bool _ | _ + 1, _, .float _ => true
  | _ + 1, _, .int i => i.natAbs < 10 ^ maxStrDigits
  | _ + 1, _, .str s => Text.encodable (capText s)
  | _ + 1, 0, .list _ | _ + 1, 0, .tuple _ | _ + 1, 0, .dict _ => false
  | f + 1, n + 1, .list items => writableItems U f n items
  | f + 1, n + 1, .tuple items => writableItems U f n items
  | f + 1, n + 1, .dict fields => writableFields U f n fields

def writableItems (U : Ucd) (f n : Nat) : List Details → Bool
  | [] => true
  | item :: items => writable U f n item && writableItems U f n items

def writableFields (U : Ucd) (f n : Nat) : List (Text × Details) → Bool
  | [] => true
  | (key, value) :: fields =>
      Text.encodable key && (keyIsSensitive U key || writable U f n value) &&
        writableFields U f n fields

end

/-- The interpreter can write the structure. -/
def Writable (I : Interpreter) (a : Details) : Prop := writable I.ucd I.frames I.nesting a = true

/-! ## two structures -/

section Same

variable {U : Ucd}

/-- Only ASCII is ASCII in lower case. -/
theorem isAscii_of_isAscii_toLower {c : Char} (h : isAscii c.toLower = true) : isAscii c = true := by
  have hlower := toNat_toLower c
  simp only [isAscii, decide_eq_true_eq] at h ⊢
  split at hlower <;> omega

/-- The code knows the keys with a sensitive fragment. -/
theorem keyIsSensitive_of_hasFragment {key : Text} (h : HasFragment key) :
    keyIsSensitive U key = true := by
  obtain ⟨fragment, hmem, pre, w, post, hw, rfl⟩ := h
  have hlower : ∀ fragment ∈ sensitiveKeyFragments, foldAscii fragment = fragment ∧
      ∀ c ∈ fragment, isAscii c = true := by decide
  obtain ⟨hfold, hascii⟩ := hlower fragment hmem
  have hword : foldAscii w = fragment := Eq.trans hw hfold
  have hwascii : ∀ c ∈ w, isAscii c = true := by
    intro c hc
    have hmem : c.toLower ∈ fragment := by
      rw [← hword]
      exact List.mem_map_of_mem hc
    exact isAscii_of_isAscii_toLower (hascii _ hmem)
  have hinfix := U.isInfix_lowerTextFrom hwascii [] pre post
  rw [hword] at hinfix
  exact List.any_eq_true.mpr ⟨fragment, hmem, Text.contains_iff.mpr hinfix⟩

mutual

/-- What is redacted of structures that are the same outside of sensitive keys
is the same. -/
theorem redactDetails_congr {a b : Details} (h : SameOutside a b) (n : Nat) :
    redactDetails U n a = redactDetails U n b := by
  cases n with
  | zero => simp [redactDetails]
  | succ n =>
      cases h with
      | null => rfl
      | bool => rfl
      | int => rfl
      | float => rfl
      | str => rfl
      | list h => simp [redactDetails, redactItems_congr h n]
      | tuple h => simp [redactDetails, redactItems_congr h n]
      | dict h => simp [redactDetails, redactFields_congr h n]

/-- So are the items of a list. -/
theorem redactItems_congr {items items' : List Details} (h : SameItems items items') (n : Nat) :
    redactItems U n items = redactItems U n items' := by
  cases h with
  | nil => rfl
  | cons h hs => simp [redactItems, redactDetails_congr h n, redactItems_congr hs n]

/-- So are the fields of an object. -/
theorem redactFields_congr {fields fields' : List (Text × Details)}
    (h : SameFields fields fields') (n : Nat) :
    redactFields U n fields = redactFields U n fields' := by
  cases h with
  | nil => rfl
  | shown key h hs => simp [redactFields, redactDetails_congr h n, redactFields_congr hs n]
  | hidden hkey a b hs =>
      simp [redactFields, keyIsSensitive_of_hasFragment hkey, redactFields_congr hs n]

end

/-- One text is written of both. -/
theorem detailsToJson_congr (I : Interpreter) {a b : Details} (h : SameOutside a b) :
    detailsToJson I a = detailsToJson I b := by
  have hencoded : encodedDetails I a = encodedDetails I b := by
    simp [encodedDetails, redactDetails_congr h]
  cases h <;> simp [detailsToJson, hencoded]

end Same

/-! ## what can be written -/

section Write

variable {U : Ucd}

mutual

/-- When a structure is redacted and written, without surrogates. -/
theorem writable_iff (f n : Nat) (a : Details) :
    (∃ safe encoded, redactDetails U f a = .ok safe ∧ write jsonStyle n safe = .ok encoded ∧
      Text.encodable encoded = true) ↔ writable U f n a = true := by
  cases f with
  | zero => simp [redactDetails, writable]
  | succ f =>
      cases a with
      | null => simp [redactDetails, write, writable]
      | bool b => simp [redactDetails, write, writable]
      | float text => simp [redactDetails, write, writable]
      | int i =>
          by_cases hlt : i.natAbs < 10 ^ maxStrDigits
          · simp [redactDetails, write, writable, hlt]
          · simp [redactDetails, write, writable, hlt]
      | str s => simp [redactDetails, write, writable, jsonStyle]
      | list items =>
          cases n with
          | zero => simp [redactDetails, map_eq_ok_iff, write, writable]
          | succ n =>
              rw [writable, ← writableItems_iff f n items]
              simp [redactDetails, map_eq_ok_iff, write, encodable_bracketed]
      | tuple items =>
          cases n with
          | zero => simp [redactDetails, map_eq_ok_iff, write, writable]
          | succ n =>
              rw [writable, ← writableItems_iff f n items]
              simp [redactDetails, map_eq_ok_iff, write, encodable_bracketed]
      | dict fields =>
          cases n with
          | zero => simp [redactDetails, map_eq_ok_iff, write, writable]
          | succ n =>
              rw [writable, ← writableFields_iff f n fields]
              simp [redactDetails, map_eq_ok_iff, write, encodable_bracketed]

/-- When the items of a list are written. -/
theorem writableItems_iff (f n : Nat) (items : List Details) :
    (∃ safe parts, redactItems U f items = .ok safe ∧ writeItems jsonStyle n safe = .ok parts ∧
      ∀ part ∈ parts, Text.encodable part = true) ↔ writableItems U f n items = true := by
  cases items with
  | nil => simp [redactItems, writeItems, writableItems]
  | cons a items =>
      rw [writableItems, Bool.and_eq_true, ← writable_iff f n a, ← writableItems_iff f n items]
      simp only [redactItems, bind_eq_ok_iff]
      constructor
      · intro h
        obtain ⟨_, parts, ⟨safe, hsafe, safes, hsafes, heq⟩, hw, hp⟩ := h
        obtain rfl := Except.ok.inj heq
        rw [writeItems, bind_eq_ok_iff] at hw
        obtain ⟨part, hpart, hw⟩ := hw
        obtain ⟨parts', hparts, heq⟩ := bind_eq_ok hw
        obtain rfl := Except.ok.inj heq
        exact ⟨⟨safe, part, hsafe, hpart, hp part (by simp)⟩,
          ⟨safes, parts', hsafes, hparts, fun p hmem => hp p (by simp [hmem])⟩⟩
      · intro h
        obtain ⟨⟨safe, part, hsafe, hpart, hp⟩, safes, parts, hsafes, hparts, hps⟩ := h
        refine ⟨safe :: safes, part :: parts, ⟨safe, hsafe, safes, hsafes, rfl⟩, ?_, ?_⟩
        · simp [writeItems, hpart, hparts]
        · simpa using ⟨hp, hps⟩

/-- When the fields of an object are written. -/
theorem writableFields_iff (f n : Nat) (fields : List (Text × Details)) :
    (∃ safe parts, redactFields U f fields = .ok safe ∧
      writeFields jsonStyle n safe = .ok parts ∧
      ∀ part ∈ parts, Text.encodable part = true) ↔ writableFields U f n fields = true := by
  cases fields with
  | nil => simp [redactFields, writeFields, writableFields]
  | cons field fields =>
      obtain ⟨key, a⟩ := field
      have hvalue : (∃ safe part,
          (if keyIsSensitive U key then .ok (.str redacted) else redactDetails U f a) = .ok safe ∧
          write jsonStyle n safe = .ok part ∧ Text.encodable part = true) ↔
            keyIsSensitive U key = true ∨ writable U f n a = true := by
        by_cases hkey : keyIsSensitive U key = true
        · simp [hkey, write, jsonStyle, redacted]
        · rw [← writable_iff f n a]
          simp [hkey]
      rw [writableFields, Bool.and_eq_true, ← writableFields_iff f n fields, Bool.and_eq_true,
        Bool.or_eq_true, ← hvalue]
      simp only [redactFields, bind_eq_ok_iff]
      constructor
      · intro h
        obtain ⟨_, parts, ⟨safe, hsafe, safes, hsafes, heq⟩, hw, hp⟩ := h
        obtain rfl := Except.ok.inj heq
        rw [writeFields, bind_eq_ok_iff] at hw
        obtain ⟨part, hpart, hw⟩ := hw
        obtain ⟨parts', hparts, heq⟩ := bind_eq_ok hw
        obtain rfl := Except.ok.inj heq
        have hfirst := hp (jsonStyle.str key ++ Text.ofStr jsonStyle.colon ++ part) (by simp)
        simp only [jsonStyle, Text.encodable_append, JsonText.encodable_quote,
          Text.encodable_ofStr, Bool.and_true, Bool.and_eq_true] at hfirst
        exact ⟨⟨hfirst.1, safe, part, hsafe, hpart, hfirst.2⟩, safes, parts', hsafes, hparts,
          fun p hmem => hp p (by simp [hmem])⟩
      · intro h
        obtain ⟨⟨hkey, safe, part, hsafe, hpart, hp⟩, safes, parts, hsafes, hparts, hps⟩ := h
        refine ⟨(key, safe) :: safes, (jsonStyle.str key ++ Text.ofStr jsonStyle.colon ++ part) :: parts,
          ⟨safe, hsafe, safes, hsafes, rfl⟩, ?_, ?_⟩
        · simp [writeFields, hpart, hparts]
        · simp only [List.forall_mem_cons]
          exact ⟨by simp [jsonStyle, hkey, hp], hps⟩

end

end Write

/-! ## cutting off -/

/-- What is cut off is whole characters before the marker. -/
theorem bounded_of_capBytes {full s : Text} (h : capBytes full = .ok s) : Bounded full s := by
  unfold capBytes at h
  cases henc : Text.encode full with
  | none => simp [henc] at h
  | some bytes =>
      obtain ⟨chars, hchars, rfl⟩ := Option.map_eq_some_iff.mp henc
      have hfull := Text.ofStr_of_toStr? hchars
      simp only [henc] at h
      split at h
      · obtain rfl := Except.ok.inj h
        obtain ⟨hpre, hlen⟩ := Utf8.decodeIgnore_take_encode chars detailsByteCap
        refine ⟨⟨Utf8.encode (Utf8.decodeIgnore ((Utf8.encode chars).take detailsByteCap) ++
          lit "...[truncated]"), ?_, ?_⟩, .inr ⟨_, ?_, rfl⟩⟩
        · have hjoin : ∀ a b : Str, Text.ofStr a ++ Text.ofStr b = Text.ofStr (a ++ b) := by
            simp [Text.ofStr]
          rw [Text.encode, truncated, hjoin, Text.toStr?_ofStr]
          rfl
        · have hmarker : (Utf8.encode (lit "...[truncated]")).length = truncated.length := by decide
          rw [Utf8.encode_append, List.length_append, hmarker]
          omega
        · rw [hfull]
          exact hpre.map _
      · next hfit =>
          obtain rfl := Except.ok.inj h
          exact ⟨⟨_, henc, by omega⟩, .inl rfl⟩

/-- A text is capped if it can be encoded. -/
theorem capBytes_ok_iff {full : Text} :
    (∃ s, capBytes full = .ok s) ↔ Text.encodable full = true := by
  rw [← Text.exists_toStr?_iff]
  unfold capBytes Text.encode
  cases hchars : Text.toStr? full with
  | none => simp
  | some chars =>
      simp only [Option.map_some]
      split <;> simp

section Code

variable {I : Interpreter} {a : Details}

/-- The text of `str` is not there when that of `json.dumps` is not. -/
theorem strDetails_error {e : Exc} (h : write jsonStyle I.nesting a = .error e) :
    strDetails I a = .error e := by
  cases a with
  | str s => simp [write] at h
  | null => exact write_error _ _ h
  | bool => exact write_error _ _ h
  | int => exact write_error _ _ h
  | float => exact write_error _ _ h
  | list => exact write_error _ _ h
  | tuple => exact write_error _ _ h
  | dict => exact write_error _ _ h

/-- The other way to write the details never helps. -/
theorem encodedDetails_ok_iff {full : Text} :
    encodedDetails I a = .ok full ↔ ∃ safe, redactDetails I.ucd I.frames a = .ok safe ∧
      write jsonStyle I.nesting safe = .ok full := by
  rw [encodedDetails, bind_eq_ok_iff]
  refine exists_congr fun safe => and_congr_right fun _ => ?_
  cases hw : write jsonStyle I.nesting safe with
  | ok encoded => simp
  | error e =>
      have hstr := strDetails_error hw
      cases e <;> simp [hstr]

/-- When a text is written of the details. -/
theorem detailsToJson_ok_iff :
    (∃ out, detailsToJson I a = .ok out) ↔ a = .null ∨ Writable I a := by
  by_cases hnull : a = .null
  · simp [hnull, detailsToJson]
  · have hjson : detailsToJson I a = (do
        let encoded ← encodedDetails I a
        some <$> capBytes encoded) := by
      cases a <;> first | contradiction | rfl
    rw [or_iff_right hnull, Writable, ← writable_iff, hjson]
    simp only [bind_eq_ok_iff, map_eq_ok_iff, encodedDetails_ok_iff]
    constructor
    · intro h
      obtain ⟨out, full, ⟨safe, hsafe, hwrite⟩, s, hcap, -⟩ := h
      exact ⟨safe, full, hsafe, hwrite, capBytes_ok_iff.mp ⟨s, hcap⟩⟩
    · intro h
      obtain ⟨safe, full, hsafe, hwrite, henc⟩ := h
      obtain ⟨s, hcap⟩ := capBytes_ok_iff.mpr henc
      exact ⟨some s, full, ⟨safe, hsafe, hwrite⟩, s, hcap, rfl⟩

/-- What is stored is bounded. -/
theorem bounded_of_detailsToJson {s : Text} (h : detailsToJson I a = .ok (some s)) :
    ∃ full, encodedDetails I a = .ok full ∧ Bounded full s := by
  have hjson : ∀ x : Except Exc Text, (do
      let encoded ← x
      some <$> capBytes encoded) = .ok (some s) → ∃ full, x = .ok full ∧ Bounded full s := by
    intro x hx
    obtain ⟨full, hfull, hcap⟩ := bind_eq_ok hx
    obtain ⟨s', hs', heq⟩ := map_eq_ok_iff.mp hcap
    obtain rfl := Option.some.inj heq
    exact ⟨full, hfull, bounded_of_capBytes hs'⟩
  cases a with
  | null => simp [detailsToJson] at h
  | bool => exact hjson _ h
  | int => exact hjson _ h
  | float => exact hjson _ h
  | str => exact hjson _ h
  | list => exact hjson _ h
  | tuple => exact hjson _ h
  | dict => exact hjson _ h

end Code

mutual

/-- A structure is the same as itself. -/
theorem sameOutside_self : (a : Details) → SameOutside a a
  | .null => .null
  | .bool b => .bool b
  | .int i => .int i
  | .float text => .float text
  | .str s => .str s
  | .list items => .list (sameItems_self items)
  | .tuple items => .tuple (sameItems_self items)
  | .dict fields => .dict (sameFields_self fields)

/-- So are its items. -/
theorem sameItems_self : (items : List Details) → SameItems items items
  | [] => .nil
  | a :: items => .cons (sameOutside_self a) (sameItems_self items)

/-- So are its fields. -/
theorem sameFields_self : (fields : List (Text × Details)) → SameFields fields fields
  | [] => .nil
  | (key, a) :: fields => .shown key (sameOutside_self a) (sameFields_self fields)

end

/-- The same bounded text is written of all structures that are the same outside
of sensitive keys, if the interpreter can write the structure. -/
theorem redacts_iff (I : Interpreter) (a : Details) :
    Redacts I a ↔ a = .null ∨ Writable I a := by
  rw [← detailsToJson_ok_iff]
  constructor
  · intro h
    obtain ⟨out, hout, -⟩ := h a (sameOutside_self a)
    exact ⟨out, hout⟩
  · intro h b hb
    obtain ⟨out, hout⟩ := h
    refine ⟨out, hout, by rw [← detailsToJson_congr I hb, hout], fun s hs => ?_⟩
    have hs := Option.mem_def.mp hs
    rw [hs] at hout
    exact bounded_of_detailsToJson hout

/-- A number of 4301 digits is not written. -/
def longNumber : Details := .dict [(Text.ofStr (lit "serial"), .int (10 ^ maxStrDigits : Nat))]

/-- The long number is not redacted. -/
theorem not_redacts_longNumber : ¬Redacts ⟨.ascii, 900, 900⟩ longNumber := by
  intro h
  obtain ⟨out, hout, -⟩ := h longNumber (sameOutside_self longNumber)
  have hkey : keyIsSensitive .ascii (Text.ofStr (lit "serial")) = false := by decide
  have hlong : ¬((10 ^ maxStrDigits : Nat) : Int).natAbs < 10 ^ maxStrDigits := by
    rw [Int.natAbs_natCast]
    exact Nat.lt_irrefl _
  cases detailsToJson_ok_iff.mp ⟨out, hout⟩ with
  | inl hnull => cases hnull
  | inr hwrite =>
      have hshort : ((10 ^ maxStrDigits : Nat) : Int).natAbs < 10 ^ maxStrDigits := by
        simpa only [Writable, longNumber, writable, writableFields, hkey, Text.encodable_ofStr,
          Bool.false_or, Bool.true_and, Bool.and_true, decide_eq_true_eq] using hwrite
      exact hlong hshort

end ApiToDns.Redaction
