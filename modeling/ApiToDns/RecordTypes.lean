import ApiToDns.Exceptions
import ApiToDns.Py.IpAddress
import ApiToDns.Py.Re

/-!
# RecordTypes

Record types, TTLs and value validation (`dns_record_types.py`).

A record type arrives as free text; the `normalize…RecordType` functions turn
it into a `RecordType`, and everything behind them works on that.
-/

namespace ApiToDns

open Py

/-- The record types the program knows (`LOOKUP_RECORD_TYPES`). -/
inductive RecordType where
  | a | aaaa | cname | txt | mx | ns | srv | caa | ptr | soa
deriving DecidableEq, Repr

namespace RecordType

/-- The type's name. -/
def text : RecordType → Str
  | a => lit "A"
  | aaaa => lit "AAAA"
  | cname => lit "CNAME"
  | txt => lit "TXT"
  | mx => lit "MX"
  | ns => lit "NS"
  | srv => lit "SRV"
  | caa => lit "CAA"
  | ptr => lit "PTR"
  | soa => lit "SOA"

/-- The types in the order of `LOOKUP_RECORD_TYPES`. -/
def all : List RecordType := [a, aaaa, cname, txt, mx, ns, srv, caa, ptr, soa]

/-- The type of that name, if any. -/
def ofText? (s : Str) : Option RecordType := all.find? fun t => t.text == s

/-- Types differ in their names. -/
theorem text_injective {t t' : RecordType} (h : t.text = t'.text) : t = t' := by
  revert h; cases t <;> cases t' <;> decide

/-- A type is found by its name. -/
@[simp] theorem ofText?_text (t : RecordType) : ofText? t.text = some t := by
  cases t <;> decide

/-- A type that is found has the name. -/
theorem text_of_ofText? {s : Str} {t : RecordType} (h : ofText? s = some t) : t.text = s := by
  have := List.find?_some h
  simpa using this

/-- `RecordTypeSpec.multiple`: the type may hold several values. -/
def multiple : RecordType → Bool
  | cname | soa => false
  | _ => true

/-- Membership in `MUTABLE_RECORD_TYPES`. -/
def isMutable (t : RecordType) : Bool := t ≠ soa

/-- Membership in `PUBLIC_RECORD_TYPES`. -/
def isPublic : RecordType → Bool
  | a | aaaa | cname | txt => true
  | _ => false

/-- `sorted(MUTABLE_RECORD_TYPES)`. -/
def sortedMutable : List RecordType := [a, aaaa, caa, cname, mx, ns, ptr, srv, txt]

/-- `sorted(PUBLIC_RECORD_TYPES)`. -/
def sortedPublic : List RecordType := [a, aaaa, cname, txt]

/-- The public types are mutable. -/
theorem isMutable_of_isPublic {t : RecordType} (h : t.isPublic = true) : t.isMutable = true := by
  cases t <;> simp_all [isPublic, isMutable]

end RecordType

/-- `", ".join(types)`. -/
def typeList (ts : List RecordType) : Str := join (lit ", ") (ts.map RecordType.text)

variable (U : Ucd)

/-- `record_type.strip().upper()`. -/
def upperType (recordType : Str) : Str := U.upper (strip recordType)

/-- The names of types are capitals. -/
@[simp] theorem upper_text (t : RecordType) : U.upper t.text = t.text := by
  have hupper : ∀ c ∈ t.text, isAscii c = true ∧ c.toUpper = c := by
    cases t <;> exact forall_mem_of_all (by decide)
  exact U.upper_eq_self hupper

/-- They have no whitespace around them. -/
theorem strip_text (t : RecordType) : strip t.text = t.text := by
  cases t <;> decide

/-- They are read as they are. -/
@[simp] theorem upperType_text (t : RecordType) : upperType U t.text = t.text := by
  rw [upperType, strip_text, upper_text]

/-- `normalize_lookup_record_type`: blank text asks for every type. -/
def normalizeLookupRecordType (recordType : Option Str) : Except Exc (Option RecordType) :=
  match recordType with
  | none => .ok none
  | some s =>
      if strip s = [] then .ok none
      else
        match RecordType.ofText? (upperType U s) with
        | some t => .ok (some t)
        | none =>
            .error (.valueError (lit "Record type must be one of " ++ typeList RecordType.all ++
              lit "; got " ++ U.repr s ++ lit "."))

/-- A record type that must belong to a set, listed in the error. -/
def normalizeRecordTypeIn (ok : RecordType → Bool) (listed : List RecordType) (recordType : Str) :
    Except Exc RecordType :=
  match (RecordType.ofText? (upperType U recordType)).filter ok with
  | some t => .ok t
  | none =>
      .error (.valueError (lit "record_type must be one of " ++ typeList listed ++
        lit "; got " ++ U.repr recordType ++ lit "."))

/-- `normalize_mutable_record_type`. -/
def normalizeMutableRecordType (recordType : Str) : Except Exc RecordType :=
  normalizeRecordTypeIn U RecordType.isMutable RecordType.sortedMutable recordType

/-- `normalize_public_record_type`. -/
def normalizePublicRecordType (recordType : Str) : Except Exc RecordType :=
  normalizeRecordTypeIn U RecordType.isPublic RecordType.sortedPublic recordType

/-- When a type is accepted. -/
theorem normalizeRecordTypeIn_ok_iff {ok : RecordType → Bool} {listed : List RecordType} {s : Str}
    {t : RecordType} :
    normalizeRecordTypeIn U ok listed s = .ok t ↔
      RecordType.ofText? (upperType U s) = some t ∧ ok t = true := by
  unfold normalizeRecordTypeIn
  cases h : RecordType.ofText? (upperType U s) with
  | none => simp
  | some t' =>
      rw [Option.filter_some]
      by_cases hok : ok t' = true
      · simp only [hok, if_true, Except.ok.injEq, Option.some.injEq]
        constructor
        · rintro rfl; exact ⟨rfl, hok⟩
        · intro h; exact h.1
      · simp only [hok]
        constructor
        · intro h; simp at h
        · rintro ⟨h, h'⟩
          rw [Option.some.injEq] at h
          rw [h] at hok
          exact absurd h' hok

/-- A type the program already normalised passes again. -/
theorem normalizeRecordTypeIn_text {ok : RecordType → Bool} {listed : List RecordType}
    {t : RecordType} (h : ok t = true) : normalizeRecordTypeIn U ok listed t.text = .ok t := by
  rw [normalizeRecordTypeIn_ok_iff]
  simp [h]

/-- A text that names no type of the set raises a `ValueError`. -/
theorem normalizeRecordTypeIn_error {ok : RecordType → Bool} {listed : List RecordType} {s : Str}
    (h : (RecordType.ofText? (upperType U s)).filter ok = none) :
    ∃ msg, normalizeRecordTypeIn U ok listed s = .error (.valueError msg) := by
  unfold normalizeRecordTypeIn
  rw [h]
  exact ⟨_, rfl⟩

/-- `lookup_record_types_to_query`. -/
def lookupRecordTypesToQuery (recordType : Option Str) : Except Exc (List RecordType) :=
  (normalizeLookupRecordType U recordType).map fun t =>
    match t with
    | some t => [t]
    | none => RecordType.all

/-- A lookup of one type queries it. -/
theorem lookupRecordTypesToQuery_text (t : RecordType) :
    lookupRecordTypesToQuery U (some t.text) = .ok [t] := by
  have hne : strip t.text ≠ [] := by
    rw [strip_text]
    cases t <;> decide
  simp only [lookupRecordTypesToQuery, normalizeLookupRecordType, if_neg hne, upperType_text,
    RecordType.ofText?_text]
  rfl

/-! ## TTL -/

/-- `MAX_TTL`. -/
def maxTtl : Int := 2147483647

/-- `validate_ttl`. -/
def validateTtl (ttl : Option Int) (required : Bool) : Except Exc Int :=
  match ttl with
  | none => if required then .error (.valueError (lit "ttl is required.")) else .ok 300
  | some t =>
      if t < 0 ∨ maxTtl < t then
        .error (.valueError (lit "ttl must be between 0 and " ++ intStr maxTtl ++ lit "."))
      else .ok t

/-- An accepted TTL is in range, and is the one asked for if one was. -/
theorem validateTtl_ok {ttl : Option Int} {required : Bool} {t : Int}
    (h : validateTtl ttl required = .ok t) :
    0 ≤ t ∧ t ≤ maxTtl ∧ ttl.getD 300 = t := by
  unfold validateTtl at h
  cases ttl with
  | none =>
      cases required with
      | true => simp at h
      | false =>
          have ht : (300 : Int) = t := by simpa using h
          subst ht
          exact ⟨by decide, by decide, rfl⟩
  | some t' =>
      simp only at h
      split at h
      · contradiction
      · next hrange =>
          have ht : t' = t := by simpa using h
          subst ht
          rw [not_or] at hrange
          exact ⟨by omega, by omega, rfl⟩

/-! ## host names -/

/-- The class `[A-Za-z0-9_-]`. -/
def isHostChar (c : Char) : Bool := (isAscii c && c.isAlphanum) || c == '_' || c == '-'

/-- `(?!-)[A-Za-z0-9_-]{1,63}(?<!-)`. -/
def labelRe : Re :=
  .seq (.notAhead '-') (.seq (.run isHostChar 1 63) (.notBehind '-'))

/-- `_HOSTNAME_RE`:
`^(?=.{1,253}$)(?!-)[A-Za-z0-9_-]{1,63}(?<!-)(\.(?!-)[A-Za-z0-9_-]{1,63}(?<!-))*\.?$`. -/
def hostnameRe : Re :=
  .seq (.ahead (.seq (.run (· ≠ '\n') 1 253) .atEnd)) <|
  .seq labelRe <|
  .seq (.star (.seq (.char (· == '.')) labelRe)) <|
  .seq (.opt (.char (· == '.'))) .atEnd

/-- `normalize_hostname`. -/
def normalizeHostname (value : Str) : Except Exc Str :=
  let host := rstripDots (strip value)
  if host = [] ∨ hostnameRe.isMatch host = false then
    .error (.valueError (lit "Invalid hostname: " ++ U.repr value ++ lit "."))
  else .ok host

/-! ## structured values -/

/-- `_parse_uint`. -/
def parseUint (token field : Str) (maximum : Nat) : Except Exc Nat :=
  match U.parseInt token with
  | none => .error (.valueError (field ++ lit " must be an integer."))
  | some value =>
      if value < 0 ∨ (maximum : Int) < value then
        .error (.valueError (field ++ lit " must be between 0 and " ++ natStr maximum ++
          lit "."))
      else .ok value.toNat

/-- `parse_mx`. -/
def parseMx (value : Str) : Except Exc (Nat × Str) :=
  match splitWords (strip value) with
  | [priority, exchange] => do
      let priority ← parseUint U priority (lit "priority") 65535
      let exchange ← normalizeHostname U exchange
      return (priority, exchange)
  | _ => .error (.valueError (lit "MX value must be: priority exchange"))

/-- `parse_srv`. -/
def parseSrv (value : Str) : Except Exc (Nat × Nat × Nat × Str) :=
  match splitWords (strip value) with
  | [priority, weight, port, target] => do
      let priority ← parseUint U priority (lit "priority") 65535
      let weight ← parseUint U weight (lit "weight") 65535
      let port ← parseUint U port (lit "port") 65535
      let target ← normalizeHostname U target
      return (priority, weight, port, target)
  | _ => .error (.valueError (lit "SRV value must be: priority weight port target"))

/-- `_CAA_TAG_RE`: `^[A-Za-z0-9]+$`. -/
def caaTagMatches (tag : Str) : Bool :=
  let alnum := fun (t : Str) => !t.isEmpty && t.all fun c => isAscii c && c.isAlphanum
  -- `$` also matches before a final line feed
  alnum tag || (tag.getLast? == some '\n' && alnum tag.dropLast)

/-- `parse_caa`. -/
def parseCaa (value : Str) : Except Exc (Nat × Str × Str) :=
  match splitWordsMax 2 (strip value) with
  | [flags, tag, caaValue] => do
      let flags ← parseUint U flags (lit "flags") 255
      let tag := strip tag
      if !caaTagMatches tag then
        throw (.valueError (lit "Invalid CAA tag: " ++ U.repr tag ++ lit "."))
      let caaValue := strip caaValue
      if caaValue = [] then
        throw (.valueError (lit "CAA value is required."))
      let quoted := startsWith caaValue ['"'] && endsWith caaValue ['"']
      if ' ' ∈ caaValue ∧ !quoted then
        return (flags, U.lower tag, ['"'] ++ caaValue ++ ['"'])
      return (flags, U.lower tag, caaValue)
  | _ => .error (.valueError (lit "CAA value must be: flags tag value"))

/-! ## guards -/

/-- `is_reverse_zone`. -/
def isReverseZone (dnsZone : Str) : Bool :=
  let z := U.lower (rstripDots (strip dnsZone))
  endsWith z (lit ".in-addr.arpa") || endsWith z (lit ".ip6.arpa")

/-- `is_apex_name`. -/
def isApexName (recordName : Str) (dnsZone : Option Str) : Bool :=
  let name := rstripDots (strip recordName)
  if name = [] ∨ name = ['@'] then true
  else
    match dnsZone with
    | none => false
    | some dnsZone =>
        if dnsZone = [] then false
        else
          let zone := rstripDots (strip dnsZone)
          if zone = [] then false
          else if U.lower name = U.lower zone then true
          else
            let suffix := '.' :: U.lower zone
            endsWith (U.lower name) suffix && dropEnd (U.lower name) suffix.length == []

/-- `guard_mutation_allowed`. -/
def guardMutationAllowed (recordName : Str) (rt : RecordType) (dnsZone : Option Str) :
    Except Exc Unit :=
  if rt = .soa then
    .error (.valueError
      (lit "SOA records are view-only and cannot be created, edited, or deleted."))
  else if rt = .ns ∧ isApexName U recordName dnsZone then
    .error (.valueError (lit "Apex NS records cannot be modified from the admin DNS browser."))
  else if rt = .ptr ∧ (dnsZone.getD [] ≠ [] ∧ !isReverseZone U (dnsZone.getD [])) then
    .error (.valueError
      (lit "PTR records may only be managed in reverse zones (in-addr.arpa or ip6.arpa)."))
  else .ok ()

/-! ## values -/

/-- An address value of the family `version`. -/
def normalizeAddress (version : Nat) (article : Str) (raw value : Str) : Except Exc Str :=
  match IpAddress.parse raw with
  | none =>
      .error (.valueError (U.repr raw ++ lit " does not appear to be an IPv4 or IPv6 address"))
  | some addr =>
      if addr.version ≠ version then
        .error (.valueError (article ++ lit " address; got " ++ U.repr value ++ lit "."))
      else .ok addr.format

/-- `normalize_record_value`. -/
def normalizeRecordValue (rt : RecordType) (value : Str) : Except Exc Str :=
  let raw := strip value
  if raw = [] then .error (.valueError (lit "Record values must not be empty."))
  else
    match rt with
    | .a => normalizeAddress U 4 (lit "A record requires an IPv4") raw value
    | .aaaa => normalizeAddress U 6 (lit "AAAA record requires an IPv6") raw value
    | .cname | .ns | .ptr => normalizeHostname U raw
    | .txt | .soa => .ok raw
    | .mx => do
        let (priority, exchange) ← parseMx U raw
        return natStr priority ++ [' '] ++ exchange
    | .srv => do
        let (priority, weight, port, target) ← parseSrv U raw
        return natStr priority ++ [' '] ++ natStr weight ++ [' '] ++ natStr port ++ [' '] ++ target
    | .caa => do
        let (flags, tag, caaValue) ← parseCaa U raw
        return natStr flags ++ [' '] ++ tag ++ [' '] ++ caaValue

/-- `normalize_record_values`. -/
def normalizeRecordValues (rt : RecordType) (values : List Str) : Except Exc (List Str) :=
  if values = [] then
    .error (.valueError (lit "values is required and must contain at least one entry."))
  else if !rt.multiple ∧ values.length ≠ 1 then
    .error (.valueError (rt.text ++ lit " requires exactly one value."))
  else values.mapM (normalizeRecordValue U rt)

/-- `format_mx`. -/
def formatMx (priority : Int) (exchange : Str) : Except Exc Str := do
  let exchange ← normalizeHostname U exchange
  return intStr priority ++ [' '] ++ exchange

/-- `format_srv`. -/
def formatSrv (priority weight port : Int) (target : Str) : Except Exc Str := do
  let target ← normalizeHostname U target
  return intStr priority ++ [' '] ++ intStr weight ++ [' '] ++ intStr port ++ [' '] ++ target

/-- `format_caa`. -/
def formatCaa (flags : Int) (tag value : Str) : Except Exc Str :=
  normalizeRecordValue U .caa (intStr flags ++ [' '] ++ tag ++ [' '] ++ value)

/-! ## what validation raises -/

/-- `normalize_hostname` raises value errors only. -/
theorem raises_normalizeHostname (value : Str) : RaisesValueError (normalizeHostname U value) :=
  .ite (.error rfl) (.ok _)

/-- So does reading a number. -/
theorem raises_parseUint (token field : Str) (maximum : Nat) :
    RaisesValueError (parseUint U token field maximum) := by
  unfold parseUint
  cases U.parseInt token with
  | none => exact .error rfl
  | some value => exact .ite (.error rfl) (.ok _)

/-- So does `parse_mx`. -/
theorem raises_parseMx (value : Str) : RaisesValueError (parseMx U value) := by
  unfold parseMx
  split
  · exact .bind (raises_parseUint U _ _ _) fun _ =>
      .bind (raises_normalizeHostname U _) fun _ => .pure _
  · exact .error rfl

/-- So does `parse_srv`. -/
theorem raises_parseSrv (value : Str) : RaisesValueError (parseSrv U value) := by
  unfold parseSrv
  split
  · exact .bind (raises_parseUint U _ _ _) fun _ => .bind (raises_parseUint U _ _ _) fun _ =>
      .bind (raises_parseUint U _ _ _) fun _ =>
        .bind (raises_normalizeHostname U _) fun _ => .pure _
  · exact .error rfl

/-- So does `parse_caa`. -/
theorem raises_parseCaa (value : Str) : RaisesValueError (parseCaa U value) := by
  unfold parseCaa
  split
  · refine .bind (raises_parseUint U _ _ _) fun _ => .ite (.error rfl) ?_
    exact .ite (.error rfl) (.ite (.pure _) (.pure _))
  · exact .error rfl

/-- So does reading an address. -/
theorem raises_normalizeAddress (version : Nat) (article raw value : Str) :
    RaisesValueError (normalizeAddress U version article raw value) := by
  unfold normalizeAddress
  cases IpAddress.parse raw with
  | none => exact .error rfl
  | some addr => exact .ite (.error rfl) (.ok _)

/-- So does `normalize_record_value`. -/
theorem raises_normalizeRecordValue (rt : RecordType) (value : Str) :
    RaisesValueError (normalizeRecordValue U rt value) := by
  refine .ite (.error rfl) ?_
  cases rt with
  | a | aaaa => exact raises_normalizeAddress U _ _ _ _
  | cname | ns | ptr => exact raises_normalizeHostname U _
  | txt | soa => exact .ok _
  | mx => exact .bind (raises_parseMx U _) fun _ => .pure _
  | srv => exact .bind (raises_parseSrv U _) fun _ => .pure _
  | caa => exact .bind (raises_parseCaa U _) fun _ => .pure _

/-- So does `normalize_record_values`. -/
theorem raises_normalizeRecordValues (rt : RecordType) (values : List Str) :
    RaisesValueError (normalizeRecordValues U rt values) :=
  .ite (.error rfl) (.ite (.error rfl) (.mapM (raises_normalizeRecordValue U rt) values))

/-- One normalised value for every value, and at least one. -/
theorem length_normalizeRecordValues {rt : RecordType} {values out : List Str}
    (h : normalizeRecordValues U rt values = .ok out) :
    out.length = values.length ∧ values ≠ [] := by
  unfold normalizeRecordValues at h
  split at h
  · contradiction
  · next hne =>
      split at h
      · contradiction
      · exact ⟨(mapM_eq_ok_iff.mp h).length_eq.symm, hne⟩

variable {U}

/-- Normalised values, one by one. -/
theorem normalizeRecordValues_ok {rt : RecordType} {values out : List Str}
    (h : normalizeRecordValues U rt values = .ok out) :
    values.mapM (normalizeRecordValue U rt) = .ok out ∧
      (rt = .cname → ∃ value, out = [value]) := by
  have hlen := length_normalizeRecordValues U h
  unfold normalizeRecordValues at h
  split at h
  · contradiction
  · split at h
    · contradiction
    · next hone =>
        refine ⟨h, fun hrt => List.length_eq_one_iff.mp ?_⟩
        rw [hrt] at hone
        rw [hlen.1]
        simpa [RecordType.multiple] using hone

end ApiToDns
