import ApiToDns.RecordTypes

/-!
# Schemas

The request and response models of the record API (`schemas/dns.py`): the
plugin-facing `DnsRecordRequest`, the bodies of POST, PUT and PATCH with
their validators, and what a lookup returns.

A body arrives as a JSON object whose fields may be missing or null; a
`…Request` value exists only for a body its validators accept.
-/

namespace ApiToDns

open Py

variable (U : Ucd)

/-! ## plugin-facing models -/

/-- `DnsRecordInfo`. -/
structure DnsRecordInfo where
  recordName : Str
  recordType : Str
  ttl : Option Int
  values : Option (List Str)
deriving DecidableEq, Repr

/-- `DnsRecordListResult`. -/
structure DnsRecordListResult where
  records : List DnsRecordInfo
  truncated : Bool
deriving DecidableEq, Repr

/-- `DnsRecordRequest`: the record type may be the synthetic `DELETE`. -/
structure DnsRecordRequest where
  zoneName : Option Str
  recordType : Str
  recordName : Str
  ttl : Option Int
  values : List Str
deriving DecidableEq, Repr

/-- The synthetic record type. -/
def deleteType : Str := lit "DELETE"

/-- `DnsRecordRequest.validate_values_for_operation`. -/
def DnsRecordRequest.validate (r : DnsRecordRequest) : Except Exc DnsRecordRequest :=
  if upperType U r.recordType = deleteType then
    match r.values with
    | [] =>
        .error (.validationError
          (lit "DELETE requires values: first element must be the RR type to remove (e.g. [\"A\"])."))
    | value :: _ =>
        let inner := upperType U value
        match (RecordType.ofText? inner).filter RecordType.isMutable with
        | some _ => .ok r
        | none =>
            .error (.validationError (lit "DELETE target type must be one of " ++
              typeList RecordType.sortedMutable ++ lit "; got " ++ U.repr inner ++ lit "."))
  else if r.values = [] then
    .error (.validationError (lit "values is required for this record type."))
  else .ok r

/-- A request that passes is as it was. -/
theorem DnsRecordRequest.validate_ok {r r' : DnsRecordRequest} (h : r.validate U = .ok r') :
    r' = r := by
  unfold validate at h
  split at h
  · split at h
    · contradiction
    · simp only at h
      split at h
      · exact (Except.ok.inj h).symm
      · contradiction
  · split at h
    · contradiction
    · exact (Except.ok.inj h).symm

/-- No type is called DELETE. -/
theorem RecordType.text_ne_delete (t : RecordType) : t.text ≠ deleteType := by
  cases t <;> decide

/-- A request for a known type needs values. -/
theorem DnsRecordRequest.validate_of_type (r : DnsRecordRequest) (t : RecordType)
    (ht : r.recordType = t.text) (hv : r.values ≠ []) : r.validate U = .ok r := by
  unfold validate
  rw [ht, upperType_text, if_neg t.text_ne_delete, if_neg hv]

/-- DELETE is in capitals. -/
theorem upper_deleteType : U.upper deleteType = deleteType :=
  U.upper_eq_self (forall_mem_of_all (by decide))

/-- A deletion of a mutable type is well formed. -/
theorem DnsRecordRequest.validate_delete (r : DnsRecordRequest) (t : RecordType)
    (hd : r.recordType = deleteType) (hv : r.values = [t.text]) (ht : t.isMutable = true) :
    r.validate U = .ok r := by
  have hdel : upperType U deleteType = deleteType := by
    have hstrip : strip deleteType = deleteType := by decide
    rw [upperType, hstrip, upper_deleteType]
  unfold validate
  rw [hd, if_pos hdel, hv]
  simp [ht, Option.filter_some]

/-! ## request bodies -/

/-- A field of a JSON object. -/
inductive Field (α : Type) where
  | absent
  | null
  | given (a : α)
deriving DecidableEq, Repr

/-- The JSON object of a record request, its fields of the declared types. -/
structure RecordBody where
  zoneName : Field Str
  recordType : Field Str
  recordName : Field Str
  ttl : Field Int
  values : Field (List Str)
deriving DecidableEq, Repr

/-- One entry of a 422 answer. -/
inductive FieldError where
  /-- a required field is missing -/
  | missing (field : Str)
  /-- a field is of the wrong type -/
  | wrongType (field : Str)
  /-- the model validator raised -/
  | value (exc : Exc)
deriving DecidableEq, Repr

namespace Field

/-- The value of a field, `default` when it is missing.  For a field declared
`T | None` the result is the value; for one declared `T` an absent result is
a complaint. -/
def getOr (default : Option α) : Field α → Option α
  | absent => default
  | null => none
  | given a => some a

@[simp] theorem getOr_absent (default : Option α) : (absent : Field α).getOr default = default := rfl

@[simp] theorem getOr_null (default : Option α) : (null : Field α).getOr default = none := rfl

@[simp] theorem getOr_given (default : Option α) (a : α) : (given a).getOr default = some a := rfl

/-- The complaint about a field declared `T`; `required` tells whether it
has no default. -/
def check (name : Str) (required : Bool) : Field α → List FieldError
  | absent => if required then [.missing name] else []
  | null => [.wrongType name]
  | given _ => []

end Field

/-- The text of an empty value list's error. -/
def valuesRequired : Exc :=
  .valueError (lit "values is required and must contain at least one entry.")

/-- `DnsRecordCreateRequest`. -/
structure DnsRecordCreateRequest where
  zoneName : Option Str
  recordType : Str
  recordName : Str
  ttl : Option Int
  values : List Str
deriving DecidableEq, Repr

/-- The model validator that POST and PUT share. -/
def validateTypeAndValues (recordType : Str) (values : List Str) : Except Exc Unit := do
  let _ ← normalizePublicRecordType U recordType
  if values = [] then throw valuesRequired

/-- Parse the body of `POST /dns-record`. -/
def DnsRecordCreateRequest.parse (b : RecordBody) :
    Except (List FieldError) DnsRecordCreateRequest :=
  match b.recordType.getOr none, b.recordName.getOr none, b.values.getOr (some []) with
  | some recordType, some recordName, some values =>
      match validateTypeAndValues U recordType values with
      | .ok _ => .ok ⟨b.zoneName.getOr none, recordType, recordName, b.ttl.getOr (some 300), values⟩
      | .error exc => .error [.value exc]
  | _, _, _ =>
      .error (b.recordType.check (lit "record_type") true ++
        b.recordName.check (lit "record_name") true ++ b.values.check (lit "values") false)

/-- `DnsRecordReplaceRequest`. -/
structure DnsRecordReplaceRequest where
  zoneName : Option Str
  recordType : Str
  recordName : Str
  ttl : Int
  values : List Str
deriving DecidableEq, Repr

/-- Parse the body of `PUT /dns-record`. -/
def DnsRecordReplaceRequest.parse (b : RecordBody) :
    Except (List FieldError) DnsRecordReplaceRequest :=
  match b.recordType.getOr none, b.recordName.getOr none, b.ttl.getOr none,
      b.values.getOr (some []) with
  | some recordType, some recordName, some ttl, some values =>
      match validateTypeAndValues U recordType values with
      | .ok _ => .ok ⟨b.zoneName.getOr none, recordType, recordName, ttl, values⟩
      | .error exc => .error [.value exc]
  | _, _, _, _ =>
      .error (b.recordType.check (lit "record_type") true ++
        b.recordName.check (lit "record_name") true ++ b.ttl.check (lit "ttl") true ++
        b.values.check (lit "values") false)

/-- `DnsRecordPatchRequest`. -/
structure DnsRecordPatchRequest where
  zoneName : Option Str
  recordType : Str
  recordName : Str
  ttl : Option Int
  values : Option (List Str)
deriving DecidableEq, Repr

/-- The model validator of PATCH. -/
def DnsRecordPatchRequest.validate (r : DnsRecordPatchRequest) : Except Exc Unit := do
  let _ ← normalizePublicRecordType U r.recordType
  if r.ttl = none ∧ r.values = none then
    throw (.valueError (lit "At least one of ttl or values must be provided."))
  if r.values = some [] then
    throw (.valueError (lit "values must contain at least one entry when provided."))

/-- Parse the body of `PATCH /dns-record`. -/
def DnsRecordPatchRequest.parse (b : RecordBody) :
    Except (List FieldError) DnsRecordPatchRequest :=
  match b.recordType.getOr none, b.recordName.getOr none with
  | some recordType, some recordName =>
      let r : DnsRecordPatchRequest :=
        ⟨b.zoneName.getOr none, recordType, recordName, b.ttl.getOr none, b.values.getOr none⟩
      match r.validate U with
      | .ok _ => .ok r
      | .error exc => .error [.value exc]
  | _, _ =>
      .error (b.recordType.check (lit "record_type") true ++
        b.recordName.check (lit "record_name") true)

end ApiToDns
