import ApiToDns.Plugins.Base

/-!
# Mutation

Provider-neutral changes of one RRset (`dns_mutation.py`): normalise and
guard the request, look the RRset up, refuse or write.
-/

namespace ApiToDns

open Py

variable (U : Ucd)

/-- The `mode` of a change. -/
inductive Mode where
  | create | replace | patch | delete
deriving DecidableEq, Repr

/-- `DnsMutationOutcome`. -/
structure DnsMutationOutcome where
  status : Str
  action : Str
  httpStatus : Nat
  recordName : Str
  recordType : RecordType
  values : List Str
  dnsZone : Str
deriving DecidableEq, Repr

/-- `PreparedMutation`. -/
structure PreparedMutation where
  recordName : Str
  recordType : RecordType
  ttl : Int
  values : List Str
deriving DecidableEq, Repr

/-- `prepare_mutation`. -/
def prepareMutation (recordName recordType : Str) (ttl : Option Int) (values : List Str)
    (dnsZone : Option Str) (requireValues requireTtl : Bool) : Except Exc PreparedMutation := do
  let name := strip recordName
  if name = [] then throw (.valueError (lit "record_name is required."))
  let rt ← normalizeMutableRecordType U recordType
  guardMutationAllowed U name rt dnsZone
  let finalTtl ← validateTtl ttl requireTtl
  let finalValues ← if requireValues then normalizeRecordValues U rt values else pure []
  return ⟨name, rt, finalTtl, finalValues⟩

/-- `merge_patch`. -/
def mergePatch (existing : DnsRecordInfo) (patchTtl : Option Int)
    (patchValues : Option (List Str)) : Except Exc (Int × List Str) :=
  match existing.ttl, existing.values.getD [] with
  | some ttl, v :: vs => .ok (patchTtl.getD ttl, patchValues.getD (v :: vs))
  | _, _ =>
      .error (.patchMergeError (lit "Could not read existing TTL and values for PATCH merge."))

/-- `record_exists_at_type`. -/
def recordExistsAtType (settings : Dict) (recordName : Str) (rt : RecordType) :
    ProviderCode Bool := do
  let zone ← Code.lift (providerDnsZone U settings)
  let records ← getRecord recordName (some rt.text) (dnsServer settings) zone
  return !records.isEmpty

/-- The answer `action` of a change that was refused. -/
def refused (action : Str) (httpStatus : Nat) (recordName : Str) (rt : RecordType)
    (values : List Str) (zone : Str) : DnsMutationOutcome :=
  ⟨lit "error", action, httpStatus, recordName, rt, values, zone⟩

/-- The answer `action` of a change that was made. -/
def applied (action : Str) (recordName : Str) (rt : RecordType) (values : List Str)
    (zone : Str) : DnsMutationOutcome :=
  ⟨lit "success", action, 200, recordName, rt, values, zone⟩

/-- `apply_rrset_mutation`. -/
def applyRrsetMutation (settings : Dict) (zoneName : Str) (recordName : Str) (rt : RecordType)
    (ttl : Option Int) (values : List Str) (mode : Mode) : ProviderCode DnsMutationOutcome := do
  let zone ← Code.lift (providerDnsZone U settings)
  let exists_ ← recordExistsAtType U settings recordName rt
  if mode = .create ∧ exists_ then
    return refused (lit "record_already_exists") 409 recordName rt values zone
  if (mode = .replace ∨ mode = .delete) ∧ !exists_ then
    return refused (lit "not_found") 404 recordName rt (if mode = .delete then [] else values) zone
  if mode = .delete then
    -- `ttl or 300`
    let ttl := if ttl.getD 0 = 0 then 300 else ttl.getD 0
    let internal ← Code.lift (DnsRecordRequest.validate U
      ⟨some zoneName, deleteType, recordName, some ttl, [rt.text]⟩)
    let _ ← createOrUpdateRecord internal (dnsServer settings) zone
    return applied (lit "deleted") recordName rt [] zone
  else
    let internal ← Code.lift (DnsRecordRequest.validate U
      ⟨some zoneName, rt.text, recordName, some (ttl.getD 300), values⟩)
    let _ ← createOrUpdateRecord internal (dnsServer settings) zone
    let action := if mode = .create then lit "created" else lit "updated"
    return applied action recordName rt values zone

/-- `apply_patch_mutation`. -/
def applyPatchMutation (settings : Dict) (zoneName : Str) (recordName : Str) (rt : RecordType)
    (patchTtl : Option Int) (patchValues : Option (List Str)) :
    ProviderCode DnsMutationOutcome := do
  let zone ← Code.lift (providerDnsZone U settings)
  let records ← getRecord recordName (some rt.text) (dnsServer settings) zone
  match records with
  | [] => return refused (lit "not_found") 404 recordName rt (patchValues.getD []) zone
  | existing :: _ =>
      let (finalTtl, finalValues) ← Code.lift (mergePatch existing patchTtl patchValues)
      let internal ← Code.lift (DnsRecordRequest.validate U
        ⟨some zoneName, rt.text, recordName, some finalTtl, finalValues⟩)
      let _ ← createOrUpdateRecord internal (dnsServer settings) zone
      return applied (lit "updated") recordName rt finalValues zone

end ApiToDns
