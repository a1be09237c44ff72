import ApiToDns.Mutation

/-!
# RecordApi

The mutating routes of `/dns-record` behind authorization: what
`routes/dns_api.py` passes on, and the part of `_apply_dns_mutation` that
follows once the zone configuration is resolved and the client is built.
-/

namespace ApiToDns

open Py

variable (U : Ucd)

/-- `DnsRecordResponse`. -/
structure DnsRecordResponse where
  status : Str
  action : Str
  zoneName : Str
  dnsZone : Str
  recordName : Str
  recordType : RecordType
  values : List Str
deriving DecidableEq, Repr

/-- The answer to a mutating request. -/
inductive Reply where
  | record (httpStatus : Nat) (body : DnsRecordResponse)
  | error (e : HttpError)
  /-- 422: the request does not fit its schema -/
  | unprocessable (errors : List FieldError)
deriving DecidableEq, Repr

/-- The HTTP status of an answer. -/
def Reply.httpStatus : Reply → Nat
  | record httpStatus _ => httpStatus
  | error e => e.status
  | unprocessable _ => 422

/-- The answer that carries an outcome. -/
def DnsMutationOutcome.reply (zoneName : Str) (o : DnsMutationOutcome) : Reply :=
  .record o.httpStatus
    ⟨o.status, o.action, zoneName, o.dnsZone, o.recordName, o.recordType, o.values⟩

/-! ## the routes -/

/-- What a route passes to `_apply_dns_mutation`. -/
structure MutationCall where
  zoneName : Option Str
  recordName : Str
  recordType : Str
  ttl : Option Int
  values : List Str
  mode : Mode
  patchTtl : Option Int
  patchValues : Option (List Str)
deriving DecidableEq, Repr

/-- A mutating request of `/dns-record`; DELETE takes query parameters. -/
inductive RecordRequest where
  | post (body : RecordBody)
  | put (body : RecordBody)
  | patch (body : RecordBody)
  | delete (zoneName recordName recordType : Option Str)
deriving DecidableEq, Repr

/-- `create_dns_record`. -/
def createDnsRecord (payload : DnsRecordCreateRequest) : MutationCall :=
  ⟨payload.zoneName, payload.recordName, payload.recordType, payload.ttl, payload.values, .create,
    none, none⟩

/-- `replace_dns_record`. -/
def replaceDnsRecord (payload : DnsRecordReplaceRequest) : MutationCall :=
  ⟨payload.zoneName, payload.recordName, payload.recordType, some payload.ttl, payload.values,
    .replace, none, none⟩

/-- `patch_dns_record`. -/
def patchDnsRecord (payload : DnsRecordPatchRequest) : MutationCall :=
  ⟨payload.zoneName, payload.recordName, payload.recordType, none, [], .patch, payload.ttl,
    payload.values⟩

/-- `delete_dns_record`. -/
def deleteDnsRecord (zoneName recordName recordType : Str) : Except HttpError MutationCall :=
  match normalizePublicRecordType U recordType with
  | .ok rt => .ok ⟨some zoneName, recordName, rt.text, none, [], .delete, none, none⟩
  | .error (.valueError msg) => .error ⟨400, .error (lit "invalid_request") msg⟩
  | .error exc => .error (httpExceptionFromDnsError exc)

/-- A missing query parameter. -/
def missingParam (name : Str) : Option Str → List FieldError
  | none => [.missing name]
  | some _ => []

/-- From the request to the arguments of `_apply_dns_mutation`, or the answer
to a request that is refused before. -/
def RecordRequest.call : RecordRequest → Except Reply MutationCall
  | post body =>
      match DnsRecordCreateRequest.parse U body with
      | .ok payload => .ok (createDnsRecord payload)
      | .error errors => .error (.unprocessable errors)
  | put body =>
      match DnsRecordReplaceRequest.parse U body with
      | .ok payload => .ok (replaceDnsRecord payload)
      | .error errors => .error (.unprocessable errors)
  | patch body =>
      match DnsRecordPatchRequest.parse U body with
      | .ok payload => .ok (patchDnsRecord payload)
      | .error errors => .error (.unprocessable errors)
  | delete (some zoneName) (some recordName) (some recordType) =>
      match deleteDnsRecord U zoneName recordName recordType with
      | .ok c => .ok c
      | .error e => .error (.error e)
  | delete zoneName recordName recordType =>
      .error (.unprocessable (missingParam (lit "zone_name") zoneName ++
        missingParam (lit "record_name") recordName ++ missingParam (lit "record_type") recordType))

/-! ## the change -/

namespace MutationCall

/-- The TTL that is validated. -/
def ttlToCheck (c : MutationCall) : Option Int := if c.mode = .patch then c.patchTtl else c.ttl

/-- The values that are validated. -/
def valuesToCheck (c : MutationCall) : List Str :=
  if c.mode = .delete ∨ c.mode = .patch then c.patchValues.getD [] else c.values

/-- Whether there must be values. -/
def requireValues (c : MutationCall) : Bool :=
  (c.mode ≠ .delete ∧ c.mode ≠ .patch) ∨ (c.mode = .patch ∧ c.patchValues ≠ none)

/-- `prepare_mutation` on the arguments. -/
def prepare (c : MutationCall) (providerDomain : Str) : Except Exc PreparedMutation :=
  prepareMutation U c.recordName (upperType U c.recordType) c.ttlToCheck c.valuesToCheck
    (some providerDomain) c.requireValues (c.mode = .replace)

/-- The `try` body of `_apply_dns_mutation` from the built client on;
`zoneName` is the name of the resolved configuration. -/
def run (settings : Dict) (zoneName : Str) (c : MutationCall) : ProviderCode Reply := do
  let providerDomain ← Code.lift (providerDnsZone U settings)
  let prepared ← Code.lift (c.prepare U providerDomain)
  if c.mode = .patch then
    tryCatch
      (do
        let outcome ← applyPatchMutation U settings zoneName prepared.recordName
          prepared.recordType (c.patchTtl.map fun _ => prepared.ttl)
          (c.patchValues.map fun _ => prepared.values)
        return outcome.reply zoneName)
      fun exc =>
        match exc with
        | .patchMergeError msg => return .error ⟨502, .error (lit "dns_provider_failed") msg⟩
        | exc => throw exc
  else
    let outcome ← applyRrsetMutation U settings zoneName prepared.recordName prepared.recordType
      (some prepared.ttl) prepared.values c.mode
    return outcome.reply zoneName

end MutationCall

/-- A change in the admin record browser, of any mutable type. -/
structure BrowserChange where
  recordName : Str
  recordType : Str
  ttl : Option Int
  values : List Str
  mode : Mode
deriving DecidableEq, Repr

/-- The `try` body of `mutate_admin_record` from the built client on. -/
def BrowserChange.run (settings : Dict) (zoneName : Str) (c : BrowserChange) :
    ProviderCode DnsMutationOutcome := do
  let dnsZone ← Code.lift (providerDnsZone U settings)
  let prepared ← Code.lift (prepareMutation U c.recordName c.recordType c.ttl c.values
    (some dnsZone) (c.mode ≠ .delete) false)
  applyRrsetMutation U settings zoneName prepared.recordName prepared.recordType
    (some prepared.ttl) prepared.values c.mode

/-- The answer to an exception that ended the `try` body. -/
def replyOf : Except Exc Reply → Reply
  | .ok reply => reply
  | .error exc => .error (httpExceptionFromDnsError exc)

/-- The provider calls and the answer of an authorised mutating request. -/
def RecordRequest.serve (settings : Dict) (zoneName : Str) (r : RecordRequest) :
    Prog providerSig Reply :=
  match r.call U with
  | .error reply => .ret reply
  | .ok c => (c.run U settings zoneName).prog >>= fun result => .ret (replyOf result)

end ApiToDns
