import ApiToDns.Plugins.Base
import ApiToDns.Plugins.Utils

/-!
# Plugins.Azure

The Azure client (`plugins/azure.py`) as programs over the record-set calls of
the Azure SDK.  The credential, the subscription and the resource group of a
client are the same in all its calls and are left out.
-/

namespace ApiToDns.Azure

open Py

/-! ## the SDK -/

/-- `SoaRecord`. -/
structure SoaRecord where
  host : Str
  email : Str
  serialNumber : Int
  refreshTime : Int
  retryTime : Int
  expireTime : Int
  minimumTtl : Int
deriving DecidableEq, Repr

/-- `RecordSet`; a list that is not set is empty. -/
structure RecordSet where
  ttl : Option Int
  aRecords : List Str := []
  aaaaRecords : List Str := []
  cnameRecord : Option Str := none
  /-- the character strings of each record -/
  txtRecords : List (List Str) := []
  mxRecords : List (Int × Str) := []
  nsRecords : List Str := []
  srvRecords : List (Int × Int × Int × Str) := []
  caaRecords : List (Int × Str × Str) := []
  ptrRecords : List Str := []
  soaRecord : Option SoaRecord := none
deriving DecidableEq, Repr

/-- A call of `client.record_sets`. -/
inductive SdkOp where
  | get (zoneName recordSetName : Str) (recordType : RecordType)
  | createOrUpdate (zoneName recordSetName : Str) (recordType : RecordType) (recordSet : RecordSet)
  | delete (zoneName recordSetName : Str) (recordType : RecordType)
deriving DecidableEq, Repr

/-- The reply to a call; `none` and `false` stand for `ResourceNotFoundError`. -/
abbrev SdkOp.Reply : SdkOp → Type
  | get .. => Except Exc (Option RecordSet)
  | createOrUpdate .. => Except Exc Unit
  | delete .. => Except Exc Bool

/-- The SDK. -/
abbrev sdkSig : Sig := ⟨SdkOp, SdkOp.Reply⟩

/-- Code that uses the SDK. -/
abbrev SdkCode (α : Type) := Code Exc sdkSig α

/-- `_get_existing_record_set`. -/
def getExistingRecordSet (zoneName recordSetName : Str) (rt : RecordType) :
    SdkCode (Option RecordSet) :=
  ExceptT.mk (Prog.op (S := sdkSig) (.get zoneName recordSetName rt))

/-- `client.record_sets.create_or_update(…)`. -/
def recordSetsCreateOrUpdate (zoneName recordSetName : Str) (rt : RecordType) (rs : RecordSet) :
    SdkCode Unit :=
  ExceptT.mk (Prog.op (S := sdkSig) (.createOrUpdate zoneName recordSetName rt rs))

/-- `client.record_sets.delete(…)`. -/
def recordSetsDelete (zoneName recordSetName : Str) (rt : RecordType) : SdkCode Bool :=
  ExceptT.mk (Prog.op (S := sdkSig) (.delete zoneName recordSetName rt))

@[simp] theorem prog_getExistingRecordSet (zone name : Str) (rt : RecordType) :
    (getExistingRecordSet zone name rt).prog = .call (.get zone name rt) .ret := rfl

@[simp] theorem prog_recordSetsCreateOrUpdate (zone name : Str) (rt : RecordType) (rs : RecordSet) :
    (recordSetsCreateOrUpdate zone name rt rs).prog = .call (.createOrUpdate zone name rt rs) .ret :=
  rfl

@[simp] theorem prog_recordSetsDelete (zone name : Str) (rt : RecordType) :
    (recordSetsDelete zone name rt).prog = .call (.delete zone name rt) .ret := rfl

variable (U : Ucd)

/-! ## record sets -/

/-- The values of a record set, as `_record_set_to_info` reads them. -/
def valuesOf (rs : RecordSet) (rt : RecordType) : Except Exc (List Str) :=
  match rt with
  | .a => .ok rs.aRecords
  | .aaaa => .ok rs.aaaaRecords
  | .cname =>
      match rs.cnameRecord with
      | some (c :: cs) => .ok [rstripDots (c :: cs)]
      | _ => .ok []
  | .txt => .ok rs.txtRecords.flatten
  | .mx => rs.mxRecords.mapM fun mx => formatMx U mx.1 mx.2
  | .ns => rs.nsRecords.mapM (normalizeHostname U)
  | .srv => rs.srvRecords.mapM fun srv => formatSrv U srv.1 srv.2.1 srv.2.2.1 srv.2.2.2
  | .caa => rs.caaRecords.mapM fun caa => formatCaa U caa.1 caa.2.1 caa.2.2
  | .ptr => rs.ptrRecords.mapM (normalizeHostname U)
  | .soa =>
      match rs.soaRecord with
      | none => .ok []
      | some soa => do
          let host ← normalizeHostname U soa.host
          let numbers := [soa.serialNumber, soa.refreshTime, soa.retryTime, soa.expireTime,
            soa.minimumTtl]
          return [join [' '] (host :: rstripDots soa.email :: numbers.map intStr)]

/-- `_record_set_to_info`. -/
def recordSetToInfo (rs : RecordSet) (displayName : Str) (rt : RecordType) :
    Except Exc DnsRecordInfo := do
  let values ← valuesOf U rs rt
  return ⟨displayName, rt.text, some (ttlOrDefault rs.ttl), some values⟩

/-- `_build_record_set`. -/
def buildRecordSet (rt : RecordType) (values : List Str) (ttl : Int) : Except Exc RecordSet :=
  match rt with
  | .a => .ok { ttl, aRecords := values }
  | .aaaa => .ok { ttl, aaaaRecords := values }
  | .cname =>
      match values with
      | [] => .error (.other (lit "IndexError"))
      | value :: _ => .ok { ttl, cnameRecord := some value }
  | .txt => .ok { ttl, txtRecords := values.map ([·]) }
  | .mx => do
      let mxRecords ← values.mapM fun value => do
        let (priority, exchange) ← parseMx U value
        return ((priority : Int), exchange)
      return { ttl, mxRecords }
  | .ns => .ok { ttl, nsRecords := values }
  | .srv => do
      let srvRecords ← values.mapM fun value => do
        let (priority, weight, port, target) ← parseSrv U value
        return ((priority : Int), (weight : Int), (port : Int), target)
      return { ttl, srvRecords }
  | .caa => do
      let caaRecords ← values.mapM fun value => do
        let (flags, tag, caaValue) ← parseCaa U value
        return ((flags : Int), tag, bareCaaValue caaValue)
      return { ttl, caaRecords }
  | .ptr => .ok { ttl, ptrRecords := values }
  | .soa => .error (.valueError (lit "Unsupported record type: " ++ rt.text))

/-- A record set is built with the TTL it is given. -/
theorem ttl_buildRecordSet {rt : RecordType} {values : List Str} {ttl : Int} {rs : RecordSet}
    (h : buildRecordSet U rt values ttl = .ok rs) : rs.ttl = some ttl := by
  unfold buildRecordSet at h
  cases rt with
  | a | aaaa | txt | ns | ptr => rw [← Except.ok.inj h]
  | cname =>
      cases values with
      | nil => contradiction
      | cons value rest => rw [← Except.ok.inj h]
  | mx | srv | caa =>
      obtain ⟨records, -, h⟩ := bind_eq_ok h
      rw [← Except.ok.inj h]
  | soa => contradiction

/-! ## the client -/

/-- The checks every call starts with. -/
def checkTarget (server : Json) (dnsZone : Str) : Except Exc Unit :=
  if server.truthy then
    .error (.valueError (lit "Azure DNS ignores per-server host settings; use Azure fields on the zone configuration."))
  else if dnsZone = [] then
    .error (.valueError (lit "DNS zone (domain) is required in the zone configuration."))
  else .ok ()

/-- A record type the client can change. -/
def supportedType (recordType : Str) : Except Exc RecordType :=
  match (RecordType.ofText? recordType).filter RecordType.isMutable with
  | some rt => .ok rt
  | none => .error (.valueError (lit "Unsupported record type for Azure DNS: " ++ recordType))

/-- The branch of `create_or_update_record` that deletes. -/
def deleteRecordSet (values : List Str) (dnsZone name : Str) : SdkCode Bool :=
  match values with
  | [] => throw (.other (lit "IndexError"))
  | value :: _ => do
      let rt ← Code.lift (supportedType (upperType U value))
      match ← getExistingRecordSet dnsZone name rt with
      | none => return false
      | some _ => recordSetsDelete dnsZone name rt

/-- The branch of `create_or_update_record` that writes. -/
def writeRecordSet (recordType : Str) (values : List Str) (ttl : Option Int) (dnsZone name : Str) :
    SdkCode Bool := do
  let rt ← Code.lift (supportedType recordType)
  let existing ← getExistingRecordSet dnsZone name rt
  let values ← Code.lift (normalizeRecordValues U rt values)
  let rs ← Code.lift (buildRecordSet U rt values (ttlOrDefault ttl))
  recordSetsCreateOrUpdate dnsZone name rt rs
  return existing.isSome

/-- `AzureDnsClient.create_or_update_record`. -/
def createOrUpdateRecord (payload : DnsRecordRequest) (server : Json) (dnsZone : Str) :
    SdkCode Bool := do
  Code.lift (checkTarget server dnsZone)
  let name := dnsRelativeName U dnsZone payload.recordName
  let recordType := U.upper payload.recordType
  if recordType = deleteType then deleteRecordSet U payload.values dnsZone name
  else writeRecordSet U recordType payload.values payload.ttl dnsZone name

/-- The loop of `get_record` over the record types. -/
def queryTypes (dnsZone name : Str) : List RecordType → SdkCode (List DnsRecordInfo)
  | [] => return []
  | rt :: rts => do
      let existing ← getExistingRecordSet dnsZone name rt
      let info ← Code.lift (existing.mapM fun rs => recordSetToInfo U rs name rt)
      let infos ← queryTypes dnsZone name rts
      return info.toList ++ infos

/-- `AzureDnsClient.get_record`. -/
def getRecord (recordName : Str) (recordType : Option Str) (server : Json) (dnsZone : Str) :
    SdkCode (List DnsRecordInfo) := do
  Code.lift (checkTarget server dnsZone)
  let rts ← Code.lift (lookupRecordTypesToQuery U recordType)
  queryTypes U dnsZone (dnsRelativeName U dnsZone recordName) rts

/-- The client's calls. -/
def client : (o : ProviderOp) → Prog sdkSig (ProviderOp.Reply o)
  | .getRecord recordName recordType server dnsZone =>
      (getRecord U recordName recordType server dnsZone).prog
  | .createOrUpdateRecord payload server dnsZone =>
      (createOrUpdateRecord U payload server dnsZone).prog

end ApiToDns.Azure
