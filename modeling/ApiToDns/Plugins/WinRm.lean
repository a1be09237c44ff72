import ApiToDns.Platform
import ApiToDns.Plugins.Base
import ApiToDns.Plugins.Microsoft

/-!
# Plugins.WinRm

The Microsoft client (`plugins/microsoft.py`) as programs over one call, which
runs a script on the server and returns what it printed
(`_run_ps_with_retry`; how a script is tried again is `Plugins.WinRmRetry`, how
it is staged in parts `Plugins.WinRmStaging`).
-/

namespace ApiToDns.Microsoft

open Py

/-- Run a script on a server. -/
structure WinRmOp where
  server : Str
  script : Script

/-- The WinRM sessions of a client. -/
abbrev winRmSig : Sig := ⟨WinRmOp, fun _ => Except Exc Str⟩

/-- Code that runs scripts. -/
abbrev WinRmCode (α : Type) := Code Exc winRmSig α

/-- `_run_ps_with_retry(server, script)`, its output decoded. -/
def runPs (server : Str) (script : Script) : WinRmCode Str :=
  ExceptT.mk (Prog.op (S := winRmSig) ⟨server, script⟩)

@[simp] theorem prog_runPs (server : Str) (script : Script) :
    (runPs server script).prog = .call (⟨server, script⟩ : winRmSig.Op) .ret := rfl

variable (P : Platform)

/-! ## lookups -/

/-- The server and the zone of a call. -/
def target (server : Json) (dnsZone : Str) : Except Exc (Str × Str) := do
  let zone ← checkedZone ((server.orElse (.str [])).pyStr P.ucd) dnsZone
  let server ← asText server
  return (server, zone)

/-- `_record_exists`. -/
def recordExists (server zone name rrType : Str) : WinRmCode Bool := do
  let out ← runPs server (recordExistsScript server zone name rrType)
  return startsWith (P.ucd.lower (strip out)) (lit "yes")

/-- One value of `_canonical_values`. -/
def canonicalValue (rt : RecordType) (text : Str) : Except Exc Str :=
  match rt with
  | .mx => do
      let (priority, exchange) ← parseMx P.ucd text
      formatMx P.ucd priority exchange
  | .srv => do
      let (priority, weight, port, target) ← parseSrv P.ucd text
      formatSrv P.ucd priority weight port target
  | .caa => do
      let (flags, tag, caaValue) ← parseCaa P.ucd text
      formatCaa P.ucd flags tag caaValue
  | .cname | .ns | .ptr => normalizeHostname P.ucd text
  | _ => .ok text

/-- `_canonical_values`, after the values in `canonical`. -/
def canonicalValues (rt : RecordType) : List Json → List Str → Except Exc (List Str)
  | [], canonical => .ok canonical
  | raw :: rest, canonical =>
      let text := strip (raw.pyStr P.ucd)
      if text = [] then canonicalValues rt rest canonical
      else do
        let value ← canonicalValue P rt text
        canonicalValues rt rest (if value ∈ canonical then canonical else canonical ++ [value])

/-- The `values` of the details: one value may be printed without its list. -/
def detailValues : Json → Except Exc (List Json)
  | .str text => .ok [.str text]
  | values => iterated values

/-- What `_get_record_details` makes of the output of its script. -/
def readDetails (name : Str) (rt : RecordType) (out : Str) : Except Exc (Option DnsRecordInfo) :=
  if strip out = [] then .ok none
  else
    match P.loads (strip out) with
    | none => .error (.valueError (lit "JSONDecodeError"))
    | some data => do
        let data ← asDict data
        let raws ← detailValues ((data.get (lit "values")).orElse (.arr []))
        let values ← canonicalValues P rt raws []
        let ttl ← pyInt P (← subscript data (lit "ttl"))
        return some ⟨name, rt.text, some ttl, some values⟩

/-- `_get_record_details`. -/
def getRecordDetails (server zone name : Str) (rt : RecordType) : WinRmCode (Option DnsRecordInfo) := do
  let out ← runPs server (recordDetailsScript P.ucd server zone name rt)
  Code.lift (readDetails P name rt out)

/-- The loop of `get_record` over the record types. -/
def queryTypes (server zone name : Str) : List RecordType → WinRmCode (List DnsRecordInfo)
  | [] => return []
  | rt :: rts => do
      let info ← getRecordDetails P server zone name rt
      let infos ← queryTypes server zone name rts
      return info.toList ++ infos

/-- `MicrosoftWinRmDnsClient.get_record`. -/
def getRecord (recordName : Str) (recordType : Option Str) (server : Json) (dnsZone : Str) :
    WinRmCode (List DnsRecordInfo) := do
  let (server, zone) ← Code.lift (target P server dnsZone)
  let rts ← Code.lift (lookupRecordTypesToQuery P.ucd recordType)
  queryTypes P server zone (dnsRelativeName P.ucd zone recordName) rts

/-! ## changes -/

/-- A record type the client can change. -/
def supportedType (recordType : Str) : Except Exc RecordType :=
  match (RecordType.ofText? recordType).filter RecordType.isMutable with
  | some rt => .ok rt
  | none =>
      .error (.valueError (lit "Unsupported record type for Microsoft WinRM: " ++ recordType))

/-- The branch of `create_or_update_record` that deletes. -/
def deleteRecords (values : List Str) (server zone name : Str) : WinRmCode Bool :=
  match values with
  | [] => throw (.other (lit "IndexError"))
  | value :: _ => do
      let rt ← Code.lift (supportedType (upperType P.ucd value))
      let psRr := winrmRrType P.ucd rt.text
      let existed ← recordExists P server zone name psRr
      if !existed then return false
      let _ ← runPs server (deleteScript server zone name psRr)
      return true

/-- The branch of `create_or_update_record` that writes. -/
def writeRecords (recordType : Str) (values : List Str) (ttl : Int) (server zone name : Str) :
    WinRmCode Bool := do
  let rt ← Code.lift (supportedType recordType)
  let values ← Code.lift (normalizeRecordValues P.ucd rt values)
  let existed ← recordExists P server zone name (winrmRrType P.ucd rt.text)
  let script ← Code.lift (updateScript P.ucd server zone name rt ttl values)
  let _ ← runPs server script
  return existed

/-- `MicrosoftWinRmDnsClient.create_or_update_record`. -/
def createOrUpdateRecord (payload : DnsRecordRequest) (server : Json) (dnsZone : Str) :
    WinRmCode Bool := do
  let (server, zone) ← Code.lift (target P server dnsZone)
  let recordType := P.ucd.upper payload.recordType
  let name := dnsRelativeName P.ucd zone payload.recordName
  if recordType = deleteType then deleteRecords P payload.values server zone name
  else writeRecords P recordType payload.values (ttlOrDefault payload.ttl) server zone name

/-- The client's calls. -/
def client : (o : ProviderOp) → Prog winRmSig (ProviderOp.Reply o)
  | .getRecord recordName recordType server dnsZone =>
      (getRecord P recordName recordType server dnsZone).prog
  | .createOrUpdateRecord payload server dnsZone =>
      (createOrUpdateRecord P payload server dnsZone).prog

end ApiToDns.Microsoft
