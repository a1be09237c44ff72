import ApiToDns.Platform
import ApiToDns.Plugins.Base
import ApiToDns.Plugins.Utils

/-!
# Plugins.Cloudflare

The Cloudflare client (`plugins/cloudflare.py`) as programs over the requests
of its REST API.  A record set is a list of rows, one for each record, that
are listed, created, updated and deleted one by one.
-/

namespace ApiToDns.Cloudflare

open Py

variable (U : Ucd)

/-- `_fqdn`. -/
def fqdn (zoneName recordName : Str) : Str :=
  let z := bareName zoneName
  let r := bareName recordName
  if r = [] ∨ r = ['@'] then z
  else
    let suffix := '.' :: z
    if endsWith (U.lower r) (U.lower suffix) ∨ U.lower r = U.lower z then r
    else r ++ '.' :: z

/-- `_relative_name`. -/
def relativeName (zoneName fqdn : Str) : Str :=
  let z := bareName zoneName
  let f := bareName fqdn
  if U.lower f = U.lower z then ['@']
  else
    let suffix := '.' :: z
    if endsWith (U.lower f) (U.lower suffix) then
      let rest := dropEnd f suffix.length
      if rest = [] then ['@'] else rest
    else f

/-! ## the REST API -/

/-- The methods the client uses. -/
inductive Method where
  | get | post | put | delete
deriving DecidableEq, Repr

/-- A response; `none` where `response.json()` raises `ValueError`. -/
structure HttpResponse where
  statusCode : Nat
  json : Option Json

/-- `client.request(method, path, params=…, json=…)`. -/
structure HttpOp where
  method : Method
  path : Str
  params : List (Str × Str) := []
  body : Option Dict := none

/-- The API; an error is the text of an `httpx.HTTPError`. -/
abbrev httpSig : Sig := ⟨HttpOp, fun _ => Except Str HttpResponse⟩

/-- Code that uses the API. -/
abbrev HttpCode (α : Type) := Code Exc httpSig α

/-- A client: the token is in every request and is left out. -/
structure Config where
  zoneId : Option Str
  proxied : Bool

variable (P : Platform)

/-- `_first_error_message`. -/
def firstErrorMessage (body : Json) : Except Exc (Option Str) :=
  match body with
  | .obj fields =>
      match (Dict.get fields (lit "errors")).orElse (.arr []) with
      | .arr (.obj e :: _) =>
          let msg := Dict.get e (lit "message")
          .ok (if msg.truthy then some (msg.pyStr P.ucd) else none)
      | .obj (_ :: _) => .error (.other (lit "KeyError"))
      | .bool _ | .int _ | .float _ _ => .error typeError
      | _ => .ok none
  | _ => .ok none

/-- What `_request` makes of a response. -/
def readResponse (reply : Except Str HttpResponse) : Except Exc Dict :=
  match reply with
  | .error text => .error (.runtimeError (lit "Cloudflare API request failed: " ++ text))
  | .ok ⟨statusCode, none⟩ =>
      .error (.runtimeError (lit "Cloudflare API returned non-JSON response (HTTP " ++
        natStr statusCode ++ lit ")."))
  | .ok ⟨statusCode, some body⟩ => do
      let failed : Except Exc Dict := do
        let message ← firstErrorMessage P body
        let message := message.getD (lit "HTTP " ++ natStr statusCode)
        throw (.runtimeError (lit "Cloudflare API error: " ++ message))
      match body with
      | .obj fields => if (Dict.get fields (lit "success")).truthy then .ok fields else failed
      | _ => failed

/-- `_request`. -/
def request (o : HttpOp) : HttpCode Dict :=
  ExceptT.mk (.call (S := httpSig) o fun reply => .ret (readResponse P reply))

@[simp] theorem prog_request (o : HttpOp) :
    (request P o).prog = .call o fun reply => .ret (readResponse P reply) := rfl

/-- `body.get("result") or []`, iterated. -/
def resultOf (body : Dict) : Except Exc (List Json) :=
  iterated ((body.get (lit "result")).orElse (.arr []))

/-- The first zone of the name with an id. -/
def findZoneId (zoneName : Str) : List Json → Except Exc Str
  | [] => .error (.valueError (lit "Cloudflare zone " ++ P.ucd.repr zoneName ++
      lit " not found for this API token."))
  | row :: rows => do
      let row ← asDict row
      let name := rstripDots ((row.getD (lit "name") (.str [])).pyStr P.ucd)
      let zoneId := row.get (lit "id")
      if P.ucd.lower name = P.ucd.lower zoneName ∧ zoneId.truthy then .ok (zoneId.pyStr P.ucd)
      else findZoneId zoneName rows

/-- `_resolve_zone_id`. -/
def resolveZoneId (cfg : Config) (zoneName : Str) : HttpCode Str :=
  match cfg.zoneId with
  | some zoneId => return zoneId
  | none => do
      let body ← request P { method := .get, path := lit "/zones", params := [(lit "name", zoneName)] }
      let rows ← Code.lift (resultOf body)
      Code.lift (findZoneId P zoneName rows)

/-- The path of the records of a zone. -/
def recordsPath (zoneId : Str) : Str := lit "/zones/" ++ zoneId ++ lit "/dns_records"

/-- The path of a record. -/
def recordPath (zoneId recordId : Str) : Str := recordsPath zoneId ++ ['/'] ++ recordId

/-- The rows that are objects. -/
def objects (rows : List Json) : List Dict :=
  rows.filterMap fun
    | .obj fields => some fields
    | _ => none

/-- `_list_records`. -/
def listRecords (zoneId fqdn : Str) (rt : RecordType) : HttpCode (List Dict) := do
  let body ← request P
    { method := .get, path := recordsPath zoneId, params := [(lit "name", fqdn), (lit "type", rt.text)] }
  let rows ← Code.lift (resultOf body)
  return objects rows

/-! ## rows and values -/

/-- `_normalize_txt_value`. -/
def normalizeTxtValue (value : Str) : Str :=
  let v := strip value
  if isQuoted v then inner v else v

/-- `_cloudflare_txt_content`. -/
def cloudflareTxtContent (value : Str) : Str := ['"'] ++ normalizeTxtValue value ++ ['"']

/-- `str(x or "")`. -/
def textOr (x : Json) : Str := (x.orElse (.str [])).pyStr P.ucd

/-- `int(x or 0)`. -/
def intOr (x : Json) : Except Exc Int := pyInt P (x.orElse (.int 0))

/-- `_canonical_from_row`. -/
def canonicalFromRow (rt : RecordType) (row : Dict) : Except Exc Str :=
  let content := row.get (lit "content")
  match rt with
  | .mx => do
      let priority ← intOr P (row.get (lit "priority"))
      formatMx P.ucd priority (textOr P content)
  | .srv => do
      let data ← asDict ((row.get (lit "data")).orElse (.obj []))
      -- `int(a if a is not None else b or 0)`
      let priority ← match data.get (lit "priority") with
        | .null => intOr P (row.get (lit "priority"))
        | priority => pyInt P priority
      let weight ← intOr P (data.get (lit "weight"))
      let port ← intOr P (data.get (lit "port"))
      formatSrv P.ucd priority weight port (textOr P ((data.get (lit "target")).orElse content))
  | .caa => do
      let data := row.get (lit "data")
      if data.truthy then
        let data ← asDict data
        let flags ← intOr P (data.get (lit "flags"))
        formatCaa P.ucd flags (textOr P (data.get (lit "tag"))) (textOr P (data.get (lit "value")))
      else normalizeRecordValue P.ucd .caa (textOr P content)
  | .txt => .ok (normalizeTxtValue (textOr P content))
  | .cname | .ns | .ptr => normalizeHostname P.ucd (textOr P content)
  | _ => .ok (textOr P content)

/-- `int(row["ttl"])` for a row whose TTL is a number. -/
def ttlOf (row : Dict) : Except Exc (Option Int) :=
  match row.get (lit "ttl") with
  | .int i => .ok (some i)
  | .bool b => .ok (some (if b then 1 else 0))
  | .float text _ => some <$> P.intOfFloat text
  | _ => .ok none

/-- `_rows_to_info`. -/
def rowsToInfo (displayName : Str) (rt : RecordType) (rows : List Dict) :
    Except Exc DnsRecordInfo := do
  let ttls ← rows.mapM (ttlOf P)
  let values ← rows.mapM (canonicalFromRow P rt)
  return ⟨displayName, rt.text, (ttls.filterMap id).min?, some values⟩

/-- `_srv_parts`. -/
def srvParts (fqdn : Str) : Str × Str × Str :=
  match (rstripDots (fqdn.dropWhile (· == '.'))).splitOn '.' with
  | service :: proto :: name :: labels =>
      if startsWith service ['_'] && startsWith proto ['_'] then
        (service, proto, join ['.'] (name :: labels))
      else (lit "_service", lit "_tcp", fqdn)
  | _ => (lit "_service", lit "_tcp", fqdn)

/-- The fields of `_record_body` that depend on the value. -/
def recordData (fqdn : Str) (rt : RecordType) (value : Str) : Except Exc Dict :=
  match rt with
  | .txt => .ok [(lit "content", .str (cloudflareTxtContent value))]
  | .mx => do
      let (priority, exchange) ← parseMx P.ucd value
      return [(lit "content", .str exchange), (lit "priority", .int priority)]
  | .srv => do
      let (priority, weight, port, target) ← parseSrv P.ucd value
      let (service, proto, name) := srvParts fqdn
      return [(lit "data", .obj
        [(lit "priority", .int priority), (lit "weight", .int weight), (lit "port", .int port),
          (lit "target", .str target), (lit "service", .str service), (lit "proto", .str proto),
          (lit "name", .str name)])]
  | .caa => do
      let (flags, tag, caaValue) ← parseCaa P.ucd value
      return [(lit "data", .obj
        [(lit "flags", .int flags), (lit "tag", .str tag), (lit "value", .str (bareCaaValue caaValue))])]
  | _ => .ok [(lit "content", .str value)]

/-- `_record_body`. -/
def recordBody (cfg : Config) (fqdn : Str) (rt : RecordType) (value : Str) (ttl : Int) :
    Except Exc Dict := do
  let data ← recordData P fqdn rt value
  let proxied := if rt ∈ [.a, .aaaa, .cname] then [(lit "proxied", Json.bool cfg.proxied)] else []
  return [(lit "type", .str rt.text), (lit "name", .str fqdn), (lit "ttl", .int ttl)] ++ data ++ proxied

/-! ## writing -/

/-- `str(row["id"])`. -/
def rowId (row : Dict) : Except Exc Str := Json.pyStr P.ucd <$> subscript row (lit "id")

/-- `_delete_record`. -/
def deleteRecord (zoneId : Str) (row : Dict) : HttpCode Unit := do
  let recordId ← Code.lift (rowId P row)
  let _ ← request P { method := .delete, path := recordPath zoneId recordId }

/-- A record set that is written: the zone, the owner, the type and the TTL. -/
structure Target where
  zoneId : Str
  fqdn : Str
  rt : RecordType
  ttl : Int

section Write

variable (cfg : Config) (t : Target)

/-- `_create_record`. -/
def createRecord (value : Str) : HttpCode Unit := do
  let body ← Code.lift (recordBody P cfg t.fqdn t.rt value t.ttl)
  let _ ← request P { method := .post, path := recordsPath t.zoneId, body := some body }

/-- `_update_record`. -/
def updateRecord (row : Dict) (value : Str) : HttpCode Unit := do
  let recordId ← Code.lift (rowId P row)
  let body ← Code.lift (recordBody P cfg t.fqdn t.rt value t.ttl)
  let _ ← request P { method := .put, path := recordPath t.zoneId recordId, body := some body }

/-- Delete the rows in order. -/
def deleteRows (zoneId : Str) : List Dict → HttpCode Unit
  | [] => return ()
  | row :: rows => do
      deleteRecord P zoneId row
      deleteRows zoneId rows

/-- The rows that keep a wanted value, by the value, and the others. -/
def splitRows (desired : List Str) :
    List Dict → List (Str × Dict) → Except Exc (List (Str × Dict) × List Dict)
  | [], kept => .ok (kept, [])
  | row :: rows, kept => do
      let content ← canonicalFromRow P t.rt row
      if content ∈ desired ∧ content ∉ kept.map Prod.fst then
        splitRows desired rows (kept ++ [(content, row)])
      else
        let (kept, stale) ← splitRows desired rows kept
        return (kept, row :: stale)

/-- Write the values in order, each into the row that has it. -/
def writeValues (kept : List (Str × Dict)) : List Str → HttpCode Unit
  | [] => return ()
  | content :: rest => do
      match kept.lookup content with
      | some row => updateRecord P cfg t row content
      | none => createRecord P cfg t content
      writeValues kept rest

/-- `_sync_records`. -/
def syncRecords (desired : List Str) (existing : List Dict) : HttpCode Unit :=
  if t.rt = .cname then
    match desired, existing with
    | [], _ => throw (.other (lit "IndexError"))
    | content :: _, [] => createRecord P cfg t content
    | content :: _, row :: rows => do
        updateRecord P cfg t row content
        deleteRows P t.zoneId rows
  else do
    let (kept, stale) ← Code.lift (splitRows P t desired existing [])
    deleteRows P t.zoneId stale
    writeValues P cfg t kept desired

end Write

/-! ## the client -/

/-- The check of the server every call starts with. -/
def checkServer (server : Json) : Except Exc Unit :=
  if server.truthy then
    .error (.valueError (lit "Cloudflare DNS ignores per-server host settings; use the Cloudflare fields on the zone configuration."))
  else .ok ()

/-- What is raised without a zone. -/
def zoneRequired : Exc :=
  .valueError (lit "DNS zone (domain) is required in the zone configuration.")

/-- The checks `create_or_update_record` starts with: of the stripped zone. -/
def checkTarget (server : Json) (dnsZone : Str) : Except Exc Str := do
  checkServer server
  if bareName dnsZone = [] then .error zoneRequired else .ok (bareName dnsZone)

/-- The checks `get_record` starts with: of the zone as it is, so one that is all
white space is let through. -/
def checkLookup (server : Json) (dnsZone : Str) : Except Exc Str := do
  checkServer server
  if dnsZone = [] then .error zoneRequired else .ok (bareName dnsZone)

/-- A record type the client can change. -/
def supportedType (recordType : Str) : Except Exc RecordType :=
  match (RecordType.ofText? recordType).filter RecordType.isMutable with
  | some rt => .ok rt
  | none => .error (.valueError (lit "Unsupported record type for Cloudflare: " ++ recordType))

variable (cfg : Config)

/-- The branch of `create_or_update_record` that deletes. -/
def deleteRecordSet (values : List Str) (zoneId fqdn : Str) : HttpCode Bool :=
  match values with
  | [] => throw (.other (lit "IndexError"))
  | value :: _ => do
      let rt ← Code.lift (supportedType (upperType P.ucd value))
      let existing ← listRecords P zoneId fqdn rt
      deleteRows P zoneId existing
      return !existing.isEmpty

/-- The branch of `create_or_update_record` that writes. -/
def writeRecordSet (recordType : Str) (values : List Str) (ttl : Int) (zoneId fqdn : Str) :
    HttpCode Bool := do
  let rt ← Code.lift (supportedType recordType)
  let existing ← listRecords P zoneId fqdn rt
  let desired ← Code.lift (normalizeRecordValues P.ucd rt values)
  syncRecords P cfg ⟨zoneId, fqdn, rt, ttl⟩ desired existing
  return !existing.isEmpty

/-- `CloudflareDnsClient.create_or_update_record`. -/
def createOrUpdateRecord (payload : DnsRecordRequest) (server : Json) (dnsZone : Str) :
    HttpCode Bool := do
  let zoneName ← Code.lift (checkTarget server dnsZone)
  let recordType := P.ucd.upper payload.recordType
  let fqdn := fqdn P.ucd zoneName payload.recordName
  let zoneId ← resolveZoneId P cfg zoneName
  if recordType = deleteType then deleteRecordSet P payload.values zoneId fqdn
  else writeRecordSet P cfg recordType payload.values (ttlOrDefault payload.ttl) zoneId fqdn

/-- The loop of `get_record` over the record types. -/
def queryTypes (zoneId fqdn displayName : Str) : List RecordType → HttpCode (List DnsRecordInfo)
  | [] => return []
  | rt :: rts => do
      let rows ← listRecords P zoneId fqdn rt
      let info ← Code.lift
        (if rows = [] then .ok [] else ([·]) <$> rowsToInfo P displayName rt rows)
      let infos ← queryTypes zoneId fqdn displayName rts
      return info ++ infos

/-- `CloudflareDnsClient.get_record`. -/
def getRecord (recordName : Str) (recordType : Option Str) (server : Json) (dnsZone : Str) :
    HttpCode (List DnsRecordInfo) := do
  let zoneName ← Code.lift (checkLookup server dnsZone)
  let fqdn := fqdn P.ucd zoneName recordName
  let rts ← Code.lift (lookupRecordTypesToQuery P.ucd recordType)
  let zoneId ← resolveZoneId P cfg zoneName
  queryTypes P zoneId fqdn (relativeName P.ucd zoneName fqdn) rts

/-- The client's calls. -/
def client : (o : ProviderOp) → Prog httpSig (ProviderOp.Reply o)
  | .getRecord recordName recordType server dnsZone =>
      (getRecord P cfg recordName recordType server dnsZone).prog
  | .createOrUpdateRecord payload server dnsZone =>
      (createOrUpdateRecord P cfg payload server dnsZone).prog

end ApiToDns.Cloudflare
