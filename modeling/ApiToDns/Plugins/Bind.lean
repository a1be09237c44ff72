import ApiToDns.Plugins.Base
import ApiToDns.Plugins.Utils
import ApiToDns.Py.Utf8

/-!
# Plugins.Bind

The BIND client (`plugins/bind.py`, with the lookups of `plugins/utils.py`)
as programs over the network: each lookup is a query, each change a query
followed by a DNS UPDATE.

dnspython is a parameter: `DnsPython` holds the texts it parses and prints.
-/

namespace ApiToDns.Bind

open Py

/-! ## dnspython -/

/-- A label, one character for each octet. -/
abbrev Label := Str

/-- A domain name: its labels from the left, without the root's. -/
abbrev Name := List Label

/-- The root, the `origin` that `dns.name.from_text` defaults to. -/
def root : Name := []

/-- A record's data as it goes over the wire, with the fields the program
reads of it. -/
inductive Rdata where
  /-- A and AAAA -/
  | address (text : Str)
  /-- CNAME, NS and PTR -/
  | target (name : Name)
  | txt (strings : List (List UInt8))
  | mx (preference : Nat) (exchange : Name)
  | srv (priority weight port : Nat) (target : Name)
  | caa (flags : Nat) (tag value : List UInt8)
  /-- SOA, by its text -/
  | soa (text : Str)
deriving DecidableEq, Repr

/-- The texts dnspython parses and prints. -/
structure DnsPython where
  /-- `dns.name.from_text(text, origin)` -/
  nameFromText : Str → Name → Except Exc Name
  /-- `name.to_text(omit_final_dot=True)` -/
  nameToText : Name → Str
  /-- `dns.rdata.from_text("IN", rdtype, text, origin)` -/
  rdataFromText : RecordType → Str → Name → Except Exc Rdata
  /-- `dns.rcode.to_text(rcode)` -/
  rcodeToText : Nat → Str

/-! ## messages -/

/-- What an UPDATE does to the record set at its owner. -/
inductive Change where
  | delete
  | replace (ttl : Int) (rdatas : List Rdata)
deriving DecidableEq, Repr

/-- `dns.update.Update` with one change. -/
structure Update where
  zone : Name
  owner : Name
  rdtype : RecordType
  change : Change
deriving DecidableEq, Repr

/-- A message to the server. -/
inductive Message where
  | query (qname : Name) (rdtype : RecordType)
  | update (u : Update)
deriving DecidableEq, Repr

/-- A record set of an answer section. -/
structure Rrset where
  name : Name
  rdtype : RecordType
  ttl : Nat
  rdatas : List Rdata
deriving DecidableEq, Repr

/-- The server's response. -/
structure Response where
  rcode : Nat
  answer : List Rrset
deriving DecidableEq, Repr

/-- `dns.rcode.NOERROR`. -/
def noError : Nat := 0

/-- What the client does on the network. -/
inductive NetOp where
  /-- `socket.getaddrinfo(host, …)`, the addresses of its answers -/
  | getaddrinfo (host : Str)
  /-- `dns.query.tcp(message, host, …)` -/
  | tcp (message : Message) (host : Str)

/-- The reply to an operation. -/
abbrev NetOp.Reply : NetOp → Type
  | getaddrinfo _ => Except Exc (List Str)
  | tcp _ _ => Except Exc Response

/-- The network. -/
abbrev netSig : Sig := ⟨NetOp, NetOp.Reply⟩

/-- Code that uses the network. -/
abbrev NetCode (α : Type) := Code Exc netSig α

/-- `socket.getaddrinfo(…)`. -/
def getaddrinfo (host : Str) : NetCode (List Str) :=
  ExceptT.mk (Prog.op (S := netSig) (.getaddrinfo host))

/-- `dns.query.tcp(…)`. -/
def tcp (message : Message) (host : Str) : NetCode Response :=
  ExceptT.mk (Prog.op (S := netSig) (.tcp message host))

@[simp] theorem prog_getaddrinfo (host : Str) :
    (getaddrinfo host).prog = .call (.getaddrinfo host) .ret := rfl

@[simp] theorem prog_tcp (message : Message) (host : Str) :
    (tcp message host).prog = .call (.tcp message host) .ret := rfl

@[simp] theorem run_tcp (h : Handler netSig σ) (message : Message) (host : Str) (s : σ) :
    (tcp message host).run h s = h (.tcp message host) s := rfl

variable (U : Ucd) (d : DnsPython)

/-! ## lookups -/

/-- `tcp_endpoint_host`. -/
def tcpEndpointHost (host : Json) : NetCode Str :=
  match host.orElse (.str []) with
  | .str host => do
      let h := strip host
      if h = [] then return h
      if (IpAddress.parse h).isSome then return h
      let infos ← tryCatch (getaddrinfo h) fun exc =>
        match exc with
        | .other msg =>
            throw (.valueError (lit "Could not resolve DNS server hostname " ++ U.repr h ++
              lit ": " ++ msg))
        | exc => throw exc
      match infos with
      | [] =>
          throw (.valueError (lit "DNS server hostname " ++ U.repr h ++
            lit " resolved to no addresses."))
      | address :: _ => return address
  | _ => throw (.other (lit "AttributeError"))

/-- Send a message to the server. -/
def send (message : Message) (server : Json) : NetCode Response := do
  let host ← tcpEndpointHost U server
  tcp message host

/-- The name a lookup asks for. -/
def qname (zoneName relativeName : Str) : Except Exc Name :=
  let z := bareName zoneName
  if relativeName = ['@'] ∨ relativeName = [] then d.nameFromText z root
  else d.nameFromText (relativeName ++ '.' :: z) root

/-- `_record_exists_at_name`. -/
def recordExistsAtName (server : Json) (zoneName relativeName : Str) (rdtype : RecordType) :
    NetCode Bool := do
  let name ← Code.lift (qname d zoneName relativeName)
  tryCatch
    (do
      let resp ← send U (.query name rdtype) server
      return !resp.answer.isEmpty)
    fun _ => return false

/-- `bytes.decode("utf-8")`. -/
def decodeUtf8 (bytes : List UInt8) : Except Exc Str :=
  match Utf8.decodeStrict bytes with
  | some s => .ok s
  | none => .error (.valueError (lit "UnicodeDecodeError"))

/-- `format_rdata_value`. -/
def formatRdataValue (rt : RecordType) (rdata : Rdata) : Except Exc Str :=
  match rt, rdata with
  | .a, .address text | .aaaa, .address text => .ok text
  | .cname, .target name | .ns, .target name | .ptr, .target name => .ok (d.nameToText name)
  | .txt, .txt strings => .ok (Utf8.decode strings.flatten)
  | .mx, .mx preference exchange =>
      normalizeRecordValue U .mx (natStr preference ++ [' '] ++ d.nameToText exchange)
  | .srv, .srv priority weight port target =>
      normalizeRecordValue U .srv (natStr priority ++ [' '] ++ natStr weight ++ [' '] ++
        natStr port ++ [' '] ++ d.nameToText target)
  | .caa, .caa flags tag value => do
      let tag ← decodeUtf8 tag
      let value ← decodeUtf8 value
      normalizeRecordValue U .caa (natStr flags ++ [' '] ++ tag ++ [' '] ++ value)
  | .soa, .soa text => .ok text
  | _, _ => .error (.other (lit "AttributeError"))

/-- The loop of `_query_record_details_at_name` over the answer: the TTL of
the last record set of the type, and the values of all of them. -/
def readAnswer (rt : RecordType) : List Rrset → Except Exc (Option Nat × List Str)
  | [] => .ok (none, [])
  | rrset :: rest =>
      if rrset.rdtype ≠ rt then readAnswer rt rest
      else do
        let values ← rrset.rdatas.mapM (formatRdataValue U d rt)
        let (ttl, more) ← readAnswer rt rest
        return (some (ttl.getD rrset.ttl), values ++ more)

/-- `_query_record_details_at_name`. -/
def queryRecordDetailsAtName (server : Json) (zoneName relativeName : Str) (rt : RecordType) :
    NetCode (Option DnsRecordInfo) := do
  let displayName := if relativeName = ['@'] ∨ relativeName = [] then ['@'] else relativeName
  let name ← Code.lift (qname d zoneName relativeName)
  let resp ← tryCatch (do let resp ← send U (.query name rt) server; return some resp)
    fun _ => return none
  match resp with
  | none => return none
  | some resp =>
      let (ttl, values) ← Code.lift (readAnswer U d rt resp.answer)
      match ttl, values with
      | some ttl, v :: vs => return some ⟨displayName, rt.text, some ttl, some (v :: vs)⟩
      | _, _ => return none

/-- The loop of `query_dns_records_at_name` over the record types. -/
def queryTypes (server : Json) (zoneName relativeName : Str) :
    List RecordType → NetCode (List DnsRecordInfo)
  | [] => return []
  | rt :: rts => do
      let info ← queryRecordDetailsAtName U d server zoneName relativeName rt
      let infos ← queryTypes server zoneName relativeName rts
      return info.toList ++ infos

/-- `query_dns_records_at_name`. -/
def queryDnsRecordsAtName (server : Json) (zoneName relativeName : Str)
    (recordType : Option Str) : NetCode (List DnsRecordInfo) := do
  let rts ← Code.lift (lookupRecordTypesToQuery U recordType)
  queryTypes U d server zoneName relativeName rts

/-! ## the client -/

/-- The `dns_server` and the zone name a call starts from. -/
def target (server : Json) (dnsZone : Str) : Except Exc Str :=
  if !server.truthy then
    .error (.valueError
      (lit "DNS server host is required for BIND (set Target DNS Server in settings)."))
  else if bareName dnsZone = [] then
    .error (.valueError (lit "DNS zone (domain) is required in the zone configuration."))
  else .ok (bareName dnsZone)

/-- `BindTsigDnsClient.get_record`. -/
def getRecord (recordName : Str) (recordType : Option Str) (server : Json) (dnsZone : Str) :
    NetCode (List DnsRecordInfo) := do
  let zoneName ← Code.lift (target server dnsZone)
  queryDnsRecordsAtName U d server zoneName (dnsRelativeName U zoneName recordName) recordType

/-- The `node` of an UPDATE. -/
def node (relative : Str) : Str := if relative = ['@'] ∨ relative = [] then ['@'] else relative

/-- Send an UPDATE; anything but success raises. -/
def sendUpdate (u : Update) (server : Json) : NetCode Unit := do
  let response ← send U (.update u) server
  if response.rcode ≠ noError then
    throw (.runtimeError (lit "DNS UPDATE failed: " ++ d.rcodeToText response.rcode))

/-- The RDATA of an UPDATE, one for each text. -/
def rdatas (rdtype : RecordType) (origin : Name) (texts : List Str) : Except Exc (List Rdata) :=
  texts.mapM fun text => d.rdataFromText rdtype text origin

/-- A record type the client can change. -/
def supportedType (recordType : Str) : Except Exc RecordType :=
  match (RecordType.ofText? recordType).filter RecordType.isMutable with
  | some rt => .ok rt
  | none => .error (.valueError (lit "Unsupported record type for BIND: " ++ recordType))

/-- The branch of `create_or_update_record` that deletes. -/
def deleteRecord (values : List Str) (relative zoneName : Str) (origin : Name) (server : Json) :
    NetCode Bool :=
  match values with
  | [] => throw (.other (lit "IndexError"))
  | value :: _ => do
      let rdtype ← Code.lift (supportedType (upperType U value))
      let existed ← recordExistsAtName U d server zoneName relative rdtype
      if !existed then return false
      let owner ← Code.lift (d.nameFromText (node relative) origin)
      sendUpdate U d ⟨origin, owner, rdtype, .delete⟩ server
      return true

/-- The branch of `create_or_update_record` that replaces. -/
def replaceRecord (recordType : Str) (ttl : Int) (values : List Str) (relative zoneName : Str)
    (origin : Name) (server : Json) : NetCode Bool := do
  let rdtype ← Code.lift (supportedType recordType)
  let validated ← Code.lift (normalizeRecordValues U rdtype values)
  let existed ← recordExistsAtName U d server zoneName relative rdtype
  let owner ← Code.lift (d.nameFromText (node relative) origin)
  let rdatas ← Code.lift (rdatas d rdtype origin validated)
  sendUpdate U d ⟨origin, owner, rdtype, .replace ttl rdatas⟩ server
  return existed

/-- `BindTsigDnsClient.create_or_update_record`. -/
def createOrUpdateRecord (payload : DnsRecordRequest) (server : Json) (dnsZone : Str) :
    NetCode Bool := do
  let zoneName ← Code.lift (target server dnsZone)
  let recordType := U.upper payload.recordType
  -- `int(payload.ttl or 300)`
  let ttl := if payload.ttl.getD 0 = 0 then 300 else payload.ttl.getD 0
  let relative := dnsRelativeName U zoneName payload.recordName
  let origin ← Code.lift (d.nameFromText zoneName root)
  if recordType = deleteType then
    deleteRecord U d payload.values relative zoneName origin server
  else
    replaceRecord U d recordType ttl payload.values relative zoneName origin server

/-- The client's calls. -/
def client : (o : ProviderOp) → Prog netSig (ProviderOp.Reply o)
  | .getRecord recordName recordType server dnsZone =>
      (getRecord U d recordName recordType server dnsZone).prog
  | .createOrUpdateRecord payload server dnsZone =>
      (createOrUpdateRecord U d payload server dnsZone).prog

end ApiToDns.Bind
