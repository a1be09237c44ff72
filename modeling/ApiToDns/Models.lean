import ApiToDns.Lib.Table
import ApiToDns.Py.Json

/-!
# Models

The tables of the database (`models.py`), with their unique columns.
-/

namespace ApiToDns

open Py

/-- A `datetime` as the database keeps it, by its `isoformat()`. -/
structure Datetime where
  isoformat : Str
deriving DecidableEq, Repr

structure User where
  username : Str
  passwordHash : Str
  roles : Str
  disabled : Bool
  sessionVersion : Int
deriving DecidableEq, Repr

/-- `API_KEY_ACCESS_READ_ONLY`. -/
def apiKeyAccessReadOnly : Str := lit "read_only"

/-- `API_KEY_ACCESS_READ_WRITE`. -/
def apiKeyAccessReadWrite : Str := lit "read_write"

/-- `API_KEY_ACCESS_MODES`. -/
def apiKeyAccessModes : List Str := [apiKeyAccessReadOnly, apiKeyAccessReadWrite]

/-- `key` is the SHA-256 hex digest of the raw key. -/
structure ApiKey where
  label : Str
  key : Str
  keyPrefix : Option Str
  accessMode : Str
  active : Bool
  createdAt : Datetime
deriving DecidableEq, Repr

structure DnsZoneConfig where
  zoneName : Str
  encryptedConfig : Str
deriving DecidableEq, Repr

structure ApiKeyAllowedZone where
  apiKeyId : Nat
  dnsZoneConfigId : Nat
deriving DecidableEq, Repr

structure Setting where
  name : Str
  value : Str
deriving DecidableEq, Repr

structure AlertRule where
  enabled : Bool
  name : Str
  eventType : Option Str
  category : Option Str
  minimumLevel : Str
  messageContains : Option Str
  emailRecipients : Str
  emailSubjectTemplate : Str
  emailBodyTemplate : Str
  cooldownMinutes : Int
  lastTriggeredAt : Option Datetime
deriving DecidableEq, Repr

/-- A value in a column of any affinity; a real number is known by its text. -/
inductive Cell where
  | null
  | int (i : Int)
  | real (text : Str)
  | text (s : Str)
deriving DecidableEq, Repr

structure ActivityLog where
  timestamp : Datetime
  level : Str
  category : Option Str
  eventType : Str
  status : Option Str
  actorType : Option Str
  actorId : Option Str
  actorLabel : Option Str
  zoneName : Option Str
  recordName : Option Str
  message : Option Str
  detailsJson : Option Str
  requestMethod : Option Str
  requestPath : Option Str
  requestStatusCode : Cell
  requestIp : Option Str
deriving DecidableEq, Repr

/-! ## unique columns -/

instance : Record User := ⟨Str, inferInstance, fun u => some u.username⟩

instance : Record ApiKey := ⟨Str, inferInstance, fun k => some k.key⟩

instance : Record DnsZoneConfig := ⟨Str, inferInstance, fun z => some z.zoneName⟩

instance : Record ApiKeyAllowedZone :=
  ⟨Nat × Nat, inferInstance, fun l => some (l.apiKeyId, l.dnsZoneConfigId)⟩

instance : Record Setting := ⟨Str, inferInstance, fun s => some s.name⟩

instance : Record AlertRule := ⟨Empty, inferInstance, fun _ => none⟩

instance : Record ActivityLog := ⟨Empty, inferInstance, fun _ => none⟩

/-- The database. -/
structure Db where
  users : Table User
  apiKeys : Table ApiKey
  zones : Table DnsZoneConfig
  allowedZones : Table ApiKeyAllowedZone
  settings : Table Setting
  alertRules : Table AlertRule
  activityLogs : Table ActivityLog
deriving DecidableEq

/-- The database of a new installation. -/
def Db.empty : Db := ⟨.empty, .empty, .empty, .empty, .empty, .empty, .empty⟩

end ApiToDns
