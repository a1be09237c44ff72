import ApiToDns.Backup.Validate
import ApiToDns.Py.Lines

/-!
# Backup.Restore

Restoring a payload (`restore_payload`): the checks, the database rows in one
transaction, then the files of the SSL directory and the application secrets.
The caller's progress callback is left out.
-/

namespace ApiToDns.Backup

open Py

/-- `SECRET_KEY` and `ENCRYPTION_KEY`; an unset variable is empty. -/
structure Secrets where
  secretKey : Str
  encryptionKey : Str
deriving DecidableEq, Repr

/-- The files of a directory. -/
abbrev Files := Str → Option (List UInt8)

/-- An installation. -/
structure Host where
  db : Db
  /-- the SSL directory -/
  ssl : Files
  /-- `os.environ` of the running process -/
  environ : Secrets
  /-- the environment a process is started in -/
  container : Secrets
  /-- `app_secrets.env` -/
  durable : Option Secrets
  /-- the `.env` of the project -/
  projectEnv : Option (List UInt8)
  /-- `ENCRYPTION_KEY` as the running process read it -/
  processKey : Str

/-- What a call meets: the time, the random session versions, whether a file can
be written, and whether the `.env` of the project may be (`os.access`; never
under pytest). -/
structure Moment where
  now : Datetime
  draw : Nat → Int
  writes : Str → Bool
  mayEditEnv : Bool

def appSecretsFilename : Str := lit "app_secrets.env"

def projectEnvFilename : Str := lit ".env"

/-- What `restore_payload` returns. -/
structure RestoreResult where
  summary : List (Category × Nat)
  restarting : Bool
  categories : List Category
deriving DecidableEq

variable (P : Platform) (m : Moment)

/-- `_payload_encryption_key`. -/
def payloadEncryptionKey (payload : Dict) : Str :=
  match (payload.get Category.applicationSecrets.text).orElse (.obj []) with
  | .obj secrets =>
      strip (((Dict.get secrets (lit "ENCRYPTION_KEY")).orElse (.str [])).pyStr P.ucd)
  | _ => []

/-- `_rewrap_fernet_token` in a process whose `ENCRYPTION_KEY` is `destKey`. -/
def rewrapFernetToken (destKey sourceKey label token : Str) : Except Exc Str :=
  if token = [] then .ok token
  else if sourceKey = strip destKey then .ok token
  else if P.fernet.valid sourceKey = false then
    backupError (lit "Backup ENCRYPTION_KEY is not a valid Fernet key.")
  else
    match P.fernet.decrypt sourceKey token with
    | some plaintext => .ok (P.fernet.encrypt destKey plaintext)
    | none =>
        backupError (label ++ lit " could not be decrypted with the backup ENCRYPTION_KEY. The archive secrets do not match the encrypted data.")

/-- A stored token: rewrapped if the secrets of the archive are restored. -/
def restoredToken (destKey sourceKey label : Str) (value : Json) : Except Exc Str :=
  if sourceKey ≠ [] then do
    let token ← asText value
    rewrapFernetToken P destKey sourceKey label token
  else bindTextNotNull P value

/-- Rows restored one after the other from the items of a category. -/
def restoreRows [Record α] (build : Json → Except Exc α) (t : Table α) (items : List Json) :
    Except Exc (Table α) :=
  items.foldlM (fun t item => do addRow t (← build item)) t

/-- `db.add(row)` unless the item is skipped. -/
def addRow? [Record α] (t : Table α) : Option α → Except Exc (Table α)
  | some v => addRow t v
  | none => .ok t

/-- The items of a category whose check passed. -/
def itemsOf (payload : Dict) (category : Category) : List Json :=
  (listOr (payload.get category.text)).getD []

section Rows

variable (destKey sourceKey : Str)

/-- The restored row of a setting, unless it is skipped. -/
def settingOf (item : Json) : Except Exc (Option Setting) := do
  let row ← asDict item
  let name ← stripped (row.get (lit "name"))
  if name = [] ∨ name ∈ excludedSettingNames then .ok none
  else
    let value ← restoredToken P destKey sourceKey (lit "Setting '" ++ name ++ lit "'")
      ((row.get (lit "value")).orElse (.str []))
    .ok (some ⟨name, value⟩)

def restoreSettings (t : Table Setting) (items : List Json) : Except Exc (Table Setting) :=
  items.foldlM (fun t item => do addRow? t (← settingOf P destKey sourceKey item)) t

/-- The restored row of a user, with a fresh session version. -/
def userOf (item : Json × Nat) : Except Exc User := do
  let row ← asDict item.1
  let passwordHash ← bindTextNotNull P (row.get (lit "password_hash"))
  let roles ← parseRolesOr (row.get (lit "roles"))
  .ok { username := strip ((row.get (lit "username")).pyStr P.ucd)
        passwordHash
        roles := serializeRoles roles
        disabled := (row.get (lit "disabled")).truthy
        sessionVersion := m.draw item.2 }

def restoreUsers (items : List Json) : Except Exc (Table User) :=
  items.zipIdx.foldlM (fun t item => do addRow t (← userOf P m item)) .empty

def zoneOf (item : Json) : Except Exc DnsZoneConfig := do
  let row ← asDict item
  let zoneName := row.get (lit "zone_name")
  let encryptedConfig ← restoredToken P destKey sourceKey
    (lit "Zone '" ++ zoneName.pyStr P.ucd ++ lit "'") (row.get (lit "encrypted_config"))
  .ok { zoneName := ← bindTextNotNull P zoneName, encryptedConfig }

def restoreZones (items : List Json) : Except Exc (Table DnsZoneConfig) :=
  restoreRows (zoneOf P destKey sourceKey) .empty items

end Rows

def apiKeyOf (item : Json) : Except Exc ApiKey := do
  let row ← asDict item
  let label ← bindTextNotNull P ((row.get (lit "label")).orElse (.str []))
  let key ← bindTextNotNull P (row.get (lit "key"))
  let keyPrefix ← bindText P ((row.get (lit "key_prefix")).orElse (.str []))
  let accessMode ← bindTextNotNull P (accessModeOf row)
  let createdAt ← parseDt P (row.get (lit "created_at"))
  .ok { label, key, keyPrefix, accessMode
        active := (row.getD (lit "active") (.bool true)).truthy
        createdAt := createdAt.getD m.now }

/-- One of the zones a restored key may use; a name without a zone is
skipped. -/
def restoreAllowedZone (zones : Table DnsZoneConfig) (keyId : Nat) (t : Table ApiKeyAllowedZone)
    (zname : Json) : Except Exc (Table ApiKeyAllowedZone) :=
  match zname with
  | .str name =>
      match zones.byKey name with
      | some zone => addRow t ⟨keyId, zone.id⟩
      | none => .ok t
  | _ => if hashable zname then .ok t else .error typeError

def restoreApiKey (zones : Table DnsZoneConfig) (t : Table ApiKey × Table ApiKeyAllowedZone)
    (item : Json) : Except Exc (Table ApiKey × Table ApiKeyAllowedZone) := do
  let key ← apiKeyOf P m item
  let keys ← addRow t.1 key
  let row ← asDict item
  let allowed := (listOr (row.get (lit "allowed_zones"))).getD []
  let links ← allowed.foldlM (restoreAllowedZone zones t.1.nextId) t.2
  .ok (keys, links)

def restoreApiKeys (zones : Table DnsZoneConfig) (items : List Json) :
    Except Exc (Table ApiKey × Table ApiKeyAllowedZone) :=
  items.foldlM (restoreApiKey P m zones) (.empty, .empty)

def alertRuleOf (item : Json) : Except Exc AlertRule := do
  let row ← asDict item
  let name ← bindTextNotNull P ((row.get (lit "name")).orElse (.str []))
  let eventType ← bindText P (row.get (lit "event_type"))
  let category ← bindText P (row.get (lit "category"))
  let minimumLevel ← bindTextNotNull P ((row.get (lit "minimum_level")).orElse (.str (lit "WARNING")))
  let messageContains ← bindText P (row.get (lit "message_contains"))
  let emailRecipients ← bindTextNotNull P ((row.get (lit "email_recipients")).orElse (.str []))
  let emailSubjectTemplate ←
    bindTextNotNull P ((row.get (lit "email_subject_template")).orElse (.str []))
  let emailBodyTemplate ← bindTextNotNull P ((row.get (lit "email_body_template")).orElse (.str []))
  let cooldownMinutes ← pyInt P ((row.get (lit "cooldown_minutes")).orElse (.int 0))
  let lastTriggeredAt ← parseDt P (row.get (lit "last_triggered_at"))
  .ok { enabled := (row.getD (lit "enabled") (.bool true)).truthy
        name, eventType, category, minimumLevel, messageContains, emailRecipients
        emailSubjectTemplate, emailBodyTemplate
        cooldownMinutes := ← bindInt cooldownMinutes
        lastTriggeredAt }

def activityLogOf (item : Json) : Except Exc ActivityLog := do
  let row ← asDict item
  let timestamp ← parseDt P (row.get (lit "timestamp"))
  let level ← bindTextNotNull P ((row.get (lit "level")).orElse (.str (lit "INFORMATIONAL")))
  let category ← bindText P (row.get (lit "category"))
  let eventType ← bindTextNotNull P ((row.get (lit "event_type")).orElse (.str []))
  let status ← bindText P (row.get (lit "status"))
  let actorType ← bindText P (row.get (lit "actor_type"))
  let actorId ← bindText P (row.get (lit "actor_id"))
  let actorLabel ← bindText P (row.get (lit "actor_label"))
  let zoneName ← bindText P (row.get (lit "zone_name"))
  let recordName ← bindText P (row.get (lit "record_name"))
  let message ← bindText P (row.get (lit "message"))
  let detailsJson ← bindText P (row.get (lit "details_json"))
  let requestMethod ← bindText P (row.get (lit "request_method"))
  let requestPath ← bindText P (row.get (lit "request_path"))
  let requestStatusCode ← bindInteger P (row.get (lit "request_status_code"))
  let requestIp ← bindText P (row.get (lit "request_ip"))
  .ok { timestamp := timestamp.getD m.now
        level, category, eventType, status, actorType, actorId, actorLabel, zoneName, recordName
        message, detailsJson, requestMethod, requestPath, requestStatusCode, requestIp }

section Database

variable (destKey sourceKey : Str) (cats : List Category) (payload : Dict) (db : Db)

/-- The settings after the transaction; the progress of the restore stays. -/
def settingsAfter : Except Exc (Table Setting) :=
  if .settings ∈ cats then
    restoreSettings P destKey sourceKey
      (db.settings.delete fun row => row.val.name ≠ settingBackupProgress)
      (itemsOf payload .settings)
  else .ok db.settings

def usersAfter : Except Exc (Table User) :=
  if .users ∈ cats then restoreUsers P m (itemsOf payload .users) else .ok db.users

def zonesAfter : Except Exc (Table DnsZoneConfig) :=
  if .zones ∈ cats then restoreZones P destKey sourceKey (itemsOf payload .zones)
  else .ok db.zones

/-- The keys and the zones they may use; restoring zones empties the latter. -/
def apiKeysAfter (zones : Table DnsZoneConfig) :
    Except Exc (Table ApiKey × Table ApiKeyAllowedZone) :=
  if .apiKeys ∈ cats then restoreApiKeys P m zones (itemsOf payload .apiKeys)
  else .ok (db.apiKeys, if .zones ∈ cats then .empty else db.allowedZones)

def alertRulesAfter : Except Exc (Table AlertRule) :=
  if .alertRules ∈ cats then restoreRows (alertRuleOf P) .empty (itemsOf payload .alertRules)
  else .ok db.alertRules

def activityLogsAfter : Except Exc (Table ActivityLog) :=
  if .activityLogs ∈ cats then
    restoreRows (activityLogOf P m) .empty (itemsOf payload .activityLogs)
  else .ok db.activityLogs

/-- The rows after the transaction; an exception rolls it back.  The selected
categories are emptied first, so that each is restored into an empty table. -/
def restoreDatabase : Except Exc Db := do
  let settings ← settingsAfter P destKey sourceKey cats payload db
  let users ← usersAfter P m cats payload db
  let zones ← zonesAfter P destKey sourceKey cats payload db
  let keys ← apiKeysAfter P m cats payload db zones
  let alertRules ← alertRulesAfter P cats payload db
  let activityLogs ← activityLogsAfter P m cats payload db
  .ok { users, apiKeys := keys.1, zones, allowedZones := keys.2, settings, alertRules, activityLogs }

/-- What each table holds after the transaction. -/
theorem restoreDatabase_eq_ok_iff {db' : Db} :
    restoreDatabase P m destKey sourceKey cats payload db = .ok db' ↔
      settingsAfter P destKey sourceKey cats payload db = .ok db'.settings ∧
      usersAfter P m cats payload db = .ok db'.users ∧
      zonesAfter P destKey sourceKey cats payload db = .ok db'.zones ∧
      apiKeysAfter P m cats payload db db'.zones = .ok (db'.apiKeys, db'.allowedZones) ∧
      alertRulesAfter P cats payload db = .ok db'.alertRules ∧
      activityLogsAfter P m cats payload db = .ok db'.activityLogs := by
  unfold restoreDatabase
  simp only [bind_eq_ok_iff]
  constructor
  · intro h
    obtain ⟨settings, hs, users, hu, zones, hz, keys, hk, rules, hr, logs, hl, h⟩ := h
    have hdb := Except.ok.inj h
    rw [← hdb]
    exact ⟨hs, hu, hz, hk, hr, hl⟩
  · intro h
    obtain ⟨hs, hu, hz, hk, hr, hl⟩ := h
    exact ⟨_, hs, _, hu, _, hz, _, hk, _, hr, _, hl, rfl⟩

end Database

/-! ## files -/

/-- `_looks_like_pem_private_key`. -/
def looksLikePemPrivateKey (raw : List UInt8) : Bool :=
  contains (Utf8.decodeIgnore raw) (lit "BEGIN") &&
    contains (Utf8.decodeIgnore raw) (lit "PRIVATE KEY")

def osError : Exc := .other (lit "OSError")

def unicodeDecodeError : Exc := .valueError (lit "UnicodeDecodeError")

/-- The bytes to write for a file of the archive. -/
def sslFileContent (destKey sourceKey : Str) (file : Str × Json) : Except Exc (List UInt8) := do
  match Base64.b64decode false (← asText file.2) with
  | none => .error (.valueError (lit "Incorrect padding"))
  | some raw =>
      if file.1 = acmeAccountKeyFilename ∧ sourceKey ≠ [] ∧ looksLikePemPrivateKey raw = false then
        match Utf8.decodeStrict raw with
        | none => .error unicodeDecodeError
        | some token =>
            let token ← rewrapFernetToken P destKey sourceKey (lit "ACME account key") token
            .ok (Utf8.encode token)
      else .ok raw

/-- Write the files of the archive; how many were written. -/
def writeSslFiles (destKey sourceKey : Str) : Dict → Nat → Files → Except Exc Nat × Files
  | [], count, files => (.ok count, files)
  | file :: rest, count, files =>
      if file.1 ∉ sslFileNames then writeSslFiles destKey sourceKey rest count files
      else
        match sslFileContent P destKey sourceKey file with
        | .error exc => (.error exc, files)
        | .ok raw =>
            if m.writes file.1 then
              writeSslFiles destKey sourceKey rest (count + 1)
                (Function.update files file.1 (some raw))
            else (.error osError, files)

/-- The directory without the files that are restored. -/
def removeSslFiles (files : Files) : Files := fun name =>
  if name ∈ sslFileNames then none else files name

/-- The files of the archive. -/
def filesOf (payload : Dict) : Dict :=
  match payload.get Category.sslFiles.text with
  | .obj files => files
  | _ => []

def restoreSslFiles (destKey sourceKey : Str) (payload : Dict) (files : Files) :
    Except Exc Nat × Files :=
  writeSslFiles P m destKey sourceKey (filesOf payload) 0 (removeSslFiles files)

/-! ## application secrets -/

/-- The variables of `.env` that are replaced. -/
def Secrets.replacements (secrets : Secrets) : List (Str × Str) :=
  [(lit "SECRET_KEY", secrets.secretKey), (lit "ENCRYPTION_KEY", secrets.encryptionKey)]

/-- `line.split("=", 1)[0].strip()`; a comment, or a line without a `=`, has no key. -/
def envKey (line : Str) : Option Str :=
  if startsWith (strip line) ['#'] ∨ '=' ∉ line then none
  else some (strip (line.takeWhile (· ≠ '=')))

/-- `f"{key}={value}"`. -/
def assignment (v : Str × Str) : Str := v.1 ++ '=' :: v.2

/-- A line of `.env` with the new secrets. -/
def updatedLine (secrets : Secrets) (line : Str) : Str :=
  match (envKey line).bind fun key => secrets.replacements.find? (·.1 = key) with
  | some v => assignment v
  | none => line

/-- The text of `.env` with the new secrets. -/
def updatedEnv (secrets : Secrets) (text : Str) : Str :=
  let existing := splitLines (universalNewlines text)
  let unseen := secrets.replacements.filter fun v => some v.1 ∉ existing.map envKey
  join ['\n'] (existing.map (updatedLine secrets) ++ unseen.map assignment) ++ ['\n']

/-- The part of `write_application_secrets` that edits the `.env` of the project:
an `OSError` is passed over, text that is no UTF-8 raises. -/
def editProjectEnv (secrets : Secrets) (file : Option (List UInt8)) :
    Except Exc Unit × Option (List UInt8) :=
  match file with
  | none => (.ok (), file)
  | some raw =>
      if m.mayEditEnv then
        match Utf8.decodeStrict raw with
        | none => (.error unicodeDecodeError, file)
        | some text =>
            if m.writes projectEnvFilename then
              (.ok (), some (Utf8.encode (updatedEnv secrets text)))
            else (.ok (), file)
      else (.ok (), file)

/-- `env_bootstrap.write_application_secrets`. -/
def writeApplicationSecrets (secrets : Secrets) (host : Host) : Except Exc Unit × Host :=
  match validatePersistedSecret P (lit "SECRET_KEY") secrets.secretKey,
    validatePersistedSecret P (lit "ENCRYPTION_KEY") secrets.encryptionKey with
  | .error exc, _ => (.error exc, host)
  | .ok _, .error exc => (.error exc, host)
  | .ok secretKey, .ok encryptionKey =>
      if m.writes appSecretsFilename then
        let edited := editProjectEnv m ⟨secretKey, encryptionKey⟩ host.projectEnv
        (edited.1, { host with durable := some ⟨secretKey, encryptionKey⟩,
                               environ := ⟨secretKey, encryptionKey⟩,
                               projectEnv := edited.2 })
      else (.error osError, host)

/-- Every account gets a fresh session version. -/
def freshSessionVersions (users : Table User) : Table User :=
  users.update (fun row => { row.val with sessionVersion := m.draw row.id }) fun _ => rfl

/-- The secrets of the archive, stripped. -/
def secretsOf (payload : Dict) : Except Exc Secrets := do
  let secrets ← asDict ((payload.get Category.applicationSecrets.text).orElse (.obj []))
  let secretKey ← stripped (secrets.get (lit "SECRET_KEY"))
  let encryptionKey ← stripped (secrets.get (lit "ENCRYPTION_KEY"))
  .ok ⟨secretKey, encryptionKey⟩

/-- The secrets of the archive replace those of the installation unless its
tokens were rewrapped for the key of the installation. -/
def adoptsArchiveKeys (destKey : Str) (cats : List Category) (secrets : Secrets) : Bool :=
  (∀ c ∈ fernetBackedCategories, c ∉ cats) ∨ secrets.encryptionKey = strip destKey

/-- Accounts that are not restored must not be reached with the cookies of the
archive's installation. -/
def endSessions (cats : List Category) (host : Host) : Host :=
  if .users ∈ cats then host
  else { host with db := { host.db with users := freshSessionVersions m host.db.users } }

/-- The last part of a restore; whether the secrets were replaced. -/
def restoreApplicationSecrets (cats : List Category) (payload : Dict) (host : Host) :
    Except Exc Bool × Host :=
  match secretsOf payload with
  | .error exc => (.error exc, host)
  | .ok secrets =>
      if secrets.secretKey = [] ∨ secrets.encryptionKey = [] then
        (backupError (lit "Backup application secrets are incomplete."), host)
      else if adoptsArchiveKeys host.processKey cats secrets then
        let written := writeApplicationSecrets P m secrets (endSessions m cats host)
        ((fun _ => true) <$> written.1, written.2)
      else (.ok false, host)

/-! ## the whole restore -/

/-- What a restore counts in a category, `files` being the files written. -/
def countOf (payload : Dict) (files : Nat) : Category → Nat
  | .sslFiles => files
  | .applicationSecrets => 2
  | category => (itemsOf payload category).length

/-- The SSL part: the files written, and the directory it leaves. -/
def sslAfter (sourceKey : Str) (cats : List Category) (payload : Dict) (host : Host) :
    Except Exc Nat × Files :=
  if .sslFiles ∈ cats then restoreSslFiles P m host.processKey sourceKey payload host.ssl
  else (.ok 0, host.ssl)

/-- The secrets part. -/
def secretsAfter (cats : List Category) (payload : Dict) (host : Host) : Except Exc Bool × Host :=
  if .applicationSecrets ∈ cats then restoreApplicationSecrets P m cats payload host
  else (.ok false, host)

/-- What a restore returns. -/
def resultOf (cats : List Category) (payload : Dict) (files : Nat) (replaced : Bool) :
    RestoreResult where
  summary := cats.map fun c => (c, countOf payload files c)
  restarting := replaced || .sslFiles ∈ cats || .settings ∈ cats
  categories := cats

/-- The parts after the transaction. -/
def restoreFiles (sourceKey : Str) (cats : List Category) (payload : Dict) (host : Host) :
    Except Exc RestoreResult × Host :=
  let written := sslAfter P m sourceKey cats payload host
  let host := { host with ssl := written.2 }
  match written.1 with
  | .error exc => (.error exc, host)
  | .ok count =>
      let replaced := secretsAfter P m cats payload host
      (resultOf cats payload count <$> replaced.1, replaced.2)

/-- The `ENCRYPTION_KEY` of the archive, if its secrets are restored. -/
def archiveKey (cats : List Category) (payload : Dict) : Str :=
  if .applicationSecrets ∈ cats then payloadEncryptionKey P payload else []

/-- `restore_payload`. -/
def restorePayload (payload : Dict) (categories : List Str) (host : Host) :
    Except Exc RestoreResult × Host :=
  let cats := normalizeCategories categories
  if cats = [] then (backupError (lit "Select at least one category to restore."), host)
  else
    match validateRestoreRecords P host.processKey cats payload with
    | .error exc => (.error exc, host)
    | .ok _ =>
        let sourceKey := archiveKey P cats payload
        match restoreDatabase P m host.processKey sourceKey cats payload host.db with
        | .error exc => (.error exc, host)
        | .ok db => restoreFiles P m sourceKey cats payload { host with db := db }

/-! ## stand-ins -/

/-- A restore that goes without incident. -/
def calm : Moment := ⟨⟨lit "2024-01-01T00:00:00"⟩, fun n => n + 1, fun _ => true, true⟩

/-- A Fernet key. -/
def hostKey : Str := lit "AAAAAAAAAAAAAAAAAAAAAAAAAAAAAAAAAAAAAAAAAAA="

/-- An installation without rows. -/
def newHost : Host where
  db := .empty
  ssl _ := none
  environ := ⟨lit "secret", hostKey⟩
  container := ⟨lit "secret", hostKey⟩
  durable := none
  projectEnv := none
  processKey := hostKey

/-- A restore that succeeds, with the host it leaves. -/
theorem eq_of_fst_eq_ok {x : Except Exc RestoreResult × Host} {result : RestoreResult}
    (h : x.1 = .ok result) : x = (.ok result, x.2) :=
  Prod.ext h rfl

end ApiToDns.Backup
