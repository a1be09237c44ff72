import ApiToDns.Backup.Restore

/-!
# Backup.Build

What an archive holds (`build_payload`) and how it is written and read
(`serialize_backup`, `load_backup_bytes`, `backup_crypto.py`).
-/

namespace ApiToDns.Backup

open Py

/-! ## the payload -/

/-- `_iso`. -/
def iso : Option Datetime → Json
  | some dt => .str dt.isoformat
  | none => .null

/-- A nullable text as JSON. -/
def textJson : Option Str → Json
  | some s => .str s
  | none => .null

/-- A value of a column as JSON. -/
def cellJson : Cell → Json
  | .null => .null
  | .int i => .int i
  | .real text => .float text (text = lit "0.0" ∨ text = lit "-0.0")
  | .text s => .str s

def settingItem (row : Row Setting) : Json :=
  .obj [(lit "name", .str row.val.name), (lit "value", .str row.val.value)]

def userItem (row : Row User) : Json :=
  .obj
    [(lit "username", .str row.val.username), (lit "password_hash", .str row.val.passwordHash),
      (lit "roles", .str row.val.roles), (lit "disabled", .bool row.val.disabled),
      (lit "session_version", .int row.val.sessionVersion)]

def zoneItem (row : Row DnsZoneConfig) : Json :=
  .obj
    [(lit "zone_name", .str row.val.zoneName), (lit "encrypted_config", .str row.val.encryptedConfig)]

/-- The names of the zones a key may use, in the order of the grants. -/
def allowedZones (db : Db) (keyId : Nat) : List Str :=
  (db.allowedZones.rows.filter fun link => link.val.apiKeyId = keyId).filterMap fun link =>
    (db.zones.get? link.val.dnsZoneConfigId).map fun zone => zone.val.zoneName

def apiKeyItem (db : Db) (row : Row ApiKey) : Json :=
  .obj
    [(lit "label", .str row.val.label), (lit "key", .str row.val.key),
      (lit "key_prefix", .str (row.val.keyPrefix.getD [])),
      (lit "access_mode", .str row.val.accessMode), (lit "active", .bool row.val.active),
      (lit "created_at", iso (some row.val.createdAt)),
      (lit "allowed_zones", .arr ((allowedZones db row.id).map .str))]

def alertRuleItem (row : Row AlertRule) : Json :=
  .obj
    [(lit "enabled", .bool row.val.enabled), (lit "name", .str row.val.name),
      (lit "event_type", textJson row.val.eventType), (lit "category", textJson row.val.category),
      (lit "minimum_level", .str row.val.minimumLevel),
      (lit "message_contains", textJson row.val.messageContains),
      (lit "email_recipients", .str row.val.emailRecipients),
      (lit "email_subject_template", .str row.val.emailSubjectTemplate),
      (lit "email_body_template", .str row.val.emailBodyTemplate),
      (lit "cooldown_minutes", .int row.val.cooldownMinutes),
      (lit "last_triggered_at", iso row.val.lastTriggeredAt)]

def activityLogItem (row : Row ActivityLog) : Json :=
  .obj
    [(lit "timestamp", iso (some row.val.timestamp)), (lit "level", .str row.val.level),
      (lit "category", textJson row.val.category), (lit "event_type", .str row.val.eventType),
      (lit "status", textJson row.val.status), (lit "actor_type", textJson row.val.actorType),
      (lit "actor_id", textJson row.val.actorId), (lit "actor_label", textJson row.val.actorLabel),
      (lit "zone_name", textJson row.val.zoneName),
      (lit "record_name", textJson row.val.recordName), (lit "message", textJson row.val.message),
      (lit "details_json", textJson row.val.detailsJson),
      (lit "request_method", textJson row.val.requestMethod),
      (lit "request_path", textJson row.val.requestPath),
      (lit "request_status_code", cellJson row.val.requestStatusCode),
      (lit "request_ip", textJson row.val.requestIp)]

/-- The files of the SSL directory that are there. -/
def sslFileItems (files : Files) : Dict :=
  sslFileNames.filterMap fun name => (files name).map fun raw => (name, .str (Base64.encode raw))

/-- What a category is exported as. -/
def exported (host : Host) : Category → Json
  | .settings =>
      .arr ((host.db.settings.rows.filter fun row =>
        row.val.name ≠ [] ∧ row.val.name ∉ excludedSettingNames).map settingItem)
  | .users => .arr (host.db.users.rows.map userItem)
  | .zones => .arr (host.db.zones.rows.map zoneItem)
  | .apiKeys => .arr (host.db.apiKeys.rows.map (apiKeyItem host.db))
  | .alertRules => .arr (host.db.alertRules.rows.map alertRuleItem)
  | .sslFiles => .obj (sslFileItems host.ssl)
  | .applicationSecrets =>
      .obj [(lit "SECRET_KEY", .str host.environ.secretKey),
        (lit "ENCRYPTION_KEY", .str host.processKey)]
  | .activityLogs => .arr (host.db.activityLogs.rows.map activityLogItem)

/-- The payload holds the selected categories of `source`. -/
def ArchiveOf (source : Host) (cats : List Category) (payload : Dict) : Prop :=
  ∀ c ∈ cats, payload.get c.text = exported source c

/-- A list is its items. -/
theorem listOr_arr (items : List Json) : listOr (.arr items) = some items := by
  cases items <;> rfl

/-- The items of a category that is exported as a list. -/
theorem itemsOf_archive {source : Host} {cats : List Category} {payload : Dict} {c : Category}
    {items : List Json} (h : ArchiveOf source cats payload) (hc : c ∈ cats)
    (hitems : exported source c = .arr items) : itemsOf payload c = items := by
  rw [itemsOf, h c hc, hitems, listOr_arr]
  rfl

/-- `BACKUP_FORMAT`. -/
def backupFormat : Str := lit "api-to-dns-backup"

/-- `BACKUP_VERSION`. -/
def backupVersion : Int := 1

def manifest (now : Datetime) (appVersion : Str) (cats : List Category) : Dict :=
  [(lit "format", .str backupFormat), (lit "schema_version", .int backupVersion),
    (lit "app_version", .str appVersion),
    (lit "categories", .arr (cats.map fun c => .str c.text)),
    (lit "created_at", .str now.isoformat)]

/-- `build_payload`. -/
def buildPayload (now : Datetime) (appVersion : Str) (categories : List Str) (host : Host) : Dict :=
  let cats := normalizeCategories categories
  (lit "manifest", .obj (manifest now appVersion cats)) :: cats.map fun c => (c.text, exported host c)

/-! ## the envelope -/

def backupKdf : Str := lit "pbkdf2_sha256"

def defaultPbkdf2Iterations : Int := 600000

def minPbkdf2Iterations : Int := 100000

def maxPbkdf2Iterations : Int := 1200000

variable (P : Platform)

/-- `encrypt_payload` with a random salt. -/
def encryptPayload (salt payloadJson : List UInt8) (password : Str) : Dict :=
  let key := P.pbkdf2 password salt defaultPbkdf2Iterations.toNat
  [(lit "format", .str backupFormat), (lit "version", .int backupVersion),
    (lit "encrypted", .bool true), (lit "kdf", .str backupKdf),
    (lit "iterations", .int defaultPbkdf2Iterations), (lit "salt", .str (Base64.encode salt)),
    (lit "ciphertext", .str (Base64.encode (Utf8.encode (P.fernet.encrypt key payloadJson))))]

/-- `_validated_iterations`. -/
def validatedIterations (iterations : Int) : Except Exc Int :=
  if iterations < minPbkdf2Iterations then
    .error (.valueError (lit "PBKDF2 iteration count is too low."))
  else if maxPbkdf2Iterations < iterations then
    .error (.valueError (lit "PBKDF2 iteration count is too high."))
  else .ok iterations

/-- `base64.b64decode(envelope[key])`. -/
def envelopeBytes (envelope : Dict) (key : Str) : Except Exc (List UInt8) :=
  if envelope.has key = false then .error (.other (lit "KeyError"))
  else
    match envelope.get key with
    | .str text =>
        match Base64.b64decode false text with
        | some bs => .ok bs
        | none => .error (.valueError (lit "Incorrect padding"))
    | _ => .error typeError

/-- `except (TypeError, ValueError) as exc: raise ValueError(msg)`. -/
def asValueError (msg : Str) : Except Exc α → Except Exc α
  | .error exc =>
      if exc = typeError ∨ exc.isValueError = true then .error (.valueError msg) else .error exc
  | r => r

/-- `decrypt_envelope`. -/
def decryptEnvelope (envelope : Dict) (password : Str) : Except Exc (List UInt8) :=
  match envelope.get (lit "format"), (envelope.get (lit "encrypted")).truthy,
    (envelope.get (lit "kdf")).orElse (.str []) with
  | .str format, true, .str kdf =>
      if format ≠ backupFormat then .error (.valueError (lit "Unrecognized backup format."))
      else if kdf ≠ backupKdf then
        .error (.valueError (lit "Unsupported backup key derivation."))
      else do
        let salt ← envelopeBytes envelope (lit "salt")
        let iterations ← asValueError (lit "Invalid PBKDF2 iteration count.") do
          validatedIterations
            (← pyInt P ((envelope.get (lit "iterations")).orElse (.int defaultPbkdf2Iterations)))
        let token ← envelopeBytes envelope (lit "ciphertext")
        if password = [] then .error (.valueError (lit "Backup password is required."))
        else
          let key := P.pbkdf2 password salt iterations.toNat
          match P.fernet.decrypt key (tokenOf token) with
          | some payload => .ok payload
          | none =>
              .error (.valueError (lit "Incorrect backup password or corrupt archive."))
  | .str format, encrypted, _ =>
      if format ≠ backupFormat then .error (.valueError (lit "Unrecognized backup format."))
      else if encrypted = false then .error (.valueError (lit "Envelope is not encrypted."))
      else .error (.valueError (lit "Unsupported backup key derivation."))
  | _, _, _ => .error (.valueError (lit "Unrecognized backup format."))

/-- `serialize_backup`. -/
def serializeBackup (now : Datetime) (salt : List UInt8) (payload : Dict) (encrypt : Bool)
    (password : Str) : Except Exc (List UInt8) := do
  let manifest ← asDict ((payload.get (lit "manifest")).orElse (.obj []))
  let created := (manifest.get (lit "created_at")).orElse (.str now.isoformat)
  let sensitive := sortedSet
    ((encryptionRequiredExportCategories.map Category.text).filter fun c => payload.has c)
  if sensitive ≠ [] ∧ encrypt = false then
    backupError (lit "Selected backup categories require a password-encrypted backup: " ++
      join (lit ", ") sensitive ++ ['.'])
  else if encrypt then
    if password = [] then backupError (lit "Password is required when encryption is enabled.")
    else if password.length < 8 then
      backupError (lit "Backup password must be at least 8 characters.")
    else
      let envelope :=
        encryptPayload P salt (Utf8.encode (P.dumps .compact (.obj payload))) password ++
          [(lit "created_at", created)]
      .ok (Utf8.encode (P.dumps .indented (.obj envelope)))
  else
    let envelope :=
      [(lit "format", .str backupFormat), (lit "version", .int backupVersion),
        (lit "created_at", created), (lit "encrypted", .bool false), (lit "payload", .obj payload)]
    .ok (Utf8.encode (P.dumps .indented (.obj envelope)))

/-- `d[key] = value`. -/
def setKey (d : Dict) (key : Str) (value : Json) : Dict :=
  if d.has key then d.map fun field => if field.1 == key then (key, value) else field
  else d ++ [(key, value)]

/-- The payload with the way it was sealed noted in its manifest. -/
def noteEnvelope (payload : Dict) (encrypted : Bool) : Except Exc Dict :=
  match payload.get (lit "manifest") with
  | .obj manifest =>
      .ok (setKey payload (lit "manifest")
        (.obj (setKey manifest manifestEnvelopeEncrypted (.bool encrypted))))
  | _ => backupError (lit "Backup payload is missing manifest.")

/-- `except ValueError as exc: raise BackupError(str(exc))`. -/
def valueErrorAsBackupError : Except Exc α → Except Exc α
  | .error (.valueError msg) => backupError msg
  | r => r

/-- `json.loads` where a `JSONDecodeError` is raised again as a `BackupError`. -/
def jsonLoads (msg : Str) (text : Str) : Except Exc Json :=
  match P.loadsFault text with
  | some fault => .error fault.exc
  | none =>
      match P.loads text with
      | some document => .ok document
      | none => backupError msg

/-- `load_backup_bytes`; no password is the empty one. -/
def loadBackupBytes (raw : List UInt8) (password : Str) : Except Exc Dict :=
  match Utf8.decodeStrict raw with
  | none => backupError (lit "Backup file is not valid JSON.")
  | some text => do
      let envelope ← asDict (← jsonLoads P (lit "Backup file is not valid JSON.") text)
      match envelope.get (lit "format") with
      | .str format =>
          if format ≠ backupFormat then backupError (lit "Unrecognized backup format.")
          else if (envelope.get (lit "encrypted")).truthy then
            if password = [] then
              backupError (lit "Password is required to decrypt this backup.")
            else
              let payloadBytes ← valueErrorAsBackupError (decryptEnvelope P envelope password)
              match Utf8.decodeStrict payloadBytes with
              | none => .error (.valueError (lit "UnicodeDecodeError"))
              | some text =>
                  let payload ← jsonLoads P (lit "Decrypted backup payload is corrupt.") text
                  noteEnvelope (← asDict payload) true
          else
            match envelope.get (lit "payload") with
            | .obj payload => noteEnvelope payload false
            | _ => backupError (lit "Unencrypted backup is missing payload.")
      | _ => backupError (lit "Unrecognized backup format.")

/-! ## what is read from an archive -/

/-- All categories. -/
theorem mem_allCategories (c : Category) : c ∈ allCategories := by
  cases c <;> decide

/-- Categories differ in their names. -/
theorem text_injective {c d : Category} (h : c.text = d.text) : c = d := by
  have hall : ∀ c ∈ allCategories, ∀ d ∈ allCategories, c.text = d.text → c = d := by decide
  exact hall c (mem_allCategories c) d (mem_allCategories d) h

/-- No category is called like the manifest. -/
theorem text_ne_manifest (c : Category) : c.text ≠ lit "manifest" := by
  have hall : ∀ c ∈ allCategories, c.text ≠ lit "manifest" := by decide
  exact hall c (mem_allCategories c)

/-- The payload holds what the selected categories are exported as. -/
theorem get_buildPayload {now : Datetime} {appVersion : Str} {categories : List Str} {host : Host}
    {c : Category} (hc : c ∈ normalizeCategories categories) :
    (buildPayload now appVersion categories host).get c.text = exported host c := by
  have hmanifest : (lit "manifest" == c.text) = false := by
    simpa using (text_ne_manifest c).symm
  have hfind : ((normalizeCategories categories).find? fun d => d.text == c.text) = some c := by
    cases hd : (normalizeCategories categories).find? fun d => d.text == c.text with
    | none =>
        rw [List.find?_eq_none] at hd
        exact absurd (hd c hc) (by simp)
    | some d =>
        have htext : d.text = c.text := by simpa using List.find?_some hd
        rw [text_injective htext]
  rw [buildPayload, Dict.get, List.find?_cons, hmanifest]
  dsimp only
  rw [List.find?_map]
  have hcomp : ((fun field : Str × Json => field.1 == c.text) ∘ fun d : Category =>
      (d.text, exported host d)) = fun d => d.text == c.text := rfl
  rw [hcomp, hfind]
  rfl

/-- Setting a key leaves the other ones. -/
theorem get_setKey_of_ne {d : Dict} {key key' : Str} {value : Json} (h : key' ≠ key) :
    (setKey d key value).get key' = d.get key' := by
  have hne : (key == key') = false := by simpa using h.symm
  have hmap : Dict.get (d.map fun field => if field.1 == key then (key, value) else field) key' =
      d.get key' := by
    induction d with
    | nil => rfl
    | cons field d ih =>
        unfold Dict.get at ih ⊢
        by_cases hfield : field.1 = key
        · have hfield' : (field.1 == key') = false := by rw [hfield]; exact hne
          simp only [List.map_cons, List.find?_cons, hfield, beq_self_eq_true, if_true, hne]
          exact ih
        · have hfield' : (field.1 == key) = false := by simpa using hfield
          simp only [List.map_cons, List.find?_cons, hfield', Bool.false_eq_true, if_false]
          cases field.1 == key' with
          | true => rfl
          | false => exact ih
  unfold setKey
  split
  · exact hmap
  · rw [Dict.get, Dict.get, List.find?_append]
    cases d.find? fun field => field.1 == key' with
    | some field => rfl
    | none => simp [hne]

/-- What is built is an archive of the selected categories. -/
theorem archiveOf_buildPayload {now : Datetime} {appVersion : Str} {categories : List Str}
    {host : Host} {value : Json} :
    ArchiveOf host (normalizeCategories categories)
      (setKey (buildPayload now appVersion categories host) (lit "manifest") value) := by
  intro c hc
  rw [get_setKey_of_ne (text_ne_manifest c), get_buildPayload hc]

/-- An archive of `host` as it is loaded. -/
def archived (host : Host) (categories : List Str) : Dict :=
  setKey (buildPayload calm.now (lit "1.0") categories host) (lit "manifest")
    (.obj [(manifestEnvelopeEncrypted, .bool true)])

/-- So is what is read back. -/
theorem archiveOf_archived (host : Host) (categories : List Str) :
    ArchiveOf host (normalizeCategories categories) (archived host categories) :=
  archiveOf_buildPayload

end ApiToDns.Backup
