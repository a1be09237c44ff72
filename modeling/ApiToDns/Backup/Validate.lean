import ApiToDns.Platform
import ApiToDns.Rbac

/-!
# Backup.Validate

The categories of a backup and the checks a payload passes before anything is
replaced (`validate_restore_records`).
-/

namespace ApiToDns.Backup

open Py

/-- A category of a backup. -/
inductive Category where
  | settings
  | users
  | zones
  | apiKeys
  | alertRules
  | sslFiles
  | applicationSecrets
  | activityLogs
deriving DecidableEq, Repr

def Category.text : Category → Str
  | .settings => lit "settings"
  | .users => lit "users"
  | .zones => lit "zones"
  | .apiKeys => lit "api_keys"
  | .alertRules => lit "alert_rules"
  | .sslFiles => lit "ssl_files"
  | .applicationSecrets => lit "application_secrets"
  | .activityLogs => lit "activity_logs"

/-- `ALL_CATEGORIES`. -/
def allCategories : List Category :=
  [.settings, .users, .zones, .apiKeys, .alertRules, .sslFiles, .applicationSecrets, .activityLogs]

/-- `FERNET_BACKED_CATEGORIES`. -/
def fernetBackedCategories : List Category := [.settings, .zones, .sslFiles]

/-- `ENCRYPTION_REQUIRED_EXPORT_CATEGORIES`. -/
def encryptionRequiredExportCategories : List Category :=
  [.settings, .users, .zones, .apiKeys, .sslFiles, .applicationSecrets]

/-- `normalize_categories` of a given selection. -/
def normalizeCategories (selected : List Str) : List Category :=
  allCategories.filter fun c => c.text ∈ selected

/-- `SETTING_BACKUP_PROGRESS`. -/
def settingBackupProgress : Str := lit "backup_restore_progress"

/-- `_EXCLUDED_SETTING_NAMES`: what is in progress does not round-trip. -/
def excludedSettingNames : List Str :=
  [settingBackupProgress, lit "restart_required", lit "restart_reason",
    lit "last_scheduled_restart_date", lit "letsencrypt_renewal_pending_restart",
    lit "letsencrypt_enrollment", lit "letsencrypt_enrollment_progress",
    lit "last_activity_retention_cleanup"]

/-- `ACME_ACCOUNT_KEY_FILENAME`. -/
def acmeAccountKeyFilename : Str := lit "acme_account.key"

/-- `SSL_FILE_NAMES`. -/
def sslFileNames : List Str :=
  [lit "server.key", lit "server.crt", lit "server.source", acmeAccountKeyFilename]

/-- `MANIFEST_ENVELOPE_ENCRYPTED`. -/
def manifestEnvelopeEncrypted : Str := lit "envelope_encrypted"

def minPasswordHashRounds : Int := 10000

def maxPasswordHashRounds : Int := 600000

/-- `raise BackupError(msg)`; `BackupError` is a `RuntimeError`. -/
def backupError (msg : Str) : Except Exc α := .error (.runtimeError msg)

variable (P : Platform)

/-- `except (TypeError, ValueError) as exc: raise BackupError(msg)`. -/
def asBackupError (msg : Str) : Except Exc α → Except Exc α
  | .error exc =>
      if exc = typeError ∨ exc.isValueError = true then backupError msg else .error exc
  | r => r

/-- `_require_mapping`. -/
def requireMapping (item : Json) (label : Str) : Except Exc Dict :=
  match item with
  | .obj fields => .ok fields
  | _ => backupError (label ++ lit " entry must be an object.")

/-- `payload.get(category) or []`, which has to be a list. -/
def listCategory (payload : Dict) (category : Category) (msg : Str) : Except Exc (List Json) :=
  match listOr (payload.get category.text) with
  | some items => .ok items
  | none => backupError msg

/-- `validate_import_categories`. -/
def validateImportCategories (cats : List Category) (payload : Dict) : Except Exc Unit := do
  let manifest ← asDict ((payload.get (lit "manifest")).orElse (.obj []))
  let included ← textsOf ((manifest.get (lit "categories")).orElse (.arr []))
  cats.forM fun cat => do
    if cat.text ∉ included ∧ payload.has cat.text = false then
      backupError (lit "Backup does not include " ++
        (if cat = .activityLogs then lit "audit logs" else cat.text) ++ ['.'])
  if (∃ c ∈ fernetBackedCategories, c ∈ cats) ∧ Category.applicationSecrets ∉ cats then
    backupError (lit "Restoring settings, DNS zones, or SSL files requires Application secrets (ENCRYPTION_KEY) so encrypted data can be re-wrapped for this installation.")

/-- The check of a setting. -/
def validateSetting (item : Json) : Except Exc Unit := do
  let row ← requireMapping item (lit "Settings")
  let name ← stripped (row.get (lit "name"))
  if name ≠ [] ∧ name ∉ excludedSettingNames then
    match row.get (lit "value") with
    | .null | .str _ => .ok ()
    | _ => backupError (lit "Setting '" ++ name ++ lit "' value must be a string.")

def validateSettings (payload : Dict) : Except Exc Unit := do
  let items ← listCategory payload .settings (lit "Backup settings category must be a list.")
  items.forM validateSetting

/-- `_validate_password_hash`. -/
def validatePasswordHash (passwordHash username : Str) : Except Exc Unit :=
  if P.identify passwordHash = false then
    backupError (lit "User '" ++ username ++ lit "' has an unrecognized password_hash format.")
  else
    match passwordHash.splitOn '$' with
    | _ :: scheme :: roundsText :: _ =>
        if startsWith scheme (lit "pbkdf2") then
          match P.ucd.parseInt roundsText with
          | none =>
              backupError (lit "User '" ++ username ++
                lit "' has an invalid password_hash rounds value.")
          | some rounds =>
              if rounds < minPasswordHashRounds ∨ maxPasswordHashRounds < rounds then
                backupError (lit "User '" ++ username ++
                  lit "' password_hash rounds must be between 10000 and 600000.")
              else .ok ()
        else .ok ()
    | _ => .ok ()

/-- `parse_roles(x or "")`. -/
def parseRolesOr (x : Json) : Except Exc (List Str) := parseRoles <$> asText (x.orElse (.str []))

/-- The check of one user, after the names in `seen`: the name, and whether
it is an enabled global admin. -/
def validateUser (seen : List Str) (item : Json) : Except Exc (Str × Bool) := do
  let row ← requireMapping item (lit "User")
  let username ← stripped (row.get (lit "username"))
  if username = [] then backupError (lit "User entry missing username.")
  else
    match row.get (lit "password_hash") with
    | .str passwordHash =>
        if strip passwordHash = [] then
          backupError (lit "User '" ++ username ++ lit "' is missing password_hash.")
        else
          validatePasswordHash P passwordHash username
          if username ∈ seen then
            backupError (lit "Duplicate user '" ++ username ++ lit "' in backup.")
          else
            let _ ← asBackupError (lit "User '" ++ username ++ lit "' has invalid session_version.")
              (pyInt P ((row.get (lit "session_version")).orElse (.int 0)))
            if (row.get (lit "disabled")).truthy then .ok (username, false)
            else
              let roles ← parseRolesOr (row.get (lit "roles"))
              .ok (username, decide (roleGlobalAdmin ∈ effectiveRoles roles))
    | _ => backupError (lit "User '" ++ username ++ lit "' is missing password_hash.")

/-- The checks of all users; whether one is an enabled global admin. -/
def validateUserList (seen : List Str) : List Json → Except Exc Bool
  | [] => .ok false
  | item :: items => do
      let checked ← validateUser P seen item
      let rest ← validateUserList (checked.1 :: seen) items
      .ok (checked.2 || rest)

def validateUsers (payload : Dict) : Except Exc Unit := do
  let refusal := lit "Backup users category is empty; refusing to leave the system with no accounts."
  let items ← listCategory payload .users refusal
  if items = [] then backupError refusal
  else
    let enabledGlobalAdmin ← validateUserList P [] items
    if enabledGlobalAdmin then .ok ()
    else backupError (lit "Backup users must include at least one enabled global administrator.")

def validateZoneList (seen : List Str) : List Json → Except Exc Unit
  | [] => .ok ()
  | item :: items => do
      let row ← requireMapping item (lit "Zone")
      let zoneName ← stripped (row.get (lit "zone_name"))
      if zoneName = [] then backupError (lit "Zone entry missing zone_name.")
      else if zoneName ∈ seen then
        backupError (lit "Duplicate zone '" ++ zoneName ++ lit "' in backup.")
      else
        match row.get (lit "encrypted_config") with
        | .str (_ :: _) => validateZoneList (zoneName :: seen) items
        | _ => backupError (lit "Zone '" ++ zoneName ++ lit "' is missing encrypted_config.")

def validateZones (payload : Dict) : Except Exc Unit := do
  let items ← listCategory payload .zones (lit "Backup zones category must be a list.")
  validateZoneList [] items

/-- `row.get("access_mode", API_KEY_ACCESS_READ_WRITE)`. -/
def accessModeOf (row : Dict) : Json := row.getD (lit "access_mode") (.str apiKeyAccessReadWrite)

def validateApiKeyList (seen : List Str) : List Json → Except Exc Unit
  | [] => .ok ()
  | item :: items => do
      let row ← requireMapping item (lit "API key")
      match row.get (lit "key") with
      | .str [] => backupError (lit "API key entry missing key digest.")
      | .str digest =>
          if digest ∈ seen then backupError (lit "Duplicate API key digest in backup.")
          else
            match accessModeOf row with
            | .str mode =>
                if mode ∈ apiKeyAccessModes then
                  match listOr (row.get (lit "allowed_zones")) with
                  | some _ => validateApiKeyList (digest :: seen) items
                  | none => backupError (lit "API key allowed_zones must be a list.")
                else backupError (lit "API key access_mode must be read_only or read_write.")
            | _ => backupError (lit "API key access_mode must be read_only or read_write.")
      | _ => backupError (lit "API key entry missing key digest.")

def validateApiKeys (payload : Dict) : Except Exc Unit := do
  let items ← listCategory payload .apiKeys (lit "Backup API keys category must be a list.")
  validateApiKeyList [] items

def validateAlertRules (payload : Dict) : Except Exc Unit := do
  let items ← listCategory payload .alertRules (lit "Backup alert rules category must be a list.")
  items.forM fun item => do
    let row ← requireMapping item (lit "Alert rule")
    let _ ← asBackupError (lit "Alert rule has invalid cooldown_minutes.")
      (pyInt P ((row.get (lit "cooldown_minutes")).orElse (.int 0)))

/-- The check of one file. -/
def validateSslFile (file : Str × Json) : Except Exc Unit :=
  if file.1 ∉ sslFileNames then .ok ()
  else
    match file.2 with
    | .str b64 =>
        if strip b64 = [] then backupError (lit "SSL file '" ++ file.1 ++ lit "' is empty.")
        else
          match Base64.b64decode true b64 with
          | some _ => .ok ()
          | none => backupError (lit "SSL file '" ++ file.1 ++ lit "' is not valid base64.")
    | _ => backupError (lit "SSL file '" ++ file.1 ++ lit "' is empty.")

/-- `payload.get(category) or {}`, which has to be an object. -/
def objectCategory (payload : Dict) (category : Category) (msg : Str) : Except Exc Dict :=
  match (payload.get category.text).orElse (.obj []) with
  | .obj fields => .ok fields
  | _ => backupError msg

def validateSslFiles (payload : Dict) : Except Exc Unit := do
  let files ← objectCategory payload .sslFiles (lit "Backup SSL files category must be an object.")
  files.forM validateSslFile

def validateActivityLogs (payload : Dict) : Except Exc Unit := do
  let items ← listCategory payload .activityLogs (lit "Backup activity logs category must be a list.")
  items.forM fun item => do
    let _ ← requireMapping item (lit "Activity log")

/-- `env_bootstrap._validate_persisted_secret`. -/
def validatePersistedSecret (name value : Str) : Except Exc Str :=
  let cleaned := strip value
  if cleaned = [] then .error (.valueError (name ++ lit " is empty."))
  else if cleaned.any fun c => c.toNat < 32 || c.toNat = 127 then
    .error (.valueError (name ++ lit " contains control characters."))
  else if name = lit "ENCRYPTION_KEY" ∧ P.fernet.valid cleaned = false then
    .error (.valueError (lit "ENCRYPTION_KEY is not a valid Fernet key."))
  else .ok cleaned

/-- `_validate_persisted_secret` with `except ValueError as exc: raise BackupError(str(exc))`. -/
def checkPersistedSecret (name value : Str) : Except Exc Unit :=
  match validatePersistedSecret P name value with
  | .error (.valueError msg) => backupError msg
  | .error exc => .error exc
  | .ok _ => .ok ()

/-- The check of the application secrets in a process whose `ENCRYPTION_KEY`
is `destKey`. -/
def validateApplicationSecrets (destKey : Str) (cats : List Category) (payload : Dict) :
    Except Exc Unit := do
  let refusal :=
    lit "Application secrets can only be restored from a password-encrypted backup."
  match (payload.get (lit "manifest")).orElse (.obj []) with
  | .obj manifest =>
      if (Dict.get manifest manifestEnvelopeEncrypted).truthy = false then backupError refusal
      else
        let secrets ← objectCategory payload .applicationSecrets
          (lit "Backup application secrets must be an object.")
        let secretKey ← stripped (secrets.get (lit "SECRET_KEY"))
        let encryptionKey ← stripped (secrets.get (lit "ENCRYPTION_KEY"))
        if secretKey = [] ∨ encryptionKey = [] then
          backupError (lit "Backup application secrets are incomplete.")
        else
          checkPersistedSecret P (lit "SECRET_KEY") secretKey
          checkPersistedSecret P (lit "ENCRYPTION_KEY") encryptionKey
          if (∀ c ∈ fernetBackedCategories, c ∉ cats) ∧ encryptionKey ≠ strip destKey then
            backupError (lit "Restoring Application secrets alone cannot replace ENCRYPTION_KEY when it differs from this installation. Also restore settings, DNS zones, or SSL files so encrypted data can be re-wrapped.")
          else .ok ()
  | _ => backupError refusal

/-- `if category in cats:` before a check. -/
def ifSelected (cats : List Category) (category : Category) (check : Except Exc Unit) :
    Except Exc Unit :=
  if category ∈ cats then check else .ok ()

/-- `validate_restore_records` of normalised categories. -/
def validateRestoreRecords (destKey : Str) (cats : List Category) (payload : Dict) :
    Except Exc Unit := do
  validateImportCategories cats payload
  ifSelected cats .settings (validateSettings payload)
  ifSelected cats .users (validateUsers P payload)
  ifSelected cats .zones (validateZones payload)
  ifSelected cats .apiKeys (validateApiKeys payload)
  ifSelected cats .alertRules (validateAlertRules P payload)
  ifSelected cats .sslFiles (validateSslFiles payload)
  ifSelected cats .activityLogs (validateActivityLogs payload)
  ifSelected cats .applicationSecrets (validateApplicationSecrets P destKey cats payload)

end ApiToDns.Backup
