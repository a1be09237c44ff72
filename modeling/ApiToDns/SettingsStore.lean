import ApiToDns.Platform

/-!
# SettingsStore

The settings the code knows (`settings_registry.py`) and how a stored one is
read (`settings_store.py`).
-/

namespace ApiToDns

open Py

inductive ValueType where
  | str
  | bool
  | int
  | json
deriving DecidableEq, Repr

/-- `SettingSpec`, without what is shown of it. -/
structure SettingSpec where
  key : Str
  valueType : ValueType
  default : Option Str
deriving DecidableEq, Repr

/-- `SETTING_SPECS`. -/
def settingSpecs : List SettingSpec :=
  [
    ⟨lit "ssl_enabled", .bool, some (lit "false")⟩,
    ⟨lit "restart_required", .bool, some (lit "false")⟩,
    ⟨lit "restart_reason", .str, some (lit "Application restart required.")⟩,
    ⟨lit "last_scheduled_restart_date", .str, none⟩,
    ⟨lit "letsencrypt_renewal_pending_restart", .bool, some (lit "false")⟩,
    ⟨lit "letsencrypt_config", .json, none⟩,
    ⟨lit "letsencrypt_enrollment", .json, none⟩,
    ⟨lit "letsencrypt_enrollment_progress", .json, none⟩,
    ⟨lit "disabled_dns_plugins", .json, some (lit "[]")⟩,
    ⟨lit "backup_restore_progress", .json, none⟩,
    ⟨lit "log_level", .str, some (lit "INFORMATIONAL")⟩,
    ⟨lit "activity_retention_days", .int, some (lit "90")⟩,
    ⟨lit "last_activity_retention_cleanup", .str, none⟩,
    ⟨lit "operational_log_file", .str, some (lit "")⟩,
    ⟨lit "operational_log_max_bytes", .int, some (lit "1048576")⟩,
    ⟨lit "operational_log_backup_count", .int, some (lit "5")⟩,
    ⟨lit "app_dns_name", .str, some (lit "")⟩,
    ⟨lit "smtp_servers", .str, some (lit "")⟩,
    ⟨lit "smtp_port", .int, some (lit "587")⟩,
    ⟨lit "smtp_anonymous", .bool, some (lit "false")⟩,
    ⟨lit "smtp_username", .str, some (lit "")⟩,
    ⟨lit "smtp_password", .str, some (lit "")⟩,
    ⟨lit "smtp_from", .str, some (lit "")⟩,
    ⟨lit "smtp_security", .str, some (lit "starttls")⟩,
    ⟨lit "smtp_timeout", .int, some (lit "10")⟩,
    ⟨lit "smtp_allow_insecure_auth", .bool, some (lit "false")⟩,
    ⟨lit "remote_syslog_enabled", .bool, some (lit "false")⟩,
    ⟨lit "remote_syslog_host", .str, some (lit "")⟩,
    ⟨lit "remote_syslog_port", .int, some (lit "6514")⟩,
    ⟨lit "remote_syslog_protocol", .str, some (lit "tls")⟩,
    ⟨lit "remote_syslog_facility", .str, some (lit "local0")⟩,
    ⟨lit "remote_syslog_minimum_level", .str, some (lit "INFORMATIONAL")⟩,
    ⟨lit "remote_syslog_timeout", .str, some (lit "5.0")⟩,
    ⟨lit "remote_syslog_queue_size", .int, some (lit "1000")⟩,
    ⟨lit "remote_syslog_allow_insecure_plaintext", .bool, some (lit "false")⟩,
    ⟨lit "dns_provider_type", .str, some (lit "azure")⟩,
    ⟨lit "dns_server", .str, some (lit "")⟩,
    ⟨lit "dns_zone", .str, some (lit "")⟩,
    ⟨lit "dns_username", .str, some (lit "")⟩,
    ⟨lit "dns_password", .str, some (lit "")⟩,
    ⟨lit "dns_tsig_algorithm", .str, some (lit "")⟩,
    ⟨lit "dns_winrm_ssl", .str, some (lit "")⟩,
    ⟨lit "azure_tenant_id", .str, some (lit "")⟩,
    ⟨lit "azure_client_id", .str, some (lit "")⟩,
    ⟨lit "azure_client_secret", .str, some (lit "")⟩,
    ⟨lit "azure_subscription_id", .str, some (lit "")⟩,
    ⟨lit "azure_resource_group", .str, some (lit "")⟩
  ]

/-- `get_spec`. -/
def getSpec (key : Str) : Option SettingSpec := settingSpecs.find? fun spec => spec.key == key

def truthyTexts : List Str :=
  [lit "1", lit "true", lit "yes", lit "on", lit "enabled"]

def falsyTexts : List Str :=
  [lit "0", lit "false", lit "no", lit "off", lit "disabled", []]

variable (P : Platform)

/-- `_parse_typed` of a text that is there. -/
def parseTypedText (spec : SettingSpec) (raw : Str) : Except Exc Json :=
  match spec.valueType with
  | .str => .ok (.str raw)
  | .bool =>
      let lowered := P.ucd.lower (strip raw)
      if lowered ∈ truthyTexts then .ok (.bool true)
      else if lowered ∈ falsyTexts then .ok (.bool false)
      else .error (.valueError (lit "Invalid boolean for " ++ spec.key ++ lit ": " ++ P.ucd.repr raw))
  | .int =>
      match P.ucd.parseInt raw with
      | some i => .ok (.int i)
      | none =>
          .error (.valueError (lit "Invalid integer for " ++ spec.key ++ lit ": " ++ P.ucd.repr raw))
  | .json =>
      if strip raw = [] then .ok .null
      else
        match P.loads raw with
        | some x => .ok x
        | none => .error (.valueError (lit "Invalid JSON for " ++ spec.key))

/-- `_parse_typed`. -/
def parseTyped (spec : SettingSpec) (raw : Option Str) : Except Exc Json :=
  match raw.or spec.default with
  | some raw => parseTypedText P spec raw
  | none =>
      match spec.valueType with
      | .json => .ok .null
      | .bool => .ok (.bool false)
      | .int => .ok (.int 0)
      | .str => .ok (.str [])

/-- `get_setting` under the process's `ENCRYPTION_KEY`. -/
def getSetting (processKey : Str) (db : Db) (name : Str) : Except Exc (Option Str) :=
  match db.settings.byKey name with
  | none => .ok none
  | some record => some <$> decryptValue P processKey record.val.value

/-- `get_typed_setting_by_key` of a registered setting. -/
def getTypedSetting (processKey : Str) (db : Db) (spec : SettingSpec) : Except Exc Json := do
  parseTyped P spec (← getSetting P processKey db spec.key)

/-- The setting has a row whose token does not decrypt. -/
def Unreadable (processKey : Str) (db : Db) (spec : SettingSpec) : Prop :=
  ∃ record, db.settings.byKey spec.key = some record ∧
    P.fernet.decrypt processKey record.val.value = none

/-- A typed value, or what stands for one that a `ValueError` is raised for. -/
def typedOr {α : Type} (processKey : Str) (db : Db) (spec : SettingSpec) (value : Json → α)
    (fallback : α) : Except Exc α :=
  match getTypedSetting P processKey db spec with
  | .ok x => .ok (value x)
  | .error exc => if exc.isValueError then .ok fallback else .error exc

/-- A setting that is not of its type is a value error. -/
theorem isValueError_parseTyped {P : Platform} {spec : SettingSpec} {raw : Option Str} {exc : Exc}
    (h : parseTyped P spec raw = .error exc) : exc.isValueError = true := by
  unfold parseTyped at h
  cases hraw : raw.or spec.default with
  | none =>
      rw [hraw] at h
      cases htype : spec.valueType <;> rw [htype] at h <;> cases h
  | some text =>
      rw [hraw] at h
      unfold parseTypedText at h
      cases htype : spec.valueType <;> simp only [htype] at h
      case str => cases h
      all_goals
        split at h
        · cases h
        · first
            | cases h; rfl
            | split at h <;> cases h; rfl

/-- A setting is read, or a `ValueError` is raised, unless its token does not
decrypt. -/
theorem getTypedSetting_cases (P : Platform) (processKey : Str) (db : Db) (spec : SettingSpec) :
    (Unreadable P processKey db spec ∧ getTypedSetting P processKey db spec = .error invalidToken) ∨
      ¬Unreadable P processKey db spec ∧
        ((∃ x, getTypedSetting P processKey db spec = .ok x) ∨
          ∃ exc, getTypedSetting P processKey db spec = .error exc ∧ exc.isValueError = true) := by
  have hparsed : ∀ raw, (∃ x, parseTyped P spec raw = .ok x) ∨
      ∃ exc, parseTyped P spec raw = .error exc ∧ exc.isValueError = true := by
    intro raw
    cases hparse : parseTyped P spec raw with
    | ok x => exact .inl ⟨x, rfl⟩
    | error exc => exact .inr ⟨exc, rfl, isValueError_parseTyped hparse⟩
  unfold getTypedSetting getSetting Unreadable
  cases hrow : db.settings.byKey spec.key with
  | none => exact .inr ⟨by simp, hparsed none⟩
  | some record =>
      dsimp only
      unfold decryptValue
      cases hdata : P.fernet.decrypt processKey record.val.value with
      | none => exact .inl ⟨⟨record, rfl, hdata⟩, rfl⟩
      | some data =>
          refine .inr ⟨by simp [hdata], ?_⟩
          dsimp only
          cases Utf8.decodeStrict data with
          | none => exact .inr ⟨_, rfl, rfl⟩
          | some raw => exact hparsed (some raw)

/-- Such a reader raises exactly for a token that does not decrypt. -/
theorem typedOr_error_iff {α : Type} {P : Platform} {processKey : Str} {db : Db} {spec : SettingSpec}
    {value : Json → α} {fallback : α} :
    (∃ exc, typedOr P processKey db spec value fallback = .error exc) ↔
      Unreadable P processKey db spec := by
  unfold typedOr
  obtain ⟨hbad, heq⟩ | ⟨hfine, ⟨x, heq⟩ | ⟨exc, heq, hvalue⟩⟩ :=
    getTypedSetting_cases P processKey db spec
  · rw [heq]
    exact iff_of_true ⟨invalidToken, rfl⟩ hbad
  · simp [heq, hfine]
  · simp [heq, hvalue, hfine]

/-- `set_setting` under the process's `ENCRYPTION_KEY`. -/
def setSetting (processKey : Str) (db : Db) (name value : Str) : Db :=
  let token := encryptValue P processKey value
  match db.settings.byKey name with
  | some _ =>
      { db with
        settings := db.settings.update
          (fun row => if row.val.name = name then { row.val with value := token } else row.val)
          fun row => by split <;> rfl }
  | none => { db with settings := (db.settings.insert ⟨name, token⟩).getD db.settings }

/-- `_encode_typed` of a truth value. -/
def encodeBool (value : Bool) : Str := if value then lit "true" else lit "false"

/-- `delete_setting`. -/
def deleteSetting (db : Db) (name : Str) : Db :=
  { db with settings := db.settings.delete fun row => row.val.name = name }

/-- Only the settings are written. -/
theorem setSetting_eq (processKey : Str) (db : Db) (name value : Str) :
    setSetting P processKey db name value =
      { db with settings := (setSetting P processKey db name value).settings } := by
  unfold setSetting
  dsimp only
  split <;> rfl

/-! ## the table as a map -/

/-- The token that is stored under a name. -/
def storedToken (db : Db) (name : Str) : Option Str :=
  (db.settings.byKey name).map fun row => row.val.value

/-- The stored token of a setting. -/
theorem storedToken_eq_some_iff {db : Db} {name token : Str} :
    storedToken db name = some token ↔ ∃ row ∈ db.settings.rows, row.val = ⟨name, token⟩ := by
  rw [storedToken, Option.map_eq_some_iff]
  constructor
  · intro h
    obtain ⟨row, hrow, htoken⟩ := h
    obtain ⟨hmem, hname⟩ := Table.byKey_eq_some_iff.mp hrow
    exact ⟨row, hmem, by rw [← htoken, ← Option.some.inj hname]⟩
  · intro h
    obtain ⟨row, hmem, hval⟩ := h
    refine ⟨row, Table.byKey_eq_some_iff.mpr ⟨hmem, ?_⟩, by rw [hval]⟩
    rw [Row.key?, hval]
    rfl

variable {P} {processKey : Str}

/-- What is read under a name is what the token says. -/
theorem getSetting_eq (db : Db) (name : Str) :
    getSetting P processKey db name =
      match storedToken db name with
      | none => .ok none
      | some token => some <$> decryptValue P processKey token := by
  rw [getSetting, storedToken]
  cases db.settings.byKey name <;> rfl

/-- A setting that is written is there with its value. -/
theorem exists_row_setSetting (P : Platform) (key : Str) (db : Db) (name value : Str) :
    ∃ row ∈ (setSetting P key db name value).settings.rows,
      row.val = ⟨name, encryptValue P key value⟩ := by
  unfold setSetting
  dsimp only
  split
  · next old hold =>
      obtain ⟨hmem, hname⟩ := Table.byKey_eq_some_iff.mp hold
      have hname : old.val.name = name := Option.some.inj hname
      refine ⟨⟨old.id, ⟨name, encryptValue P key value⟩⟩, ?_, rfl⟩
      rw [Table.mem_update]
      exact ⟨old, hmem, by simp [hname]⟩
  · next hnone =>
      have hfree := Table.byKey_eq_none_iff.mp hnone
      cases hins : db.settings.insert ⟨name, encryptValue P key value⟩ with
      | none =>
          refine absurd ?_ (Table.insert_eq_none_iff.mp hins)
          intro row hrow k hk heq
          exact hfree row hrow (by rw [hk, ← heq]; rfl)
      | some settings =>
          obtain ⟨-, hrows⟩ := Table.insert_eq_some_iff.mp hins
          refine ⟨db.settings.newRow ⟨name, encryptValue P key value⟩, ?_, rfl⟩
          show _ ∈ settings.rows
          simp [hrows]

/-- Another setting is left alone. -/
theorem exists_row_setSetting_of_ne {db : Db} {name value : Str} {row : Setting}
    (h : row.name ≠ name) :
    (∃ r ∈ (setSetting P processKey db name value).settings.rows, r.val = row) ↔
      ∃ r ∈ db.settings.rows, r.val = row := by
  unfold setSetting
  dsimp only
  split
  · constructor
    · intro hr
      obtain ⟨r, hr, hval⟩ := hr
      rw [Table.mem_update] at hr
      obtain ⟨old, hold, heq⟩ := hr
      rw [← heq] at hval
      dsimp only at hval
      by_cases hname : old.val.name = name
      · rw [if_pos hname] at hval
        exact absurd (by rw [← hval]; exact hname) h
      · rw [if_neg hname] at hval
        exact ⟨old, hold, hval⟩
    · intro hr
      obtain ⟨r, hr, hval⟩ := hr
      refine ⟨r, ?_, hval⟩
      rw [Table.mem_update]
      refine ⟨r, hr, ?_⟩
      rw [if_neg (by rw [hval]; exact h)]
  · cases hins : db.settings.insert ⟨name, encryptValue P processKey value⟩ with
    | none => rfl
    | some settings =>
        obtain ⟨-, hrows⟩ := Table.insert_eq_some_iff.mp hins
        have hne : (⟨name, encryptValue P processKey value⟩ : Setting) ≠ row := by
          intro heq
          exact h (by rw [← heq])
        simp [hrows, Table.newRow, or_and_right, exists_or, hne]

/-- The tokens after a setting is stored. -/
theorem storedToken_setSetting (db : Db) (name value name' : Str) :
    storedToken (setSetting P processKey db name value) name' =
      if name' = name then some (encryptValue P processKey value) else storedToken db name' := by
  split
  · next heq =>
      rw [heq, storedToken_eq_some_iff]
      exact exists_row_setSetting P processKey db name value
  · next hne =>
      ext token
      rw [storedToken_eq_some_iff, storedToken_eq_some_iff]
      exact exists_row_setSetting_of_ne hne

/-- The tokens after a setting is deleted. -/
theorem storedToken_deleteSetting (db : Db) (name name' : Str) :
    storedToken (deleteSetting db name) name' =
      if name' = name then none else storedToken db name' := by
  ext token
  rw [storedToken_eq_some_iff]
  split
  · next heq =>
      simp only [deleteSetting, Table.mem_delete, decide_eq_false_iff_not]
      constructor
      · intro h
        obtain ⟨row, ⟨-, hname⟩, hval⟩ := h
        exact absurd (by rw [hval]; exact heq) hname
      · intro h
        contradiction
  · next hne =>
      rw [storedToken_eq_some_iff]
      simp only [deleteSetting, Table.mem_delete, decide_eq_false_iff_not]
      constructor
      · intro h
        obtain ⟨row, ⟨hmem, -⟩, hval⟩ := h
        exact ⟨row, hmem, hval⟩
      · intro h
        obtain ⟨row, hmem, hval⟩ := h
        exact ⟨row, ⟨hmem, by rw [hval]; exact hne⟩, hval⟩

end ApiToDns
