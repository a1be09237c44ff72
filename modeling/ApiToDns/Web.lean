import ApiToDns.SettingsStore

/-!
# Web

The settings that a request reads beside its own: those of the page header
(`web.nav_context`), which every page includes, and the log level that begins each
entry in the activity log.  A token that does not decrypt is no `ValueError` and
passes every reader here.

* `emitActivityEvent` — an entry in the activity log, as far as it raises;
* `navContext` — the page header, as far as it raises.
-/

namespace ApiToDns

open Py

/-! ## registered settings -/

/-- The registered setting `SETTING_LOG_LEVEL`. -/
def logLevelSpec : SettingSpec := ⟨lit "log_level", .str, some (lit "INFORMATIONAL")⟩

/-- The registered setting `SETTING_RESTART_REQUIRED`. -/
def restartRequiredSpec : SettingSpec := ⟨lit "restart_required", .bool, some (lit "false")⟩

/-- The registered setting `SETTING_RESTART_REASON`. -/
def restartReasonSpec : SettingSpec :=
  ⟨lit "restart_reason", .str, some (lit "Application restart required.")⟩

/-- The registered setting `SETTING_SSL_ENABLED`. -/
def sslEnabledSpec : SettingSpec := ⟨lit "ssl_enabled", .bool, some (lit "false")⟩

/-- The registered setting `SETTING_APP_DNS_NAME`. -/
def appDnsNameSpec : SettingSpec := ⟨lit "app_dns_name", .str, some (lit "")⟩

/-- What `_typed_bool` and `is_ssl_enabled` make of a value read. -/
def truthValue : Except Exc Json → Except Exc Bool
  | .ok x => .ok x.truthy
  | .error exc => if exc.isValueError then .ok false else .error exc

variable (P : Platform) (processKey : Str) (db : Db)

/-- What `get_app_dns_name` finds stored; without it the name is the default one. -/
def storedAppDnsName : Except Exc Str :=
  typedOr P processKey db appDnsNameSpec
    (fun | .null => [] | value => strip (value.pyStr P.ucd)) []

/-! ## what raises -/

/-- `_typed_str`, as far as it raises. -/
def readTyped (spec : SettingSpec) : Except Exc Unit :=
  typedOr P processKey db spec (fun _ => ()) ()

/-- `emit_activity_event`, as far as it raises: it begins with `get_log_level`,
for which a `ValueError` is an empty level. -/
def emitActivityEvent : Except Exc Unit := readTyped P processKey db logLevelSpec

/-- `nav_context`, as far as it raises: if a restart is pending it has a reason, and
the addresses before and after it (`preview_restart_urls`). -/
def navContext : Except Exc Unit := do
  if ← truthValue (getTypedSetting P processKey db restartRequiredSpec) then
    let _ ← getTypedSetting P processKey db restartReasonSpec
    let _ ← truthValue (getTypedSetting P processKey db sslEnabledSpec)
    readTyped P processKey db appDnsNameSpec

end ApiToDns
