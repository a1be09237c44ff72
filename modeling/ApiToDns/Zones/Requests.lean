import ApiToDns.ApiKeys
import ApiToDns.Backup.Readable
import ApiToDns.Zones.Forms

/-!
# Zones.Requests

What changes zone configurations and the plugins they may use: the requests of
`routes/zones.py` and `routes/settings_plugins.py`, the migration of the legacy
settings, and the restore of an archive.  The pages and the entries in the
activity log that follow a change are left out.

* `zoneCreate`, `zoneUpdate`, … — the handlers;
* `ZoneRequest.after` — the installation after a request.
-/

namespace ApiToDns.Zones

open Py Backup

variable (P : Platform) (dumps : Json → Str) (processKey : Str)

/-! ## disabled plugins -/

/-- The spec of `DISABLED_DNS_PLUGINS_SETTING`. -/
def disabledSpec : SettingSpec := ⟨lit "disabled_dns_plugins", .json, some (lit "[]")⟩

/-- The known keys that a stored value names. -/
def disabledOf (parsed : Json) : List Str :=
  match parsed with
  | .arr items =>
      getKnownDnsProviderKeys.filter fun key =>
        key ∈ items.map fun item => P.ucd.lower (strip (item.pyStr P.ucd))
  | _ => []

/-- `get_disabled_dns_plugins`, in the order of the keys. -/
def getDisabledDnsPlugins (db : Db) : Except Exc (List Str) :=
  match getTypedSetting P processKey db disabledSpec with
  | .ok parsed => .ok (disabledOf P parsed)
  | .error exc => if exc.isValueError then .ok [] else .error exc

/-- `set_disabled_dns_plugins`. -/
def setDisabledDnsPlugins (db : Db) (pluginKeys : List Str) : Db :=
  let cleaned := getKnownDnsProviderKeys.filter fun key =>
    key ∈ pluginKeys.map fun key => P.ucd.lower (strip key)
  if cleaned = [] then deleteSetting db disabledSpec.key
  else setSetting P processKey db disabledSpec.key (dumps (.arr (cleaned.map .str)))

/-- `enabled_dns_provider_options`. -/
def enabledDnsProviderOptions (db : Db) : Except Exc (List DnsProviderPlugin) := do
  let disabled ← getDisabledDnsPlugins P processKey db
  .ok (getDnsProviderOptions.filter fun plugin => plugin.key ∉ disabled)

/-- The provider of a stored zone. -/
def zoneProvider (zone : DnsZoneConfig) : Except Exc Str := do
  storedProvider P.ucd (← decodeZoneConfig P processKey zone)

/-- `zones_using_dns_provider`. -/
def zonesUsingDnsProvider (db : Db) (providerKey : Str) : Except Exc (List Str) := do
  let used ← (ApiKeys.listDnsZones db).mapM fun zone => do
    .ok (zone.val.zoneName, ← zoneProvider P processKey zone.val)
  .ok ((used.filter fun zone => zone.2 = providerKey).map Prod.fst)

/-! ## pages -/

/-- What a page says. -/
structure Page where
  message : Str
  isError : Bool := false
deriving DecidableEq, Repr

/-- A request that raises changes nothing. -/
abbrev Served := Except Exc (Page × Db)

/-- `settings_plugin_disable`. -/
def settingsPluginDisable (db : Db) (pluginKey : Str) : Served := do
  let normalizedKey := P.ucd.lower (strip pluginKey)
  if normalizedKey ∉ getKnownDnsProviderKeys then
    .ok (⟨lit "Unknown DNS provider plugin: " ++ pluginKey ++ lit ".", true⟩, db)
  else do
    let disabled ← getDisabledDnsPlugins P processKey db
    if normalizedKey ∈ disabled then
      .ok (⟨dnsProviderDisplayName P.ucd normalizedKey ++ lit " is already disabled.", false⟩, db)
    else if (getDnsProviderOptions.filter fun plugin => plugin.key ∉ disabled).length ≤ 1 then
      .ok (⟨lit "At least one DNS provider plugin must remain enabled.", true⟩, db)
    else do
      let zoneNames ← zonesUsingDnsProvider P processKey db normalizedKey
      match zoneNames with
      | [] =>
          .ok (⟨dnsProviderDisplayName P.ucd normalizedKey ++ lit " disabled.", false⟩,
            setDisabledDnsPlugins P dumps processKey db (normalizedKey :: disabled))
      | [firstZone] =>
          .ok (⟨lit "Cannot disable " ++ dnsProviderDisplayName P.ucd normalizedKey ++
            lit ". Delete DNS zone " ++ firstZone ++ lit " first.", true⟩, db)
      | zoneNames =>
          .ok (⟨lit "Cannot disable " ++ dnsProviderDisplayName P.ucd normalizedKey ++
            lit ". Delete DNS zones " ++ join (lit ", ") zoneNames ++ lit " first.", true⟩, db)

/-- `settings_plugin_enable`. -/
def settingsPluginEnable (db : Db) (pluginKey : Str) : Served := do
  let normalizedKey := P.ucd.lower (strip pluginKey)
  if normalizedKey ∉ getKnownDnsProviderKeys then
    .ok (⟨lit "Unknown DNS provider plugin: " ++ pluginKey ++ lit ".", true⟩, db)
  else do
    let disabled ← getDisabledDnsPlugins P processKey db
    .ok (⟨dnsProviderDisplayName P.ucd normalizedKey ++ lit " enabled.", false⟩,
      setDisabledDnsPlugins P dumps processKey db (disabled.filter fun key => key ≠ normalizedKey))

/-! ## zones -/

/-- `encode_zone_config_dict`. -/
def encodeZoneConfigDict (cfg : Dict) : Str := encryptValue P processKey (dumps (.obj cfg))

/-- The text of an exception that is a `ValueError`. -/
def valueErrorText? : Exc → Option Str
  | .valueError msg | .validationError msg | .patchMergeError msg => some msg
  | _ => none

/-- The configuration of a form; a `ValueError` is shown on the page. -/
def withForm (form : Form) (existing : Json) (plugins : List DnsProviderPlugin) (db : Db)
    (save : Dict → Served) : Served :=
  match buildZoneConfigFromForm P.ucd form existing plugins with
  | .ok cfg => save cfg
  | .error exc =>
      match valueErrorText? exc with
      | some msg => .ok (⟨msg, false⟩, db)
      | none => .error exc

/-- `zone_create`. -/
def zoneCreate (db : Db) (form : Form) : Served :=
  let canonical := normalizeZoneName P.ucd ((form (lit "zone_name")).getD [])
  if canonical = [] then .ok (⟨lit "Zone name is required.", false⟩, db)
  else do
    let plugins ← enabledDnsProviderOptions P processKey db
    if (db.zones.byKey canonical).isSome then
      .ok (⟨lit "A zone named " ++ P.ucd.repr canonical ++ lit " already exists.", false⟩, db)
    else
      withForm P form .null plugins db fun cfg =>
        match db.zones.insert ⟨canonical, encodeZoneConfigDict P dumps processKey cfg⟩ with
        | some zones =>
            .ok (⟨lit "Zone " ++ P.ucd.repr canonical ++ lit " added.", false⟩, { db with zones })
        | none => .error integrityError

/-- The configuration of a zone is replaced. -/
def changeZone (zones : Table DnsZoneConfig) (id : Nat) (encryptedConfig : Str) :
    Table DnsZoneConfig :=
  zones.update (fun row => if row.id = id then { row.val with encryptedConfig } else row.val)
    fun row => by split <;> rfl

/-- `zone_update`; without such a zone it is a redirection. -/
def zoneUpdate (db : Db) (zoneId : Int) (form : Form) : Served := do
  let id ← bindInt zoneId
  match db.zones.get? id.toNat with
  | none => .ok (⟨[], false⟩, db)
  | some row => do
      let existing ← decodeZoneConfig P processKey row.val
      let plugins ← enabledDnsProviderOptions P processKey db
      withForm P form existing plugins db fun cfg =>
        .ok (⟨lit "Zone saved.", false⟩,
          { db with
            zones := changeZone db.zones row.id (encodeZoneConfigDict P dumps processKey cfg) })

/-- What `detach_dns_zone_from_letsencrypt` changes in the settings: the
configuration it writes, and whether it cancels the enrollment. -/
structure Detached where
  config : Option Str
  cancels : Bool

/-- The settings after the zone has been detached. -/
def Detached.apply (detached : Detached) (db : Db) : Db :=
  let db := if detached.cancels then deleteSetting db (lit "letsencrypt_enrollment") else db
  match detached.config with
  | some config => setSetting P processKey db (lit "letsencrypt_config") config
  | none => db

/-- `zone_delete`, for what detaching the zone comes to. -/
def zoneDelete (db : Db) (zoneId : Int) (detached : Except Exc Detached) : Served := do
  let id ← bindInt zoneId
  match db.zones.get? id.toNat with
  | none => .ok (⟨lit "Zone removed.", false⟩, db)
  | some row => do
      let detached ← detached
      let db := detached.apply P processKey db
      .ok (⟨lit "Zone removed.", false⟩,
        { db with
          zones := db.zones.delete fun zone => zone.id = row.id
          allowedZones := db.allowedZones.delete fun link => link.val.dnsZoneConfigId = row.id })

/-! ## legacy settings -/

/-- `LEGACY_DNS_SETTING_NAMES`. -/
def legacyDnsSettingNames : List Str :=
  [lit "dns_provider_type", lit "dns_server", lit "dns_zone", lit "dns_username", lit "dns_password",
    lit "dns_tsig_algorithm", lit "dns_winrm_ssl", lit "azure_tenant_id", lit "azure_client_id",
    lit "azure_client_secret", lit "azure_subscription_id", lit "azure_resource_group"]

/-- The settings that a migrated configuration takes over, and what stands for
an empty one. -/
def migratedSettings : List (Str × Str) :=
  [(lit "dns_provider_type", lit "azure"), (lit "dns_server", []), (lit "dns_username", []),
    (lit "dns_password", []), (lit "dns_tsig_algorithm", []), (lit "dns_winrm_ssl", []),
    (lit "azure_tenant_id", []), (lit "azure_client_id", []), (lit "azure_client_secret", []),
    (lit "azure_subscription_id", []), (lit "azure_resource_group", [])]

/-- `get_setting(db, name) or default`. -/
def legacySetting (db : Db) (name default : Str) : Except Exc Str := do
  match (← getSetting P processKey db name).getD [] with
  | [] => .ok default
  | value => .ok value

/-- The configuration of the legacy settings. -/
def legacyConfig (db : Db) : Except Exc Dict :=
  migratedSettings.mapM fun setting => do
    .ok (setting.1, .str (← legacySetting P processKey db setting.1 setting.2))

/-- Every active key may use the zone. -/
def linkActiveKeys (db : Db) (zoneId : Nat) : Option (Table ApiKeyAllowedZone) :=
  db.allowedZones.insertAll
    ((db.apiKeys.rows.filter fun key => key.val.active).map fun key => ⟨key.id, zoneId⟩)

/-- `migrate_legacy_dns_settings_if_needed`: the zone is committed before the
links of the keys, and these before the settings are deleted. -/
def migrateLegacyDnsSettingsIfNeeded (db : Db) : Except Exc Unit × Db :=
  if db.zones.rows ≠ [] then (.ok (), db)
  else
    match getSetting P processKey db (lit "dns_zone") with
    | .error exc => (.error exc, db)
    | .ok none => (.ok (), db)
    | .ok (some zoneRaw) =>
        if strip zoneRaw = [] then (.ok (), db)
        else
          match legacyConfig P processKey db with
          | .error exc => (.error exc, db)
          | .ok cfg =>
              match db.zones.insert
                  ⟨normalizeZoneName P.ucd zoneRaw, encodeZoneConfigDict P dumps processKey cfg⟩ with
              | none => (.error integrityError, db)
              | some zones =>
                  match linkActiveKeys db db.zones.nextId with
                  | none => (.error integrityError, { db with zones })
                  | some allowedZones =>
                      (.ok (), legacyDnsSettingNames.foldl deleteSetting
                        { db with zones, allowedZones })

/-! ## requests -/

/-- What changes zones and plugins. -/
inductive ZoneRequest where
  | create (form : Form)
  | update (zoneId : Int) (form : Form)
  | delete (zoneId : Int) (detached : Except Exc Detached)
  | disable (pluginKey : Str)
  | enable (pluginKey : Str)
  | migrate
  | restore (m : Moment) (payload : Dict) (categories : List Str)

/-- The tables after a request that may have raised. -/
def Served.after (db : Db) : Served → Db
  | .ok (_, db') => db'
  | .error _ => db

/-- The installation after a request. -/
def ZoneRequest.after (host : Host) : ZoneRequest → Host
  | create form => { host with db := (zoneCreate P dumps host.processKey host.db form).after host.db }
  | update zoneId form =>
      { host with db := (zoneUpdate P dumps host.processKey host.db zoneId form).after host.db }
  | delete zoneId detached =>
      { host with db := (zoneDelete P host.processKey host.db zoneId detached).after host.db }
  | disable pluginKey =>
      { host with
        db := (settingsPluginDisable P dumps host.processKey host.db pluginKey).after host.db }
  | enable pluginKey =>
      { host with
        db := (settingsPluginEnable P dumps host.processKey host.db pluginKey).after host.db }
  | migrate =>
      { host with db := (migrateLegacyDnsSettingsIfNeeded P dumps host.processKey host.db).2 }
  | restore m payload categories => (restorePayload P m payload categories host).2

end ApiToDns.Zones
