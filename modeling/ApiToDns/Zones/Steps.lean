import ApiToDns.Backup.Atomic
import ApiToDns.Zones.Requests

/-!
# Zones.Steps

What one request does to the zones and to the settings.

* `Creates`, `Updates`, `Migrates` — the requests that write a configuration;
* `Writes`, `zone_after` — the zones after a request are those before it and
  the one it writes, or those of the archive it restores;
* `getSetting_after`, `getSetting_restored` — the settings after it.
-/

namespace ApiToDns.Zones

open Py Backup

variable {P : Platform} {dumps : Json → Str} {processKey : Str}

/-! ## forms -/

/-- Plugins that are enabled. -/
def EnabledIn (P : Platform) (processKey : Str) (db : Db) (plugin : DnsProviderPlugin) : Prop :=
  plugin ∈ getDnsProviderOptions ∧
    ∃ disabled, getDisabledDnsPlugins P processKey db = .ok disabled ∧ plugin.key ∉ disabled

/-- The enabled plugins. -/
theorem mem_enabled {db : Db} {plugins : List DnsProviderPlugin}
    (h : enabledDnsProviderOptions P processKey db = .ok plugins) {plugin : DnsProviderPlugin} :
    plugin ∈ plugins ↔ EnabledIn P processKey db plugin := by
  obtain ⟨disabled, hdisabled, hfilter⟩ := bind_eq_ok h
  rw [← Except.ok.inj hfilter, EnabledIn, hdisabled]
  simp

/-- Enabled plugins are known. -/
theorem known_of_enabled {db : Db} {plugins : List DnsProviderPlugin}
    (h : enabledDnsProviderOptions P processKey db = .ok plugins) : Known plugins :=
  fun _ hp => ((mem_enabled h).mp hp).1

/-- An enabled plugin is among them. -/
theorem exists_enabled {db : Db} {plugin : DnsProviderPlugin} (h : EnabledIn P processKey db plugin) :
    ∃ plugins, enabledDnsProviderOptions P processKey db = .ok plugins ∧ plugin ∈ plugins := by
  obtain ⟨hknown, disabled, hdisabled, hkey⟩ := h
  refine ⟨getDnsProviderOptions.filter fun plugin => plugin.key ∉ disabled, ?_, ?_⟩
  · rw [enabledDnsProviderOptions, hdisabled]
    rfl
  · simp [hknown, hkey]

/-- A form that is refused changes nothing. -/
theorem after_withForm {form : Form} {existing : Json} {plugins : List DnsProviderPlugin} {db : Db}
    {save : Dict → Served} :
    (withForm P form existing plugins db save).after db =
      match buildZoneConfigFromForm P.ucd form existing plugins with
      | .ok cfg => (save cfg).after db
      | .error _ => db := by
  unfold withForm
  cases buildZoneConfigFromForm P.ucd form existing plugins with
  | ok cfg => rfl
  | error exc =>
      dsimp only
      cases valueErrorText? exc <;> rfl

variable (P processKey)

/-- The name that a form gives a new zone. -/
def formName (form : Form) : Str := normalizeZoneName P.ucd ((form (lit "zone_name")).getD [])

/-- The form makes a zone with the plugin. -/
structure Creates (db : Db) (form : Form) (plugin : DnsProviderPlugin) : Prop where
  name : formName P form ≠ []
  free : ∀ row ∈ db.zones.rows, row.val.zoneName ≠ formName P form
  enabled : EnabledIn P processKey db plugin
  asked : formProvider P.ucd form (.obj []) = .ok plugin.key

/-- The form changes the zone of the row, which has the configuration `ex`, to one
with the plugin. -/
structure Updates (db : Db) (zoneId : Int) (form : Form) (row : Row DnsZoneConfig) (ex : Dict)
    (plugin : DnsProviderPlugin) : Prop where
  fits : fitsColumn zoneId = true
  found : db.zones.get? zoneId.toNat = some row
  config : ∃ existing, decodeZoneConfig P processKey row.val = .ok existing ∧
    existing.orElse (.obj []) = .obj ex
  enabled : EnabledIn P processKey db plugin
  asked : formProvider P.ucd form (.obj ex) = .ok plugin.key

/-- The legacy settings become the configuration of a zone. -/
structure Migrates (db : Db) (zoneRaw : Str) (cfg : Dict) : Prop where
  none : db.zones.rows = []
  zone : getSetting P processKey db (lit "dns_zone") = .ok (some zoneRaw)
  named : strip zoneRaw ≠ []
  config : legacyConfig P processKey db = .ok cfg

variable {P processKey}

/-- The configuration of an edited zone was read. -/
theorem Updates.readBack (hjson : JsonLaws P dumps) {processKey : Str} {db : Db} {zoneId : Int}
    {form : Form} {row : Row DnsZoneConfig} {ex : Dict} {plugin : DnsProviderPlugin}
    (h : Updates P processKey db zoneId form row ex plugin) : ReadBack P dumps (.obj ex) := by
  obtain ⟨existing, hdecode, hex⟩ := h.config
  unfold Json.orElse at hex
  split at hex
  · rw [hex] at hdecode
    obtain ⟨text, -, hloads⟩ := bind_eq_ok hdecode
    split at hloads
    · next cfg hcfg =>
        rw [Except.ok.inj hloads] at hcfg
        exact hjson.loaded _ _ hcfg
    · contradiction
  · rw [← hex, hjson.obj]
    simp [Dict.names]

/-- The fields of a legacy configuration. -/
theorem mem_legacyConfig {db : Db} {cfg : Dict} (h : legacyConfig P processKey db = .ok cfg)
    {field : Str × Json} (hfield : field ∈ cfg) :
    ∃ setting ∈ migratedSettings, ∃ value,
      legacySetting P processKey db setting.1 setting.2 = .ok value ∧
        field = (setting.1, .str value) := by
  obtain ⟨setting, hsetting, heq⟩ := mem_of_mapM_eq_ok h hfield
  obtain ⟨value, hvalue, heq⟩ := bind_eq_ok heq
  exact ⟨setting, hsetting, value, hvalue, (Except.ok.inj heq).symm⟩

/-- Their names. -/
theorem names_legacyConfig {db : Db} {cfg : Dict} (h : legacyConfig P processKey db = .ok cfg) :
    cfg.names = migratedSettings.map Prod.fst :=
  map_eq_of_mapM_eq_ok h fun setting _ field hfield => by
    obtain ⟨value, -, heq⟩ := bind_eq_ok hfield
    rw [← Except.ok.inj heq]

/-- A migrated configuration is read back. -/
theorem Migrates.readBack (hjson : JsonLaws P dumps) {db : Db} {zoneRaw : Str} {cfg : Dict}
    (h : Migrates P processKey db zoneRaw cfg) : ReadBack P dumps (.obj cfg) := by
  rw [hjson.obj, names_legacyConfig h.config]
  refine ⟨by decide, fun field hfield => ?_⟩
  obtain ⟨setting, -, value, -, heq⟩ := mem_legacyConfig h.config hfield
  rw [heq]
  exact hjson.str value

/-- A zone is free if no row has its name. -/
theorem free_iff {db : Db} {name config : Str} :
    db.zones.Free ⟨name, config⟩ ↔ ∀ row ∈ db.zones.rows, row.val.zoneName ≠ name := by
  unfold Table.Free
  refine forall₂_congr fun row _ => ?_
  constructor
  · intro h heq
    exact h row.val.zoneName rfl (congrArg some heq.symm)
  · intro h k hk heq
    exact h ((Option.some.inj hk).trans (Option.some.inj heq).symm)

/-- A zone is created, or nothing is changed. -/
theorem zoneCreate_cases (dumps : Json → Str) (db : Db) (form : Form) :
    (∃ plugin zones, Creates P processKey db form plugin ∧
      db.zones.insert
        ⟨formName P form, encodeZoneConfigDict P dumps processKey (configOf form [] plugin)⟩ =
          some zones ∧
      (zoneCreate P dumps processKey db form).after db = { db with zones }) ∨
    (zoneCreate P dumps processKey db form).after db = db := by
  unfold zoneCreate
  dsimp only
  split
  · exact .inr rfl
  · next hname =>
      cases hplugins : enabledDnsProviderOptions P processKey db with
      | error exc => exact .inr rfl
      | ok plugins =>
          rw [ok_bind]
          split
          · exact .inr rfl
          · next hfree =>
              rw [after_withForm]
              cases hbuild : buildZoneConfigFromForm P.ucd form .null plugins with
              | error exc => exact .inr rfl
              | ok cfg =>
                  obtain ⟨ex, plugin, hex, hasked, hmem, hcfg⟩ :=
                    (buildZoneConfigFromForm_eq_ok_iff P.ucd (known_of_enabled hplugins)).mp hbuild
                  have hnil : ex = [] := (Json.obj.inj hex).symm
                  rw [hnil] at hasked hcfg
                  have hnone : db.zones.byKey (formName P form) = none :=
                    Option.not_isSome_iff_eq_none.mp hfree
                  have hrows : ∀ row ∈ db.zones.rows, row.val.zoneName ≠ formName P form := by
                    intro row hrow heq
                    exact Table.byKey_eq_none_iff.mp hnone row hrow (congrArg some heq)
                  have hcreates : Creates P processKey db form plugin :=
                    ⟨hname, hrows, (mem_enabled hplugins).mp hmem, hasked⟩
                  rw [hcfg]
                  dsimp only
                  split
                  · next zones hins => exact .inl ⟨plugin, zones, hcreates, hins, rfl⟩
                  · exact .inr rfl

/-- A form that makes a zone makes it. -/
theorem zoneCreate_of_creates (dumps : Json → Str) {db : Db} {form : Form}
    {plugin : DnsProviderPlugin} (h : Creates P processKey db form plugin) :
    ∃ zones, db.zones.insert
        ⟨formName P form, encodeZoneConfigDict P dumps processKey (configOf form [] plugin)⟩ =
          some zones ∧
      (zoneCreate P dumps processKey db form).after db = { db with zones } := by
  obtain ⟨plugins, hplugins, hmem⟩ := exists_enabled h.enabled
  have hbuild : buildZoneConfigFromForm P.ucd form .null plugins = .ok (configOf form [] plugin) :=
    (buildZoneConfigFromForm_eq_ok_iff P.ucd (known_of_enabled hplugins)).mpr
      ⟨[], plugin, rfl, h.asked, hmem, rfl⟩
  have hnone : db.zones.byKey (formName P form) = none := by
    rw [Table.byKey_eq_none_iff]
    intro row hrow heq
    exact h.free row hrow (Option.some.inj heq)
  cases hzones : db.zones.insert
      ⟨formName P form, encodeZoneConfigDict P dumps processKey (configOf form [] plugin)⟩ with
  | none => exact absurd (free_iff.mpr h.free) (Table.insert_eq_none_iff.mp hzones)
  | some zones =>
      have hname : normalizeZoneName P.ucd ((form (lit "zone_name")).getD []) = formName P form := rfl
      refine ⟨zones, rfl, ?_⟩
      unfold zoneCreate
      rw [hname]
      dsimp only
      rw [if_neg h.name, hplugins, ok_bind, if_neg (by rw [hnone]; simp), after_withForm, hbuild]
      dsimp only
      rw [hzones]
      rfl

/-- The zones after one of them is changed. -/
theorem mem_changeZone {zones : Table DnsZoneConfig} {id : Nat} {text : Str} {row : Row DnsZoneConfig} :
    row ∈ (changeZone zones id text).rows ↔
      ∃ old ∈ zones.rows,
        ⟨old.id, if old.id = id then { old.val with encryptedConfig := text } else old.val⟩ = row :=
  Table.mem_update

/-- A configuration is replaced, or nothing is changed. -/
theorem zoneUpdate_cases (dumps : Json → Str) (db : Db) (zoneId : Int) (form : Form) :
    (∃ row ex plugin, Updates P processKey db zoneId form row ex plugin ∧
      (zoneUpdate P dumps processKey db zoneId form).after db =
        { db with
          zones := changeZone db.zones row.id
            (encodeZoneConfigDict P dumps processKey (configOf form ex plugin)) }) ∨
    (zoneUpdate P dumps processKey db zoneId form).after db = db := by
  unfold zoneUpdate bindInt
  split
  · next hfits =>
      rw [ok_bind]
      cases hrow : db.zones.get? zoneId.toNat with
      | none => exact .inr rfl
      | some row =>
          dsimp only
          cases hdecode : decodeZoneConfig P processKey row.val with
          | error exc => exact .inr rfl
          | ok existing =>
              rw [ok_bind]
              cases hplugins : enabledDnsProviderOptions P processKey db with
              | error exc => exact .inr rfl
              | ok plugins =>
                  rw [ok_bind, after_withForm]
                  cases hbuild : buildZoneConfigFromForm P.ucd form existing plugins with
                  | error exc => exact .inr rfl
                  | ok cfg =>
                      obtain ⟨ex, plugin, hex, hasked, hmem, hcfg⟩ :=
                        (buildZoneConfigFromForm_eq_ok_iff P.ucd
                          (known_of_enabled hplugins)).mp hbuild
                      refine .inl ⟨row, ex, plugin, ?_, by rw [hcfg]; rfl⟩
                      exact ⟨hfits, hrow, ⟨existing, hdecode, hex⟩,
                        (mem_enabled hplugins).mp hmem, hasked⟩
  · exact .inr rfl

/-- A form that changes a zone changes it. -/
theorem zoneUpdate_of_updates (dumps : Json → Str) {db : Db} {zoneId : Int} {form : Form}
    {row : Row DnsZoneConfig} {ex : Dict} {plugin : DnsProviderPlugin}
    (h : Updates P processKey db zoneId form row ex plugin) :
    (zoneUpdate P dumps processKey db zoneId form).after db =
      { db with
        zones := changeZone db.zones row.id
          (encodeZoneConfigDict P dumps processKey (configOf form ex plugin)) } := by
  obtain ⟨plugins, hplugins, hmem⟩ := exists_enabled h.enabled
  obtain ⟨existing, hdecode, hex⟩ := h.config
  have hbuild : buildZoneConfigFromForm P.ucd form existing plugins = .ok (configOf form ex plugin) :=
    (buildZoneConfigFromForm_eq_ok_iff P.ucd (known_of_enabled hplugins)).mpr
      ⟨ex, plugin, hex, h.asked, hmem, rfl⟩
  unfold zoneUpdate bindInt
  rw [if_pos h.fits, ok_bind, h.found]
  dsimp only
  rw [hdecode, ok_bind, hplugins, ok_bind, after_withForm, hbuild]
  rfl

/-- Detaching touches the settings only. -/
theorem apply_eq (d : Detached) (db : Db) :
    d.apply P processKey db = { db with settings := (d.apply P processKey db).settings } := by
  unfold Detached.apply
  dsimp only
  cases d.config with
  | none => cases d.cancels <;> rfl
  | some config =>
      dsimp only
      rw [setSetting_eq]
      cases d.cancels <;> rfl

/-- A zone is removed with the links to it, or nothing is changed. -/
theorem zoneDelete_cases (P : Platform) (processKey : Str) (db : Db) (zoneId : Int) (detached : Except Exc Detached) :
    (∃ row d, db.zones.get? zoneId.toNat = some row ∧ detached = .ok d ∧
      (zoneDelete P processKey db zoneId detached).after db =
        { db with
          settings := (d.apply P processKey db).settings
          zones := db.zones.delete fun zone => zone.id = row.id
          allowedZones := db.allowedZones.delete fun link => link.val.dnsZoneConfigId = row.id }) ∨
    (zoneDelete P processKey db zoneId detached).after db = db := by
  unfold zoneDelete bindInt
  split
  · rw [ok_bind]
    cases hrow : db.zones.get? zoneId.toNat with
    | none => exact .inr rfl
    | some row =>
        cases detached with
        | error exc => exact .inr rfl
        | ok d =>
            refine .inl ⟨row, d, rfl, rfl, ?_⟩
            simp only [ok_bind]
            rw [apply_eq]
            rfl
  · exact .inr rfl

/-- The legacy settings become a zone, or nothing is changed; the zone stays when
the links to it are refused. -/
theorem migrate_cases (dumps : Json → Str) (db : Db) :
    (∃ zoneRaw cfg zones, Migrates P processKey db zoneRaw cfg ∧
      db.zones.insert
        ⟨normalizeZoneName P.ucd zoneRaw, encodeZoneConfigDict P dumps processKey cfg⟩ = some zones ∧
      ((linkActiveKeys db db.zones.nextId = none ∧
          (migrateLegacyDnsSettingsIfNeeded P dumps processKey db).2 = { db with zones }) ∨
        ∃ allowedZones, linkActiveKeys db db.zones.nextId = some allowedZones ∧
          migrateLegacyDnsSettingsIfNeeded P dumps processKey db =
            (.ok (), legacyDnsSettingNames.foldl deleteSetting { db with zones, allowedZones }))) ∨
    (migrateLegacyDnsSettingsIfNeeded P dumps processKey db).2 = db := by
  unfold migrateLegacyDnsSettingsIfNeeded
  split
  · exact .inr rfl
  · next hnone =>
      cases hzone : getSetting P processKey db (lit "dns_zone") with
      | error exc => exact .inr rfl
      | ok zoneRaw =>
          cases zoneRaw with
          | none => exact .inr rfl
          | some zoneRaw =>
              dsimp only
              split
              · exact .inr rfl
              · next hnamed =>
                  cases hconfig : legacyConfig P processKey db with
                  | error exc => exact .inr rfl
                  | ok cfg =>
                      have hmigrates : Migrates P processKey db zoneRaw cfg :=
                        ⟨not_not.mp hnone, hzone, hnamed, hconfig⟩
                      dsimp only
                      split
                      · exact .inr rfl
                      · next zones hins =>
                          refine .inl ⟨zoneRaw, cfg, zones, hmigrates, hins, ?_⟩
                          split
                          · next hlinks => exact .inl ⟨hlinks, rfl⟩
                          · next allowedZones hlinks => exact .inr ⟨allowedZones, hlinks, rfl⟩

/-! ## plugins -/

/-- A plugin that no zone uses is disabled, or nothing is changed. -/
theorem settingsPluginDisable_cases (dumps : Json → Str) (db : Db) (pluginKey : Str) :
    (∃ disabled, getDisabledDnsPlugins P processKey db = .ok disabled ∧
      P.ucd.lower (strip pluginKey) ∈ getKnownDnsProviderKeys ∧
      2 ≤ (getDnsProviderOptions.filter fun plugin => plugin.key ∉ disabled).length ∧
      zonesUsingDnsProvider P processKey db (P.ucd.lower (strip pluginKey)) = .ok [] ∧
      (settingsPluginDisable P dumps processKey db pluginKey).after db =
        setDisabledDnsPlugins P dumps processKey db (P.ucd.lower (strip pluginKey) :: disabled)) ∨
    (settingsPluginDisable P dumps processKey db pluginKey).after db = db := by
  unfold settingsPluginDisable
  dsimp only
  split
  · exact .inr rfl
  · next hknown =>
    rw [not_not] at hknown
    cases hdisabled : getDisabledDnsPlugins P processKey db with
    | error exc => exact .inr rfl
    | ok disabled =>
        rw [ok_bind]
        split
        · exact .inr rfl
        · split
          · exact .inr rfl
          · next hcount =>
              cases hzones : zonesUsingDnsProvider P processKey db (P.ucd.lower (strip pluginKey)) with
              | error exc => exact .inr rfl
              | ok zoneNames =>
                  rw [ok_bind]
                  split
                  · exact .inl ⟨disabled, rfl, hknown, by omega, rfl, rfl⟩
                  · exact .inr rfl
                  · exact .inr rfl

/-- A plugin is enabled, or nothing is changed. -/
theorem settingsPluginEnable_cases (dumps : Json → Str) (db : Db) (pluginKey : Str) :
    (∃ disabled, getDisabledDnsPlugins P processKey db = .ok disabled ∧
      (settingsPluginEnable P dumps processKey db pluginKey).after db =
        setDisabledDnsPlugins P dumps processKey db
          (disabled.filter fun key => key ≠ P.ucd.lower (strip pluginKey))) ∨
    (settingsPluginEnable P dumps processKey db pluginKey).after db = db := by
  unfold settingsPluginEnable
  dsimp only
  split
  · exact .inr rfl
  · cases hdisabled : getDisabledDnsPlugins P processKey db with
    | error exc => exact .inr rfl
    | ok disabled => exact .inl ⟨disabled, rfl, rfl⟩

/-- Disabling plugins touches the settings only. -/
theorem setDisabledDnsPlugins_eq (db : Db) (keys : List Str) :
    setDisabledDnsPlugins P dumps processKey db keys =
      { db with settings := (setDisabledDnsPlugins P dumps processKey db keys).settings } := by
  unfold setDisabledDnsPlugins
  dsimp only
  split
  · rfl
  · exact setSetting_eq P processKey _ _ _

/-! ## the zones -/

variable (P dumps)

/-- A request writes a configuration of this name and text. -/
def Writes (host : Host) (request : ZoneRequest) (name : Str) (text : Except Exc Str) : Prop :=
  match request with
  | .create form =>
      ∃ plugin, Creates P host.processKey host.db form plugin ∧ name = formName P form ∧
        text = .ok (dumps (.obj (configOf form [] plugin)))
  | .update zoneId form =>
      ∃ row ex plugin, Updates P host.processKey host.db zoneId form row ex plugin ∧
        name = row.val.zoneName ∧ text = .ok (dumps (.obj (configOf form ex plugin)))
  | .migrate =>
      ∃ zoneRaw cfg, Migrates P host.processKey host.db zoneRaw cfg ∧
        name = normalizeZoneName P.ucd zoneRaw ∧ text = .ok (dumps (.obj cfg))
  | .restore m payload categories =>
      Commits P m payload categories host ∧ .zones ∈ normalizeCategories categories ∧
        ∃ item ∈ itemsOf payload .zones, ∃ token, ZoneItem item name token ∧
          text = decryptValue P (archiveKey P (normalizeCategories categories) payload) token
  | _ => False

variable {P dumps}

/-- The process can decrypt what it encrypts, and has its key without blanks. -/
structure Keyed (P : Platform) (host : Host) : Prop where
  valid : P.fernet.valid host.processKey = true
  strip : strip host.processKey = host.processKey

/-- No request changes the key of the process. -/
theorem processKey_after (host : Host) (request : ZoneRequest) :
    (request.after P dumps host).processKey = host.processKey := by
  cases request with
  | restore m payload categories =>
      rcases restored_or_same P m _ _ rfl with hsame | hrestored
      · exact congrArg Host.processKey hsame.2
      · obtain ⟨db, hrestored⟩ := hrestored
        exact hrestored.files.processKey
  | _ => rfl

/-- Every request leaves the process its key. -/
theorem keyed_after {host : Host} (h : Keyed P host) (request : ZoneRequest) :
    Keyed P (request.after P dumps host) := by
  constructor
  · rw [processKey_after]
    exact h.valid
  · rw [processKey_after]
    exact h.strip

/-- A sealed configuration is opened again. -/
theorem decryptValue_encode (hF : P.fernet.Laws) (hkey : P.fernet.valid processKey = true)
    (cfg : Dict) :
    decryptValue P processKey (encodeZoneConfigDict P dumps processKey cfg) =
      .ok (dumps (.obj cfg)) :=
  decryptValue_encryptValue P hF hkey _

/-- A changed configuration is read back. -/
theorem decode_changed (hF : P.fernet.Laws) (hkey : P.fernet.valid processKey = true) {name : Str}
    {cfg : Dict} (hread : ReadBack P dumps (.obj cfg)) :
    decodeZoneConfig P processKey ⟨name, encodeZoneConfigDict P dumps processKey cfg⟩ =
      .ok (.obj cfg) := by
  have hloads : P.loads (dumps (.obj cfg)) = some (.obj cfg) := hread
  rw [decodeZoneConfig, decryptValue_encode hF hkey, ok_bind, hloads]

/-- What is decoded is read back. -/
theorem readBack_of_decode (hjson : JsonLaws P dumps) {zone : DnsZoneConfig} {x : Json}
    (h : decodeZoneConfig P processKey zone = .ok x) : ReadBack P dumps x := by
  obtain ⟨text, -, hloads⟩ := bind_eq_ok h
  split at hloads
  · next cfg hcfg =>
      rw [Except.ok.inj hloads] at hcfg
      exact hjson.loaded _ _ hcfg
  · contradiction

/-- Deleting settings leaves the zones alone. -/
theorem zones_foldl_deleteSetting (names : List Str) (db : Db) :
    names.foldl deleteSetting db =
      { db with settings := (names.foldl deleteSetting db).settings } := by
  induction names generalizing db with
  | nil => rfl
  | cons name names ih =>
      rw [List.foldl_cons, ih]
      rfl

/-- A restore commits its transaction, or changes no table. -/
theorem restore_cases (m : Moment) (payload : Dict) (categories : List Str) (host : Host) :
    (∃ db, Restored P m (normalizeCategories categories) payload host
        (restorePayload P m payload categories host).2 db ∧ Commits P m payload categories host) ∨
      (restorePayload P m payload categories host).2 = host := by
  by_cases hcommits : Commits P m payload categories host
  · rcases restored_or_same P m _ _ rfl with hsame | hrestored
    · exact .inr hsame.2
    · obtain ⟨db, hrestored⟩ := hrestored
      exact .inl ⟨db, hrestored, hcommits⟩
  · exact .inr (unchanged_of_not_commits hcommits)

/-- The zones after a restore are those of the archive, or those before it where
they are not selected. -/
theorem zone_restored (hF : P.fernet.Laws) {m : Moment} {cats : List Category} {payload : Dict}
    {host host' : Host} {db : Db} (hkeyed : Keyed P host)
    (hrestored : Restored P m cats payload host host' db) {row : Row DnsZoneConfig}
    (hrow : row ∈ host'.db.zones.rows) :
    (.zones ∉ cats ∧ row ∈ host.db.zones.rows) ∨
      (.zones ∈ cats ∧ ∃ item ∈ itemsOf payload .zones, ∃ token,
        ZoneItem item row.val.zoneName token ∧
          decryptValue P host.processKey row.val.encryptedConfig =
            decryptValue P (archiveKey P cats payload) token) := by
  have hafter : host'.db.zones = db.zones := by rw [hrestored.files.tables]
  rw [hafter] at hrow
  have hzones := ((restoreDatabase_eq_ok_iff P m _ _ _ _ _).mp hrestored.database).2.2.1
  by_cases hcat : .zones ∈ cats
  · have hmem := mem_zonesAfter_iff hrestored.valid hcat hzones
    obtain ⟨item, hitem, token, hz, hconfig⟩ := (hmem _ _).mp ⟨row, hrow, rfl⟩
    refine .inr ⟨hcat, item, hitem, token, hz, ?_⟩
    exact decryptValue_restoredToken hF hkeyed.valid hkeyed.strip
      (archiveKey_ne_nil hrestored.valid (by simp [fernetBackedCategories]) hcat) hconfig
  · rw [zonesAfter, if_neg hcat] at hzones
    rw [← Except.ok.inj hzones] at hrow
    exact .inl ⟨hcat, hrow⟩

/-- The zones after a request are those before it, and those it writes. -/
theorem zone_after (hF : P.fernet.Laws) {host : Host} (hkeyed : Keyed P host)
    (request : ZoneRequest) {row : Row DnsZoneConfig}
    (hrow : row ∈ (request.after P dumps host).db.zones.rows) :
    (∃ r ∈ host.db.zones.rows, r.val = row.val) ∨
      Writes P dumps host request row.val.zoneName
        (decryptValue P host.processKey row.val.encryptedConfig) := by
  cases request with
  | create form =>
      rcases zoneCreate_cases dumps host.db form with hcreated | hsame
      · obtain ⟨plugin, zones, hcreates, hins, hafter⟩ := hcreated
        dsimp only [ZoneRequest.after] at hrow
        rw [hafter] at hrow
        obtain ⟨-, hrows⟩ := Table.insert_eq_some_iff.mp hins
        dsimp only at hrow
        rw [hrows, List.mem_append, List.mem_singleton] at hrow
        rcases hrow with hold | hnew
        · exact .inl ⟨row, hold, rfl⟩
        · rw [hnew]
          exact .inr ⟨plugin, hcreates, rfl, decryptValue_encode hF hkeyed.valid _⟩
      · dsimp only [ZoneRequest.after] at hrow
        rw [hsame] at hrow
        exact .inl ⟨row, hrow, rfl⟩
  | update zoneId form =>
      rcases zoneUpdate_cases dumps host.db zoneId form with hupdated | hsame
      · obtain ⟨old, ex, plugin, hupdates, hafter⟩ := hupdated
        dsimp only [ZoneRequest.after] at hrow
        rw [hafter] at hrow
        obtain ⟨r, hr, hval⟩ := mem_changeZone.mp hrow
        rw [← hval]
        by_cases hid : r.id = old.id
        · rw [if_pos hid]
          have hold := (Table.get?_eq_some_iff.mp hupdates.found).1
          have heq : r = old := host.db.zones.eq_of_id hr hold hid
          exact .inr ⟨old, ex, plugin, hupdates, by rw [heq],
            decryptValue_encode hF hkeyed.valid _⟩
        · rw [if_neg hid]
          exact .inl ⟨r, hr, rfl⟩
      · dsimp only [ZoneRequest.after] at hrow
        rw [hsame] at hrow
        exact .inl ⟨row, hrow, rfl⟩
  | delete zoneId detached =>
      refine .inl ⟨row, ?_, rfl⟩
      rcases zoneDelete_cases P host.processKey host.db zoneId detached with hdeleted | hsame
      · obtain ⟨old, d, -, -, hafter⟩ := hdeleted
        dsimp only [ZoneRequest.after] at hrow
        rw [hafter] at hrow
        exact (Table.mem_delete.mp hrow).1
      · dsimp only [ZoneRequest.after] at hrow
        rwa [hsame] at hrow
  | disable pluginKey =>
      refine .inl ⟨row, ?_, rfl⟩
      rcases settingsPluginDisable_cases dumps host.db pluginKey with hdisabled | hsame
      · obtain ⟨disabled, -, -, -, -, hafter⟩ := hdisabled
        dsimp only [ZoneRequest.after] at hrow
        rwa [hafter, setDisabledDnsPlugins_eq] at hrow
      · dsimp only [ZoneRequest.after] at hrow
        rwa [hsame] at hrow
  | enable pluginKey =>
      refine .inl ⟨row, ?_, rfl⟩
      rcases settingsPluginEnable_cases dumps host.db pluginKey with henabled | hsame
      · obtain ⟨disabled, -, hafter⟩ := henabled
        dsimp only [ZoneRequest.after] at hrow
        rwa [hafter, setDisabledDnsPlugins_eq] at hrow
      · dsimp only [ZoneRequest.after] at hrow
        rwa [hsame] at hrow
  | migrate =>
      rcases migrate_cases dumps host.db with hmigrated | hsame
      · obtain ⟨zoneRaw, cfg, zones, hmigrates, hins, hlinks⟩ := hmigrated
        have hzones : (ZoneRequest.migrate.after P dumps host).db.zones = zones := by
          dsimp only [ZoneRequest.after]
          rcases hlinks with hrefused | hlinked
          · rw [hrefused.2]
          · obtain ⟨allowedZones, -, hafter⟩ := hlinked
            rw [hafter]
            dsimp only
            rw [zones_foldl_deleteSetting]
        obtain ⟨-, hrows⟩ := Table.insert_eq_some_iff.mp hins
        rw [hzones, hrows, List.mem_append, List.mem_singleton] at hrow
        rcases hrow with hold | hnew
        · exact .inl ⟨row, hold, rfl⟩
        · rw [hnew]
          exact .inr ⟨zoneRaw, cfg, hmigrates, rfl, decryptValue_encode hF hkeyed.valid _⟩
      · dsimp only [ZoneRequest.after] at hrow
        rw [hsame] at hrow
        exact .inl ⟨row, hrow, rfl⟩
  | restore m payload categories =>
      rcases restore_cases m payload categories host with hrestored | hsame
      · obtain ⟨db, hrestored, hcommits⟩ := hrestored
        dsimp only [ZoneRequest.after] at hrow
        rcases zone_restored hF hkeyed hrestored hrow with hkept | harchived
        · exact .inl ⟨row, hkept.2, rfl⟩
        · obtain ⟨hcat, item, hitem, token, hz, htext⟩ := harchived
          exact .inr ⟨hcommits, hcat, item, hitem, token, hz, htext⟩
      · dsimp only [ZoneRequest.after] at hrow
        rw [hsame] at hrow
        exact .inl ⟨row, hrow, rfl⟩

/-! ## the settings -/

/-- The settings that a request other than a restore may write. -/
def ZoneRequest.touches : ZoneRequest → List Str
  | .create _ | .update _ _ | .restore _ _ _ => []
  | .delete _ _ => [lit "letsencrypt_config", lit "letsencrypt_enrollment"]
  | .disable _ | .enable _ => [disabledSpec.key]
  | .migrate => legacyDnsSettingNames

/-- The other tokens stay when a zone is detached. -/
theorem storedToken_apply (d : Detached) (db : Db) {name : Str}
    (h : name ∉ [lit "letsencrypt_config", lit "letsencrypt_enrollment"]) :
    storedToken (d.apply P processKey db) name = storedToken db name := by
  simp only [List.mem_cons, List.not_mem_nil, or_false, not_or] at h
  have hcancels : storedToken
      (if d.cancels then deleteSetting db (lit "letsencrypt_enrollment") else db) name =
      storedToken db name := by
    split
    · rw [storedToken_deleteSetting, if_neg h.2]
    · rfl
  unfold Detached.apply
  dsimp only
  cases d.config with
  | none => exact hcancels
  | some config =>
      dsimp only
      rw [storedToken_setSetting, if_neg h.1]
      exact hcancels

/-- The other tokens stay when plugins are disabled. -/
theorem storedToken_setDisabledDnsPlugins (db : Db) (keys : List Str) {name : Str}
    (h : name ≠ disabledSpec.key) :
    storedToken (setDisabledDnsPlugins P dumps processKey db keys) name = storedToken db name := by
  unfold setDisabledDnsPlugins
  dsimp only
  split
  · rw [storedToken_deleteSetting, if_neg h]
  · rw [storedToken_setSetting, if_neg h]

/-- The other tokens stay when settings are deleted. -/
theorem storedToken_foldl_deleteSetting (names : List Str) (db : Db) {name : Str}
    (h : name ∉ names) : storedToken (names.foldl deleteSetting db) name = storedToken db name := by
  induction names generalizing db with
  | nil => rfl
  | cons first names ih =>
      simp only [List.mem_cons, not_or] at h
      rw [List.foldl_cons, ih _ h.2, storedToken_deleteSetting, if_neg h.1]

/-- A setting depends on its token only. -/
theorem getSetting_congr {db db' : Db} {name : Str} (h : storedToken db' name = storedToken db name) :
    getSetting P processKey db' name = getSetting P processKey db name := by
  rw [getSetting_eq, getSetting_eq, h]

/-- A setting that a request does not write stays as it was. -/
theorem getSetting_after {host : Host} {request : ZoneRequest} {name : Str}
    (hrestore : ∀ m payload categories, request ≠ .restore m payload categories)
    (h : name ∉ request.touches) :
    getSetting P host.processKey (request.after P dumps host).db name =
      getSetting P host.processKey host.db name := by
  refine getSetting_congr ?_
  cases request with
  | create form =>
      dsimp only [ZoneRequest.after]
      rcases zoneCreate_cases dumps host.db form with hcreated | hsame
      · obtain ⟨plugin, zones, -, -, hafter⟩ := hcreated
        rw [hafter]
        rfl
      · rw [hsame]
  | update zoneId form =>
      dsimp only [ZoneRequest.after]
      rcases zoneUpdate_cases dumps host.db zoneId form with hupdated | hsame
      · obtain ⟨row, ex, plugin, -, hafter⟩ := hupdated
        rw [hafter]
        rfl
      · rw [hsame]
  | delete zoneId detached =>
      dsimp only [ZoneRequest.after]
      rcases zoneDelete_cases P host.processKey host.db zoneId detached with hdeleted | hsame
      · obtain ⟨row, d, -, -, hafter⟩ := hdeleted
        rw [hafter]
        exact storedToken_apply d host.db h
      · rw [hsame]
  | disable pluginKey =>
      dsimp only [ZoneRequest.after]
      have hne : name ≠ disabledSpec.key := fun heq => h (List.mem_singleton.mpr heq)
      rcases settingsPluginDisable_cases dumps host.db pluginKey with hdisabled | hsame
      · obtain ⟨disabled, -, -, -, -, hafter⟩ := hdisabled
        rw [hafter]
        exact storedToken_setDisabledDnsPlugins _ _ hne
      · rw [hsame]
  | enable pluginKey =>
      dsimp only [ZoneRequest.after]
      have hne : name ≠ disabledSpec.key := fun heq => h (List.mem_singleton.mpr heq)
      rcases settingsPluginEnable_cases dumps host.db pluginKey with henabled | hsame
      · obtain ⟨disabled, -, hafter⟩ := henabled
        rw [hafter]
        exact storedToken_setDisabledDnsPlugins _ _ hne
      · rw [hsame]
  | migrate =>
      dsimp only [ZoneRequest.after]
      rcases migrate_cases dumps host.db with hmigrated | hsame
      · obtain ⟨zoneRaw, cfg, zones, -, -, hlinks⟩ := hmigrated
        rcases hlinks with hrefused | hlinked
        · rw [hrefused.2]
          rfl
        · obtain ⟨allowedZones, -, hafter⟩ := hlinked
          rw [hafter]
          exact storedToken_foldl_deleteSetting _ _ h
      · rw [hsame]
  | restore m payload categories => exact absurd rfl (hrestore m payload categories)

/-- The token of an archived setting, if the item is one of that name. -/
def tokenNamed (name : Str) : Json → Option Str
  | .obj row =>
      if stripped (Dict.get row (lit "name")) = .ok name then
        match (Dict.get row (lit "value")).orElse (.str []) with
        | .str token => some token
        | _ => none
      else none
  | _ => none

/-- The token of an item. -/
theorem tokenNamed_eq_some_iff {name token : Str} {item : Json} (hne : name ≠ [])
    (hex : name ∉ excludedSettingNames) :
    tokenNamed name item = some token ↔ SettingItem item name token := by
  constructor
  · intro h
    cases item with
    | obj row =>
        dsimp only [tokenNamed] at h
        split at h
        · next hname =>
            cases hvalue : (Dict.get row (lit "value")).orElse (.str []) with
            | str value =>
                rw [hvalue] at h
                exact ⟨⟨row, rfl, hname, by rw [hvalue, Option.some.inj h]⟩, hne, hex⟩
            | _ =>
                rw [hvalue] at h
                contradiction
        · contradiction
    | _ => contradiction
  · intro h
    obtain ⟨row, hitem, hname, hvalue⟩ := h.obj
    rw [hitem]
    dsimp only [tokenNamed]
    rw [if_pos hname, hvalue]

/-- What the archive, or the installation, has under a name. -/
def incomingSetting (P : Platform) (cats : List Category) (payload : Dict) (host : Host) (name : Str) :
    Except Exc (Option Str) :=
  if .settings ∈ cats then
    match (itemsOf payload .settings).findSome? (tokenNamed name) with
    | none => .ok none
    | some token => some <$> decryptValue P (archiveKey P cats payload) token
  else getSetting P host.processKey host.db name

/-- What is read after a restore is what came in. -/
theorem getSetting_restored {m : Moment} {cats : List Category} {payload : Dict}
    {host host' : Host} {db : Db} (h : Restored P m cats payload host host' db)
    (hF : P.fernet.Laws) (hkeyed : Keyed P host) {name : Str} (hne : name ≠ [])
    (hex : name ∉ excludedSettingNames) :
    getSetting P host.processKey host'.db name = incomingSetting P cats payload host name := by
  have hafter : storedToken host'.db name = storedToken db name := by
    rw [storedToken, storedToken, h.files.tables]
  have hset := ((restoreDatabase_eq_ok_iff P m _ _ _ _ _).mp h.database).1
  rw [getSetting_congr hafter, incomingSetting]
  by_cases hcat : .settings ∈ cats
  · have hmem := mem_settingsAfter_iff h.valid hcat hset
    have hprogress : name ≠ settingBackupProgress := by
      intro heq
      exact hex (by rw [heq]; simp [excludedSettingNames, settingBackupProgress])
    rw [if_pos hcat]
    cases hfind : (itemsOf payload .settings).findSome? (tokenNamed name) with
    | none =>
        have hnone : storedToken db name = none := by
          rw [Option.eq_none_iff_forall_ne_some]
          intro value hvalue
          rw [storedToken_eq_some_iff, hmem] at hvalue
          rcases hvalue with hkept | hrestored
          · exact hprogress hkept.1
          · obtain ⟨item, hitem, token, hs, -⟩ := hrestored
            have htoken := (tokenNamed_eq_some_iff hne hex).mpr hs
            have hno := List.findSome?_eq_none_iff.mp hfind item hitem
            rw [hno] at htoken
            contradiction
        rw [getSetting_eq, hnone]
    | some token =>
        obtain ⟨item, hitem, htoken⟩ := List.exists_of_findSome?_eq_some hfind
        have hs := (tokenNamed_eq_some_iff hne hex).mp htoken
        obtain ⟨value, hvalue⟩ := restoredToken_of_settingItem hcat hset hitem hs
        have hstored : storedToken db name = some value := by
          rw [storedToken_eq_some_iff, hmem]
          exact .inr ⟨item, hitem, token, hs, hvalue⟩
        have hread := decryptValue_restoredToken hF hkeyed.valid hkeyed.strip
          (archiveKey_ne_nil h.valid (by simp [fernetBackedCategories]) hcat) hvalue
        rw [getSetting_eq, hstored]
        dsimp only
        rw [hread]
  · rw [settingsAfter, if_neg hcat] at hset
    rw [if_neg hcat]
    refine getSetting_congr ?_
    rw [storedToken, storedToken, ← Except.ok.inj hset]

end ApiToDns.Zones
