import ApiToDns.Zones.Clients
import ApiToDns.Zones.Usable

/-!
# Zones.Legacy

The migration of the settings of the time when there was one zone
(`zone_service.migrate_legacy_dns_settings_if_needed`).  The configuration it
writes makes the client that the settings made, but has no `dns_zone`, and the
settings are deleted afterwards.

* `flatSettings` — the settings as one dictionary;
* `KeepsMeaning`, `migration_loses_zone` — what the migration should keep, and
  never does;
* `migration_keeps_client` — what it keeps.
-/

namespace ApiToDns.Zones

open Py Backup

section Flat

variable (P : Platform) (processKey : Str)

/-- The legacy settings as one dictionary; one that is not stored is `None`. -/
def flatSettings (db : Db) : Except Exc Dict :=
  legacyDnsSettingNames.mapM fun name => do
    let value ← getSetting P processKey db name
    .ok (name, (value.map Json.str).getD .null)

end Flat

variable {P : Platform} {dumps : Json → Str} {processKey : Str} {db : Db}

/-! ## the two dictionaries -/

/-- A legacy setting, read flat. -/
theorem get_flatSettings {flat : Dict} (h : flatSettings P processKey db = .ok flat) {name : Str}
    (hname : name ∈ legacyDnsSettingNames) :
    ∃ value, getSetting P processKey db name = .ok value ∧
      flat.get name = (value.map Json.str).getD .null := by
  have hnames : flat.names = legacyDnsSettingNames.map id :=
    map_eq_of_mapM_eq_ok h fun setting _ field hfield => by
      obtain ⟨value, -, heq⟩ := bind_eq_ok hfield
      rw [← Except.ok.inj heq]
      rfl
  obtain ⟨field, hfield, heq⟩ := exists_of_mapM_eq_ok h hname
  obtain ⟨value, hvalue, heq⟩ := bind_eq_ok heq
  rw [← Except.ok.inj heq] at hfield
  refine ⟨value, hvalue, get_of_mem ?_ hfield⟩
  rw [hnames]
  decide

/-- A legacy setting in the configuration. -/
theorem get_legacyConfig {cfg : Dict} (h : legacyConfig P processKey db = .ok cfg)
    {setting : Str × Str} (hsetting : setting ∈ migratedSettings) {value : Option Str}
    (hvalue : getSetting P processKey db setting.1 = .ok value) :
    cfg.get setting.1 =
      .str (if value.getD [] = [] then setting.2 else value.getD []) := by
  obtain ⟨field, hfield, heq⟩ := exists_of_mapM_eq_ok h hsetting
  have hlegacy : legacySetting P processKey db setting.1 setting.2 =
      .ok (if value.getD [] = [] then setting.2 else value.getD []) := by
    rw [legacySetting, hvalue, ok_bind]
    cases value.getD [] <;> simp
  rw [hlegacy, ok_bind] at heq
  rw [← Except.ok.inj heq] at hfield
  refine get_of_mem ?_ hfield
  rw [names_legacyConfig h]
  decide

/-- The migration writes no zone at the provider. -/
theorem get_dnsZone_legacyConfig {cfg : Dict} (h : legacyConfig P processKey db = .ok cfg) :
    cfg.get (lit "dns_zone") = .null := by
  refine get_of_not_mem ?_
  rw [names_legacyConfig h]
  decide

/-- Other settings are not read. -/
theorem get_flatSettings_other {flat : Dict} (h : flatSettings P processKey db = .ok flat)
    {name : Str} (hname : name ∉ legacyDnsSettingNames) : flat.get name = .null := by
  refine get_of_not_mem fun hmem => hname ?_
  have hnames : flat.names = legacyDnsSettingNames.map id :=
    map_eq_of_mapM_eq_ok h fun setting _ field hfield => by
      obtain ⟨value, -, heq⟩ := bind_eq_ok hfield
      rw [← Except.ok.inj heq]
      rfl
  rw [hnames, List.map_id] at hmem
  exact hmem

/-- Other fields are not in the configuration. -/
theorem get_legacyConfig_other {cfg : Dict} (h : legacyConfig P processKey db = .ok cfg)
    {name : Str} (hname : name ∉ migratedSettings.map Prod.fst) : cfg.get name = .null := by
  refine get_of_not_mem ?_
  rw [names_legacyConfig h]
  exact hname

/-- A setting that was taken over is the same to a client that has a default for
a missing one. -/
theorem orElse_legacyConfig {flat cfg : Dict} (hflat : flatSettings P processKey db = .ok flat)
    (hcfg : legacyConfig P processKey db = .ok cfg) (setting : Str × Str)
    (hsetting : setting ∈ migratedSettings) (default : Str)
    (hdefault : setting.2 = [] ∨ setting.2 = default) :
    (cfg.get setting.1).orElse (.str default) = (flat.get setting.1).orElse (.str default) := by
  have hlegacy : ∀ setting ∈ migratedSettings, setting.1 ∈ legacyDnsSettingNames := by decide
  obtain ⟨value, hvalue, hget⟩ := get_flatSettings hflat (hlegacy setting hsetting)
  rw [get_legacyConfig hcfg hsetting hvalue, hget]
  cases value with
  | none =>
      rcases hdefault with hblank | heq
      · simp [hblank, Json.orElse, Json.truthy]
      · simp [heq, Json.orElse, Json.truthy]
  | some text =>
      cases text with
      | nil =>
          rcases hdefault with hblank | heq
          · simp [hblank, Json.orElse, Json.truthy]
          · simp [heq, Json.orElse, Json.truthy]
      | cons c cs => simp

/-- The migrated configuration makes the client that the settings made. -/
theorem sameClient_legacyConfig {flat cfg : Dict} (hflat : flatSettings P processKey db = .ok flat)
    (hcfg : legacyConfig P processKey db = .ok cfg) : SameClient P.ucd flat cfg where
  provider := by
    have hsame : (cfg.get (lit "dns_provider_type")).orElse (.str (lit "azure")) =
        (flat.get (lit "dns_provider_type")).orElse (.str (lit "azure")) :=
      orElse_legacyConfig hflat hcfg (lit "dns_provider_type", lit "azure") (by decide)
        (lit "azure") (.inr rfl)
    simp only [storedProvider, asDict, ok_bind, hsame]
  texts name hname := by
    by_cases hsetting : (name, []) ∈ migratedSettings
    · exact orElse_legacyConfig hflat hcfg (name, []) hsetting [] (.inl rfl)
    · have hother : ∀ name ∈ clientTexts, (name, []) ∉ migratedSettings →
          name ∉ legacyDnsSettingNames ∧ name ∉ migratedSettings.map Prod.fst := by
        decide
      obtain ⟨hlegacy, hmigrated⟩ := hother name hname hsetting
      rw [textSetting, textSetting, get_flatSettings_other hflat hlegacy,
        get_legacyConfig_other hcfg hmigrated]
  algorithm :=
    orElse_legacyConfig hflat hcfg (lit "dns_tsig_algorithm", []) (by decide) (lit "hmac-sha256")
      (.inl rfl)
  proxied := by
    rw [get_flatSettings_other hflat (by decide), get_legacyConfig_other hcfg (by decide)]

/-! ## what is lost -/

/-- What the migration should keep: the zone is reached with the client that the
settings made, at its server and under its name, by the active keys and no
others, and there is nothing more to migrate. -/
structure KeepsMeaning (P : Platform) (dumps : Json → Str) (processKey : Str) (db : Db)
    (zoneRaw : Str) : Prop where
  zone : ∃ row cfg flat,
    (migrateLegacyDnsSettingsIfNeeded P dumps processKey db).2.zones.rows = [row] ∧
    row.val.zoneName = normalizeZoneName P.ucd zoneRaw ∧
    decodeZoneConfig P processKey row.val = .ok (.obj cfg) ∧
    flatSettings P processKey db = .ok flat ∧
    (∀ disabled, createDnsClientFromSettings P.ucd cfg disabled =
      createDnsClientFromSettings P.ucd flat disabled) ∧
    textSetting cfg (lit "dns_server") = textSetting flat (lit "dns_server") ∧
    providerDnsZone P.ucd cfg = .ok (normalizeZoneName P.ucd zoneRaw) ∧
    ∀ keyId, ApiKeys.Allowed (migrateLegacyDnsSettingsIfNeeded P dumps processKey db).2 keyId
      row.id ↔ ∃ key ∈ db.apiKeys.rows, key.id = keyId ∧ key.val.active = true
  again : migrateLegacyDnsSettingsIfNeeded P dumps processKey
      (migrateLegacyDnsSettingsIfNeeded P dumps processKey db).2 =
    (.ok (), (migrateLegacyDnsSettingsIfNeeded P dumps processKey db).2)

/-- A row that the migration leaves in the table of zones has its configuration. -/
theorem decode_migrated (hF : P.fernet.Laws) (hjson : JsonLaws P dumps)
    (hkey : P.fernet.valid processKey = true) (hnone : db.zones.rows = []) {row : Row DnsZoneConfig}
    (hrow : row ∈ (migrateLegacyDnsSettingsIfNeeded P dumps processKey db).2.zones.rows) :
    ∃ cfg, legacyConfig P processKey db = .ok cfg ∧
      decodeZoneConfig P processKey row.val = .ok (.obj cfg) := by
  rcases migrate_cases dumps db with hmigrated | hsame
  · obtain ⟨zoneRaw, cfg, zones, hmigrates, hins, hlinks⟩ := hmigrated
    have hzones : (migrateLegacyDnsSettingsIfNeeded P dumps processKey db).2.zones = zones := by
      rcases hlinks with hrefused | hlinked
      · rw [hrefused.2]
      · obtain ⟨allowedZones, -, hafter⟩ := hlinked
        rw [hafter]
        dsimp only
        rw [zones_foldl_deleteSetting]
    obtain ⟨-, hrows⟩ := Table.insert_eq_some_iff.mp hins
    rw [hzones, hrows, hnone, List.nil_append, List.mem_singleton] at hrow
    have hloads : P.loads (dumps (.obj cfg)) = some (.obj cfg) := hmigrates.readBack hjson
    refine ⟨cfg, hmigrates.config, ?_⟩
    rw [hrow]
    exact decode_changed hF hkey hloads
  · rw [hsame, hnone] at hrow
    contradiction

/-- The migrated configuration names no zone. -/
theorem providerDnsZone_migrated (hF : P.fernet.Laws) (hjson : JsonLaws P dumps)
    (hkey : P.fernet.valid processKey = true) (hnone : db.zones.rows = []) {row : Row DnsZoneConfig}
    (hrow : row ∈ (migrateLegacyDnsSettingsIfNeeded P dumps processKey db).2.zones.rows) {cfg : Dict}
    (hcfg : decodeZoneConfig P processKey row.val = .ok (.obj cfg)) (zone : Str) :
    providerDnsZone P.ucd cfg ≠ .ok zone := by
  intro hzone
  obtain ⟨cfg', hlegacy, hdecode⟩ := decode_migrated hF hjson hkey hnone hrow
  have heq : cfg = cfg' := Json.obj.inj (Except.ok.inj (hcfg.symm.trans hdecode))
  have hnull : (Json.null.orElse (.str [])).pyStr P.ucd = [] := by simp [Json.orElse, Json.truthy]
  have hnil : P.ucd.lower [] = foldAscii [] := P.ucd.lower_ascii (by simp)
  have hblank : normalizeZoneName P.ucd [] = [] := hnil
  rw [providerDnsZone, heq, get_dnsZone_legacyConfig hlegacy, hnull, hblank, if_pos rfl] at hzone
  contradiction

/-- The settings are never migrated to a configuration of the same meaning. -/
theorem migration_loses_zone (hF : P.fernet.Laws) (hjson : JsonLaws P dumps)
    (hkey : P.fernet.valid processKey = true) (hnone : db.zones.rows = []) (zoneRaw : Str) :
    ¬KeepsMeaning P dumps processKey db zoneRaw := by
  intro h
  obtain ⟨row, cfg, -, hrows, -, hdecode, -, -, -, hzone, -⟩ := h.zone
  refine providerDnsZone_migrated hF hjson hkey hnone ?_ hdecode _ hzone
  rw [hrows]
  exact List.mem_singleton_self row

/-! ## what is kept -/

/-- A setting is gone, or as it was. -/
theorem storedToken_foldl_delete (names : List Str) (db : Db) (name : Str) :
    storedToken (names.foldl deleteSetting db) name =
      if name ∈ names then none else storedToken db name := by
  induction names generalizing db with
  | nil => simp
  | cons first names ih =>
      rw [List.foldl_cons, ih, storedToken_deleteSetting]
      by_cases hmem : name ∈ names
      · simp [hmem]
      · by_cases heq : name = first <;> simp [hmem, heq]

/-- The links to a new zone can be made if none is left over. -/
theorem linkActiveKeys_isSome {zoneId : Nat}
    (h : ∀ link ∈ db.allowedZones.rows, link.val.dnsZoneConfigId ≠ zoneId) :
    ∃ allowedZones, linkActiveKeys db zoneId = some allowedZones := by
  rw [linkActiveKeys, Table.insertAll_isSome_iff, List.nodup_append]
  refine ⟨db.allowedZones.unique, ?_, ?_⟩
  · rw [List.Nodup, List.pairwise_filterMap, List.pairwise_map]
    refine (db.apiKeys.rows_sorted.filter fun key => key.val.active).imp ?_
    intro key key' hlt pair hpair pair' hpair' heq
    rw [← Option.some.inj hpair, ← Option.some.inj hpair'] at heq
    exact Nat.ne_of_lt hlt (congrArg Prod.fst heq)
  · intro pair hpair pair' hpair' heq
    obtain ⟨link, hlink, hkey⟩ := List.mem_filterMap.mp hpair
    obtain ⟨new, hnew, hkey'⟩ := List.mem_filterMap.mp hpair'
    obtain ⟨key, -, hval⟩ := List.mem_map.mp hnew
    rw [← Option.some.inj hkey, ← Option.some.inj hkey', ← hval] at heq
    exact h link hlink (congrArg Prod.snd heq)

/-- What the keys may use after the active ones are linked. -/
theorem allowed_linkActiveKeys {zoneId : Nat} {allowedZones : Table ApiKeyAllowedZone}
    (h : linkActiveKeys db zoneId = some allowedZones) (keyId id : Nat) :
    (∃ link ∈ allowedZones.rows, link.val = ⟨keyId, id⟩) ↔
      ApiKeys.Allowed db keyId id ∨
        id = zoneId ∧ ∃ key ∈ db.apiKeys.rows, key.id = keyId ∧ key.val.active = true := by
  rw [Table.exists_val_insertAll_iff h, ApiKeys.Allowed]
  refine or_congr_right ?_
  simp only [List.mem_map, List.mem_filter]
  constructor
  · intro hmem
    obtain ⟨key, ⟨hkey, hactive⟩, heq⟩ := hmem
    have hpair := ApiKeyAllowedZone.mk.inj heq
    exact ⟨hpair.2.symm, key, hkey, hpair.1, hactive⟩
  · intro hmem
    obtain ⟨hid, key, hkey, hkeyId, hactive⟩ := hmem
    exact ⟨key, ⟨hkey, hactive⟩, by rw [hid, hkeyId]⟩

/-- The migration of settings that can be read keeps all but the name of the
zone: the client and the server, and the active keys are those that may use it;
the legacy settings are gone and nothing else has changed, and a second migration
changes nothing. -/
theorem migration_keeps_client (hF : P.fernet.Laws) (hjson : JsonLaws P dumps)
    (hkey : P.fernet.valid processKey = true) {zoneRaw : Str} (hnone : db.zones.rows = [])
    (hzone : getSetting P processKey db (lit "dns_zone") = .ok (some zoneRaw))
    (hnamed : strip zoneRaw ≠ []) {flat : Dict} (hflat : flatSettings P processKey db = .ok flat)
    (hfresh : ∀ link ∈ db.allowedZones.rows, link.val.dnsZoneConfigId ≠ db.zones.nextId) :
    ∃ db' row cfg,
      migrateLegacyDnsSettingsIfNeeded P dumps processKey db = (.ok (), db') ∧
      db'.zones.rows = [row] ∧
      row.val.zoneName = normalizeZoneName P.ucd zoneRaw ∧
      decodeZoneConfig P processKey row.val = .ok (.obj cfg) ∧
      (∀ disabled, createDnsClientFromSettings P.ucd cfg disabled =
        createDnsClientFromSettings P.ucd flat disabled) ∧
      textSetting cfg (lit "dns_server") = textSetting flat (lit "dns_server") ∧
      (∀ keyId, ApiKeys.Allowed db' keyId row.id ↔
        ∃ key ∈ db.apiKeys.rows, key.id = keyId ∧ key.val.active = true) ∧
      (∀ keyId id, id ≠ row.id → (ApiKeys.Allowed db' keyId id ↔ ApiKeys.Allowed db keyId id)) ∧
      (∀ name, storedToken db' name =
        if name ∈ legacyDnsSettingNames then none else storedToken db name) ∧
      { db' with
        zones := db.zones, allowedZones := db.allowedZones, settings := db.settings } = db ∧
      migrateLegacyDnsSettingsIfNeeded P dumps processKey db' = (.ok (), db') := by
  have hcfg : ∃ cfg, legacyConfig P processKey db = .ok cfg := by
    refine exists_mapM_eq_ok_iff.mpr fun setting hsetting => ?_
    have hlegacy : ∀ setting ∈ migratedSettings, setting.1 ∈ legacyDnsSettingNames := by decide
    obtain ⟨value, hvalue, -⟩ := get_flatSettings hflat (hlegacy setting hsetting)
    rw [legacySetting, hvalue, ok_bind]
    cases value.getD [] with
    | nil => exact ⟨_, rfl⟩
    | cons c cs => exact ⟨_, rfl⟩
  obtain ⟨cfg, hcfg⟩ := hcfg
  obtain ⟨allowedZones, hlinks⟩ := linkActiveKeys_isSome hfresh
  cases hins : db.zones.insert
      ⟨normalizeZoneName P.ucd zoneRaw, encodeZoneConfigDict P dumps processKey cfg⟩ with
  | none =>
      refine absurd ?_ (Table.insert_eq_none_iff.mp hins)
      intro row hrow
      rw [hnone] at hrow
      contradiction
  | some zones =>
      obtain ⟨-, hrows⟩ := Table.insert_eq_some_iff.mp hins
      rw [hnone, List.nil_append] at hrows
      have hmigrate : migrateLegacyDnsSettingsIfNeeded P dumps processKey db =
          (.ok (), legacyDnsSettingNames.foldl deleteSetting { db with zones, allowedZones }) := by
        simp [migrateLegacyDnsSettingsIfNeeded, hnone, hzone, hnamed, hcfg, hins, hlinks]
      have hafter := zones_foldl_deleteSetting legacyDnsSettingNames { db with zones, allowedZones }
      have hmigrates : Migrates P processKey db zoneRaw cfg := ⟨hnone, hzone, hnamed, hcfg⟩
      refine ⟨_, db.zones.newRow ⟨normalizeZoneName P.ucd zoneRaw,
        encodeZoneConfigDict P dumps processKey cfg⟩, cfg, hmigrate, ?_, rfl, ?_,
        (sameClient_legacyConfig hflat hcfg).client_eq, ?_, fun keyId => ?_, fun keyId id hid => ?_,
        fun name => ?_, ?_, ?_⟩
      · rw [hafter]
        exact hrows
      · exact decode_changed hF hkey (hmigrates.readBack hjson)
      · exact orElse_legacyConfig hflat hcfg (lit "dns_server", []) (by decide) [] (.inl rfl)
      · rw [hafter]
        have hold : ¬ApiKeys.Allowed db keyId db.zones.nextId := by
          intro hallowed
          obtain ⟨link, hlink, hval⟩ := hallowed
          exact hfresh link hlink (by rw [hval])
        refine (allowed_linkActiveKeys hlinks keyId db.zones.nextId).trans ?_
        simp [hold]
      · rw [hafter]
        refine (allowed_linkActiveKeys hlinks keyId id).trans ?_
        simp [show id ≠ db.zones.nextId from hid]
      · rw [storedToken_foldl_delete]
        rfl
      · rw [hafter]
      · rw [hafter, migrateLegacyDnsSettingsIfNeeded, if_pos]
        rw [hrows]
        simp

/-! ## an installation with one zone -/

def legacySettings : List (Str × Str) :=
  [(lit "dns_zone", lit "Example.com."), (lit "dns_provider_type", lit "bind"),
    (lit "dns_server", lit "192.0.2.53"), (lit "dns_username", lit "api-to-dns"),
    (lit "dns_password", lit "c2VjcmV0")]

/-- A key that is active, one that is not, and the settings of one BIND zone. -/
def legacyDb : Db :=
  { Db.empty with
    apiKeys := .ofList
      [⟨lit "ci", KeyMigration.plainDigest, some (lit "abc"), apiKeyAccessReadWrite, true, calm.now⟩,
        ⟨lit "old", KeyMigration.hashedDigest, some (lit "def"), apiKeyAccessReadWrite, false, calm.now⟩]
    settings := .ofList (legacySettings.map fun setting =>
      ⟨setting.1, encryptValue Compact.platform hostKey setting.2⟩) }

/-- The zone of the legacy settings is lost. -/
theorem not_keepsMeaning_legacyDb :
    legacyDb.zones.rows = [] ∧
      getSetting Compact.platform hostKey legacyDb (lit "dns_zone") = .ok (some (lit "Example.com.")) ∧
      ¬KeepsMeaning Compact.platform Compact.dumps hostKey legacyDb (lit "Example.com.") := by
  have hnone : legacyDb.zones.rows = [] := rfl
  refine ⟨hnone, by decide +kernel, fun h => ?_⟩
  obtain ⟨row, cfg, -, hrows, -, hdecode, -, -, -, hzone, -⟩ := h.zone
  refine providerDnsZone_migrated Fernet.plain_laws Compact.laws valid_hostKey hnone ?_
    hdecode _ hzone
  rw [hrows]
  exact List.mem_singleton_self row

/-- The settings of the installation say `Example.com.`, which no configuration says
after the migration. -/
theorem migration_loses_zone_legacyDb :
    getSetting Compact.platform hostKey legacyDb (lit "dns_zone") = .ok (some (lit "Example.com.")) ∧
      ¬KeepsMeaning Compact.platform Compact.dumps hostKey legacyDb (lit "Example.com.") :=
  ⟨by decide +kernel,
    migration_loses_zone Fernet.plain_laws Compact.laws valid_hostKey rfl (lit "Example.com.")⟩

/-- What the settings of the installation say. -/
def legacyFlat : Dict :=
  legacyDnsSettingNames.map fun name =>
    (name, ((legacySettings.find? fun setting => setting.1 = name).map fun setting =>
      Json.str setting.2).getD .null)

theorem migration_keeps_client_legacyDb :
    ∃ db' row cfg,
      migrateLegacyDnsSettingsIfNeeded Compact.platform Compact.dumps hostKey legacyDb =
        (.ok (), db') ∧
      db'.zones.rows = [row] ∧
      decodeZoneConfig Compact.platform hostKey row.val = .ok (.obj cfg) ∧
      ∀ keyId, ApiKeys.Allowed db' keyId row.id ↔
        ∃ key ∈ legacyDb.apiKeys.rows, key.id = keyId ∧ key.val.active = true := by
  have hflat : flatSettings Compact.platform hostKey legacyDb = .ok legacyFlat := by rfl
  have hnone : legacyDb.zones.rows = [] := rfl
  have hzone : getSetting Compact.platform hostKey legacyDb (lit "dns_zone") =
      .ok (some (lit "Example.com.")) := by decide +kernel
  obtain ⟨db', row, cfg, hmigrate, hrows, -, hdecode, -, -, hlinks, -⟩ :=
    migration_keeps_client Fernet.plain_laws Compact.laws valid_hostKey hnone hzone
      (by decide) hflat (by decide)
  exact ⟨db', row, cfg, hmigrate, hrows, hdecode, hlinks⟩

end ApiToDns.Zones
