import ApiToDns.Backup.Boot
import ApiToDns.ZoneConfig

/-!
# Backup.Readable

What can be read after a restore.  A token that is rewrapped reads under the
key of the installation as it read under the key of the archive
(`decryptValue_rewrapFernetToken`), so a restored installation is readable
exactly when the archive was (`readable_iff_readsBack`): the tokens of an
archive that has the key of the installation are copied unread, and an empty
or missing value is kept as an empty token, which no key decrypts.
-/

namespace ApiToDns.Backup

open Py

variable (P : Platform)

/-! ## reading rows -/

/-- A stored setting reads under `key`, as what its name says it is. -/
def SettingReads (key name token : Str) : Prop :=
  ∃ text, decryptValue P key token = .ok text ∧
    ∀ spec, getSpec name = some spec → ∃ x, parseTypedText P spec text = .ok x

/-- A stored zone reads under `key`. -/
def ZoneReads (key : Str) (z : Row DnsZoneConfig) : Prop :=
  (∃ zone, dnsZonePublicDict P key z = .ok zone) ∧ ∃ zone, dnsZoneSummaryDict P key z = .ok zone

/-- Every setting and every zone there is can be read by a process with
`key`. -/
structure Readable (key : Str) (db : Db) : Prop where
  settings : ∀ row ∈ db.settings.rows,
    (∃ text, getSetting P key db row.val.name = .ok (some text)) ∧
      ∀ spec, getSpec row.val.name = some spec → ∃ x, getTypedSetting P key db spec = .ok x
  zones : ∀ row ∈ db.zones.rows, ZoneReads P key row

variable {P}

/-- A specification is found by its key. -/
theorem getSpec_key {name : Str} {spec : SettingSpec} (h : getSpec name = some spec) :
    spec.key = name := by
  have := List.find?_some h
  simpa using this

/-- A setting that is there is decrypted. -/
theorem getSetting_of_mem {key : Str} {db : Db} {row : Row Setting} (h : row ∈ db.settings.rows) :
    getSetting P key db row.val.name = some <$> decryptValue P key row.val.value := by
  have hrow : db.settings.byKey row.val.name = some row :=
    Table.byKey_eq_some_iff.mpr ⟨h, rfl⟩
  rw [getSetting, hrow]

/-- When a setting can be read, as it is and typed. -/
theorem settingReads_iff {key : Str} {db : Db} {row : Row Setting} (h : row ∈ db.settings.rows) :
    ((∃ text, getSetting P key db row.val.name = .ok (some text)) ∧
      ∀ spec, getSpec row.val.name = some spec → ∃ x, getTypedSetting P key db spec = .ok x) ↔
      SettingReads P key row.val.name row.val.value := by
  have htyped : ∀ spec, getSpec row.val.name = some spec → getTypedSetting P key db spec =
      (some <$> decryptValue P key row.val.value) >>= parseTyped P spec := by
    intro spec hspec
    rw [getTypedSetting, getSpec_key hspec, getSetting_of_mem h]
  rw [getSetting_of_mem h, SettingReads]
  cases hvalue : decryptValue P key row.val.value with
  | error exc => simp
  | ok text =>
      have hparsed : ∀ spec, getSpec row.val.name = some spec →
          getTypedSetting P key db spec = parseTypedText P spec text := by
        intro spec hspec
        rw [htyped spec hspec, hvalue]
        rfl
      have hread : ∃ t, (some <$> Except.ok text : Except Exc (Option Str)) = .ok (some t) :=
        ⟨text, rfl⟩
      simp only [hread, true_and, Except.ok.injEq, exists_eq_left']
      refine forall₂_congr fun spec hspec => ?_
      rw [hparsed spec hspec]

/-- What a zone reads as depends on the plain text of its token only. -/
theorem zoneReads_congr {key key' : Str} {z z' : Row DnsZoneConfig}
    (h : decryptValue P key z.val.encryptedConfig = decryptValue P key' z'.val.encryptedConfig) :
    ZoneReads P key z ↔ ZoneReads P key' z' := by
  have hdecode : decodeZoneConfig P key z.val = decodeZoneConfig P key' z'.val := by
    rw [decodeZoneConfig, decodeZoneConfig, h]
  simp [ZoneReads, dnsZonePublicDict, dnsZoneSummaryDict, hdecode, bind_eq_ok_iff]

/-- What a setting reads as depends on the plain text of its token only. -/
theorem settingReads_congr {key key' name token token' : Str}
    (h : decryptValue P key token = decryptValue P key' token') :
    SettingReads P key name token ↔ SettingReads P key' name token' := by
  rw [SettingReads, SettingReads, h]

/-! ## rewrapping -/

/-- No key decrypts an empty token. -/
theorem decryptValue_nil (hF : P.fernet.Laws) (key : Str) :
    decryptValue P key [] = .error invalidToken := by
  rw [decryptValue, hF.decrypt_nil]

/-- A rewrapped token says under the key of the installation what it said
under the key of the archive. -/
theorem decryptValue_rewrapFernetToken (hF : P.fernet.Laws) {destKey sourceKey label token t : Str}
    (hvalid : P.fernet.valid destKey = true) (hstrip : strip destKey = destKey)
    (h : rewrapFernetToken P destKey sourceKey label token = .ok t) :
    decryptValue P destKey t = decryptValue P sourceKey token := by
  unfold rewrapFernetToken at h
  split at h
  · next hnil =>
      rw [← Except.ok.inj h, hnil, decryptValue_nil hF, decryptValue_nil hF]
  · split at h
    · next hkey => rw [← Except.ok.inj h, hkey, hstrip]
    · split at h
      · contradiction
      · split at h
        · next plaintext hplain =>
            rw [← Except.ok.inj h, decryptValue, decryptValue, hF.decrypt_encrypt hvalid, hplain]
        · contradiction

section Restored

variable {destKey sourceKey : Str} {cats : List Category} {payload : Dict} {db : Db}

/-- What is read of a restored token. -/
theorem decryptValue_restoredToken (hF : P.fernet.Laws) {label token t : Str}
    (hvalid : P.fernet.valid destKey = true) (hstrip : strip destKey = destKey)
    (hsource : sourceKey ≠ []) (h : restoredToken P destKey sourceKey label (.str token) = .ok t) :
    decryptValue P destKey t = decryptValue P sourceKey token := by
  rw [restoredToken, if_pos hsource] at h
  exact decryptValue_rewrapFernetToken hF hvalid hstrip h

/-- The settings after a restore: what was kept, and those of the archive. -/
theorem mem_settingsAfter_iff (h : validateRestoreRecords P destKey cats payload = .ok ())
    (hcat : .settings ∈ cats) {settings : Table Setting}
    (hset : settingsAfter P destKey sourceKey cats payload db = .ok settings) (name value : Str) :
    (∃ row ∈ settings.rows, row.val = ⟨name, value⟩) ↔
      (name = settingBackupProgress ∧ ∃ row ∈ db.settings.rows, row.val = ⟨name, value⟩) ∨
      ∃ item ∈ itemsOf payload .settings, ∃ token, SettingItem item name token ∧
        restoredToken P destKey sourceKey (lit "Setting '" ++ name ++ lit "'") (.str token) =
          .ok value := by
  rw [settingsAfter, if_pos hcat, restoreSettings_eq_ok_iff] at hset
  obtain ⟨vs, hvs, hins⟩ := hset
  have hrows : ∀ v, (∃ row ∈ settings.rows, row.val = v) ↔
      (∃ row ∈ (db.settings.delete fun row => row.val.name ≠ settingBackupProgress).rows,
        row.val = v) ∨ some v ∈ vs := by
    intro v
    simpa using Table.exists_val_insertAll_iff hins (v := v)
  rw [hrows]
  refine or_congr ?_ ?_
  · simp only [Table.mem_delete, decide_not, Bool.not_eq_false', decide_eq_true_eq]
    constructor
    · intro hrow
      obtain ⟨row, ⟨hmem, hname⟩, hval⟩ := hrow
      exact ⟨by rw [← hname, hval], row, hmem, hval⟩
    · intro hrow
      obtain ⟨hname, row, hmem, hval⟩ := hrow
      exact ⟨row, ⟨hmem, by rw [hval]; exact hname⟩, hval⟩
  · constructor
    · intro hv
      obtain ⟨item, hitem, hbuild⟩ := mem_of_mapM_eq_ok hvs hv
      obtain ⟨token, htoken⟩ := settingItem_of_settingOf h hcat hitem hbuild
      exact ⟨item, hitem, token, htoken, (settingOf_eq_ok_iff htoken).mp hbuild⟩
    · intro hv
      obtain ⟨item, hitem, token, htoken, hrestored⟩ := hv
      obtain ⟨v, hv, hbuild⟩ := exists_of_mapM_eq_ok hvs hitem
      rw [(settingOf_eq_ok_iff htoken).mpr hrestored] at hbuild
      rw [Except.ok.inj hbuild]
      exact hv

/-- The zones after a restore are those of the archive. -/
theorem mem_zonesAfter_iff (h : validateRestoreRecords P destKey cats payload = .ok ())
    (hcat : .zones ∈ cats) {zones : Table DnsZoneConfig}
    (hzones : zonesAfter P destKey sourceKey cats payload db = .ok zones) (name config : Str) :
    (∃ row ∈ zones.rows, row.val = ⟨name, config⟩) ↔
      ∃ item ∈ itemsOf payload .zones, ∃ token, ZoneItem item name token ∧
        restoredToken P destKey sourceKey (lit "Zone '" ++ name ++ lit "'") (.str token) =
          .ok config := by
  have hitems := zoneItem_of_mem h hcat
  rw [zonesAfter, if_pos hcat, restoreZones, restoreRows_eq_ok_iff] at hzones
  obtain ⟨vs, hvs, hins⟩ := hzones
  have hrows : (∃ row ∈ zones.rows, row.val = ⟨name, config⟩) ↔ ⟨name, config⟩ ∈ vs := by
    rw [Table.exists_val_insertAll_iff hins]
    simp [Table.empty]
  rw [hrows]
  constructor
  · intro hv
    obtain ⟨item, hitem, hbuild⟩ := mem_of_mapM_eq_ok hvs hv
    obtain ⟨zoneName, token, hz⟩ := hitems item hitem
    obtain ⟨hname, hrestored⟩ := zoneOf_eq_ok hz hbuild
    rw [← hname] at hz hrestored
    exact ⟨item, hitem, token, hz, hrestored⟩
  · intro hv
    obtain ⟨item, hitem, token, hz, hrestored⟩ := hv
    obtain ⟨zone, hzone, hbuild⟩ := exists_of_mapM_eq_ok hvs hitem
    obtain ⟨hname, hconfig⟩ := zoneOf_eq_ok hz hbuild
    have heq : zone = ⟨name, config⟩ := by
      cases zone
      rw [hrestored] at hconfig
      exact congrArg₂ DnsZoneConfig.mk hname (Except.ok.inj hconfig).symm
    rw [← heq]
    exact hzone

/-- Every item of the zones has been restored. -/
theorem restoredToken_of_zoneItem
    (hcat : .zones ∈ cats) {zones : Table DnsZoneConfig}
    (hzones : zonesAfter P destKey sourceKey cats payload db = .ok zones) {item : Json}
    {name token : Str} (hitem : item ∈ itemsOf payload .zones) (hz : ZoneItem item name token) :
    ∃ config, restoredToken P destKey sourceKey (lit "Zone '" ++ name ++ lit "'") (.str token) =
      .ok config := by
  rw [zonesAfter, if_pos hcat, restoreZones, restoreRows_eq_ok_iff] at hzones
  obtain ⟨vs, hvs, -⟩ := hzones
  obtain ⟨zone, -, hbuild⟩ := exists_of_mapM_eq_ok hvs hitem
  exact ⟨_, (zoneOf_eq_ok hz hbuild).2⟩

/-- Every setting that is not skipped has been restored. -/
theorem restoredToken_of_settingItem (hcat : .settings ∈ cats) {settings : Table Setting}
    (hset : settingsAfter P destKey sourceKey cats payload db = .ok settings) {item : Json}
    {name token : Str} (hitem : item ∈ itemsOf payload .settings)
    (hs : SettingItem item name token) :
    ∃ value, restoredToken P destKey sourceKey (lit "Setting '" ++ name ++ lit "'") (.str token) =
      .ok value := by
  rw [settingsAfter, if_pos hcat, restoreSettings_eq_ok_iff] at hset
  obtain ⟨vs, hvs, -⟩ := hset
  obtain ⟨v, -, hbuild⟩ := exists_of_mapM_eq_ok hvs hitem
  obtain ⟨value, hvalue⟩ := exists_restoredToken_of_settingOf hs hbuild
  exact ⟨value, hvalue⟩

end Restored

/-! ## the archive -/

variable (P)

/-- What a restore leaves can be read where it comes from: an archived
setting or zone under the key of the archive, and one that is kept under the
key of the installation. -/
structure ReadsBack (cats : List Category) (payload : Dict) (host : Host) : Prop where
  settings : .settings ∈ cats → ∀ item ∈ itemsOf payload .settings, ∀ name token,
    SettingItem item name token → SettingReads P (archiveKey P cats payload) name token
  keptSettings : ∀ row ∈ host.db.settings.rows,
    .settings ∉ cats ∨ row.val.name = settingBackupProgress →
      SettingReads P host.processKey row.val.name row.val.value
  zones : .zones ∈ cats → ∀ item ∈ itemsOf payload .zones, ∀ name token,
    ZoneItem item name token → ∀ id, ZoneReads P (archiveKey P cats payload) ⟨id, ⟨name, token⟩⟩
  keptZones : .zones ∉ cats → ∀ row ∈ host.db.zones.rows, ZoneReads P host.processKey row

variable {P}

section Whole

variable {m : Moment} {cats : List Category} {payload : Dict} {host host' : Host} {db : Db}

/-- A token of an encrypted category is read after the restore as it is read
in the archive. -/
theorem Restored.decryptValue_eq (h : Restored P m cats payload host host' db)
    (hF : P.fernet.Laws) (hboot : host.Booted P) {c : Category} (hc : c ∈ fernetBackedCategories)
    (hcat : c ∈ cats) {label token t : Str}
    (hrestored : restoredToken P host.processKey (archiveKey P cats payload) label (.str token) =
      .ok t) :
    decryptValue P host.processKey t = decryptValue P (archiveKey P cats payload) token :=
  decryptValue_restoredToken hF hboot.valid hboot.strip (archiveKey_ne_nil h.valid hc hcat) hrestored

/-- When the settings of a restore can be read. -/
theorem Restored.settings_readable_iff (h : Restored P m cats payload host host' db)
    (hF : P.fernet.Laws) (hboot : host.Booted P) :
    (∀ row ∈ db.settings.rows, SettingReads P host.processKey row.val.name row.val.value) ↔
      (.settings ∈ cats → ∀ item ∈ itemsOf payload .settings, ∀ name token,
        SettingItem item name token → SettingReads P (archiveKey P cats payload) name token) ∧
      ∀ row ∈ host.db.settings.rows, .settings ∉ cats ∨ row.val.name = settingBackupProgress →
        SettingReads P host.processKey row.val.name row.val.value := by
  have hset := ((restoreDatabase_eq_ok_iff P m _ _ _ _ _).mp h.database).1
  by_cases hcat : .settings ∈ cats
  · have hfernet : .settings ∈ fernetBackedCategories := by simp [fernetBackedCategories]
    have hmem := mem_settingsAfter_iff h.valid hcat hset
    constructor
    · intro hrows
      constructor
      · intro _ item hitem name token hs
        obtain ⟨value, hvalue⟩ := restoredToken_of_settingItem hcat hset hitem hs
        obtain ⟨row, hrow, hval⟩ := (hmem _ _).mpr (.inr ⟨item, hitem, token, hs, hvalue⟩)
        have hread := hrows row hrow
        rw [hval] at hread
        exact (settingReads_congr (h.decryptValue_eq hF hboot hfernet hcat hvalue)).mp hread
      · intro row hrow hkept
        have hname : row.val.name = settingBackupProgress :=
          hkept.resolve_left (not_not.mpr hcat)
        obtain ⟨row', hrow', hval⟩ := (hmem _ _).mpr (.inl ⟨hname, row, hrow, rfl⟩)
        have hread := hrows row' hrow'
        rw [hval] at hread
        exact hread
    · intro hsources row hrow
      rcases (hmem _ _).mp ⟨row, hrow, rfl⟩ with hkept | hrestored
      · obtain ⟨hname, row', hrow', hval⟩ := hkept
        have hread := hsources.2 row' hrow' (.inr (by rw [hval]; exact hname))
        rw [hval] at hread
        exact hread
      · obtain ⟨item, hitem, token, hs, hvalue⟩ := hrestored
        exact (settingReads_congr (h.decryptValue_eq hF hboot hfernet hcat hvalue)).mpr (hsources.1 hcat item hitem _ _ hs)
  · rw [settingsAfter, if_neg hcat] at hset
    rw [← Except.ok.inj hset]
    simp [hcat]

/-- When the zones of a restore can be read. -/
theorem Restored.zones_readable_iff (h : Restored P m cats payload host host' db)
    (hF : P.fernet.Laws) (hboot : host.Booted P) :
    (∀ row ∈ db.zones.rows, ZoneReads P host.processKey row) ↔
      (.zones ∈ cats → ∀ item ∈ itemsOf payload .zones, ∀ name token, ZoneItem item name token →
        ∀ id, ZoneReads P (archiveKey P cats payload) ⟨id, ⟨name, token⟩⟩) ∧
      (.zones ∉ cats → ∀ row ∈ host.db.zones.rows, ZoneReads P host.processKey row) := by
  have hzones := ((restoreDatabase_eq_ok_iff P m _ _ _ _ _).mp h.database).2.2.1
  by_cases hcat : .zones ∈ cats
  · have hfernet : .zones ∈ fernetBackedCategories := by simp [fernetBackedCategories]
    have hmem := mem_zonesAfter_iff h.valid hcat hzones
    constructor
    · intro hrows
      refine ⟨fun _ item hitem name token hz id => ?_, fun hn => absurd hcat hn⟩
      obtain ⟨config, hconfig⟩ := restoredToken_of_zoneItem hcat hzones hitem hz
      obtain ⟨row, hrow, hval⟩ := (hmem _ _).mpr ⟨item, hitem, token, hz, hconfig⟩
      refine (zoneReads_congr ?_).mp (hrows row hrow)
      rw [hval]
      exact h.decryptValue_eq hF hboot hfernet hcat hconfig
    · intro hsources row hrow
      obtain ⟨item, hitem, token, hz, hconfig⟩ := (hmem _ _).mp ⟨row, hrow, rfl⟩
      have hread := h.decryptValue_eq hF hboot hfernet hcat hconfig
      exact (zoneReads_congr hread).mpr (hsources.1 hcat item hitem _ _ hz row.id)
  · rw [zonesAfter, if_neg hcat] at hzones
    rw [← Except.ok.inj hzones]
    simp [hcat]

end Whole

/-- After a restore that returns, the next process can read every setting and
every zone exactly when they could be read where they come from. -/
theorem readable_iff_readsBack (hF : P.fernet.Laws) {m : Moment} {payload : Dict}
    {categories : List Str} {host host' : Host} {result : RestoreResult} (hboot : host.Booted P)
    (h : restorePayload P m payload categories host = (.ok result, host')) :
    (∃ key, nextEncryptionKey P host' = some key ∧ Readable P key host'.db) ↔
      ReadsBack P (normalizeCategories categories) payload host := by
  obtain ⟨db, hrestored⟩ := restored_of_ok P m h
  have hkey : host'.processKey = host.processKey := hrestored.files.processKey
  have hnext : nextEncryptionKey P host' = some host.processKey := by
    rw [← hkey]
    exact booted_restored hrestored hboot
  have hreadable : Readable P host.processKey host'.db ↔
      (∀ row ∈ db.settings.rows, SettingReads P host.processKey row.val.name row.val.value) ∧
        ∀ row ∈ db.zones.rows, ZoneReads P host.processKey row := by
    have hsettings : host'.db.settings = db.settings := by rw [hrestored.files.tables]
    have hzones : host'.db.zones = db.zones := by rw [hrestored.files.tables]
    rw [← hsettings, ← hzones]
    constructor
    · intro hr
      exact ⟨fun row hrow => (settingReads_iff hrow).mp (hr.settings row hrow), hr.zones⟩
    · intro hr
      exact ⟨fun row hrow => (settingReads_iff hrow).mpr (hr.1 row hrow), hr.2⟩
  simp only [hnext, Option.some.injEq, exists_eq_left', hreadable]
  rw [hrestored.settings_readable_iff hF hboot, hrestored.zones_readable_iff hF hboot]
  constructor
  · intro hr
    exact ⟨hr.1.1, hr.1.2, hr.2.1, hr.2.2⟩
  · intro hr
    exact ⟨⟨hr.settings, hr.keptSettings⟩, hr.zones, hr.keptZones⟩

/-- An archive of one setting, from an installation with the same secrets. -/
def settingArchive (name : Str) (value : Json) : Dict :=
  [(lit "manifest", .obj [(lit "envelope_encrypted", .bool true)]),
    (lit "settings", .arr [.obj [(lit "name", .str name), (lit "value", value)]]),
    (lit "application_secrets", .obj [(lit "SECRET_KEY", .str (lit "secret")),
      (lit "ENCRYPTION_KEY", .str hostKey)])]

/-- Restoring an encrypted sender address. -/
theorem readable_smtpFrom :
    let payload := settingArchive (lit "smtp_from") (.str (encryptValue .plain hostKey (lit "a")))
    let host' :=
      (restorePayload .plain calm payload [lit "settings", lit "application_secrets"] newHost).2
    (∃ key, nextEncryptionKey .plain host' = some key ∧ Readable .plain key host'.db) ↔
      ReadsBack .plain [.settings, .applicationSecrets] payload newHost := by
  have hboot : newHost.Booted .plain := by
    rw [Host.Booted]
    decide
  have hreturns : (restorePayload .plain calm
      (settingArchive (lit "smtp_from") (.str (encryptValue .plain hostKey (lit "a"))))
      [lit "settings", lit "application_secrets"] newHost).1 =
      .ok ⟨[(.settings, 1), (.applicationSecrets, 2)], true, [.settings, .applicationSecrets]⟩ := by
    decide
  have hiff := readable_iff_readsBack Fernet.plain_laws hboot (eq_of_fst_eq_ok hreturns)
  exact hiff

/-- A setting without a value passes the checks and cannot be read. -/
theorem not_readable_nullSetting :
    let payload := settingArchive (lit "log_level") .null
    let restored := restorePayload .plain calm payload [lit "settings", lit "application_secrets"] newHost
    newHost.Booted .plain ∧
      restored.1 =
        .ok ⟨[(.settings, 1), (.applicationSecrets, 2)], true, [.settings, .applicationSecrets]⟩ ∧
      ¬∃ key, nextEncryptionKey .plain restored.2 = some key ∧ Readable .plain key restored.2.db := by
  refine ⟨by rw [Host.Booted]; decide, by decide, fun hread => ?_⟩
  obtain ⟨key, -, hkey⟩ := hread
  obtain ⟨text, htext⟩ := (hkey.settings ⟨1, ⟨lit "log_level", []⟩⟩ (by decide)).1
  rw [getSetting_of_mem (by decide), decryptValue_nil Fernet.plain_laws] at htext
  contradiction

end ApiToDns.Backup
