import ApiToDns.Backup.Build
import ApiToDns.Backup.Readable

/-!
# Backup.Renewal

The zone a certificate is renewed through (`letsencrypt.py`) is known by its
row id.  A restore of zones gives the rows new ids, one after the other, and
keeps the id in the configuration: `refersAsBefore_iff` says when that id
still means the zone it meant.
-/

namespace ApiToDns.Backup

open Py

variable (P : Platform)

/-! ## the configuration -/

/-- The registered setting `SETTING_CONFIG`. -/
def letsencryptConfigSpec : SettingSpec := ⟨lit "letsencrypt_config", .json, none⟩

/-- `_read_json_setting`. -/
def readJsonSetting (processKey : Str) (db : Db) (spec : SettingSpec) : Except Exc (Option Dict) :=
  match getTypedSetting P processKey db spec with
  | .ok (.obj fields) => .ok (some fields)
  | .ok _ => .ok none
  | .error exc => if exc.isValueError then .ok none else .error exc

/-- The row id that `db.get` looks for. -/
def zoneRef (zoneId : Json) : Option Nat :=
  if zoneId.truthy = false then none
  else
    match bindInteger P zoneId with
    -- no row has a negative id, nor the id 0
    | .ok (.int i) => some i.toNat
    | _ => none

/-- `_zone_row`, where it finds a row. -/
def zoneRow (db : Db) (zoneId : Json) : Option (Row DnsZoneConfig) :=
  (zoneRef P zoneId).bind db.zones.get?

/-- The zone of the stored configuration is one of the same name in the
database that the configuration comes from, or there is none. -/
def RefersAsBefore (processKey : Str) (origin db : Db) : Prop :=
  ∀ config, readJsonSetting P processKey db letsencryptConfigSpec = .ok (some config) →
    ∀ row, zoneRow P db (config.get (lit "zone_id")) = some row →
      ∃ row', zoneRow P origin (config.get (lit "zone_id")) = some row' ∧
        row'.val.zoneName = row.val.zoneName

/-- The installation whose configuration is in force after a restore. -/
def configOrigin (cats : List Category) (source target : Host) : Host :=
  if .settings ∈ cats then source else target

/-! ## where the configuration comes from -/

/-- What a token is read as by `_read_json_setting`. -/
def jsonOf (key token : Str) : Except Exc (Option Dict) :=
  match decryptValue P key token >>= parseTypedText P letsencryptConfigSpec with
  | .ok (.obj fields) => .ok (some fields)
  | .ok _ => .ok none
  | .error exc => if exc.isValueError then .ok none else .error exc

/-- The configuration that is restored, or kept if settings are not
restored. -/
def Incoming (cats : List Category) (payload : Dict) (host : Host) (config : Dict) : Prop :=
  if .settings ∈ cats then
    ∃ item ∈ itemsOf payload .settings, ∃ token,
      SettingItem item letsencryptConfigSpec.key token ∧
        jsonOf P (archiveKey P cats payload) token = .ok (some config)
  else readJsonSetting P host.processKey host.db letsencryptConfigSpec = .ok (some config)

/-- The row that a restore of `zones` gives the id `id`. -/
def restoredAt (zones : Table DnsZoneConfig) (id : Nat) : Option (Row DnsZoneConfig) :=
  if id = 0 then none else zones.rows[id - 1]?

/-- The place of the zone among the rows of `source` is its id in `origin`. -/
def KeepsPlace (source origin : Db) (config : Dict) : Prop :=
  ∀ id, zoneRef P (config.get (lit "zone_id")) = some id →
    ∀ row, restoredAt source.zones id = some row →
      ∃ row', origin.zones.get? id = some row' ∧ row'.val.zoneName = row.val.zoneName

variable {P}

/-- The configuration of the certificate that is stored. -/
theorem readJsonSetting_eq_some_iff {key : Str} {db : Db} {config : Dict} :
    readJsonSetting P key db letsencryptConfigSpec = .ok (some config) ↔
      ∃ row ∈ db.settings.rows, row.val.name = letsencryptConfigSpec.key ∧
        jsonOf P key row.val.value = .ok (some config) := by
  unfold readJsonSetting getTypedSetting getSetting
  cases hrow : db.settings.byKey letsencryptConfigSpec.key with
  | none =>
      have hnone := Table.byKey_eq_none_iff.mp hrow
      refine iff_of_false ?_ fun h => ?_
      · show ¬((.ok none : Except Exc (Option Dict)) = .ok (some config))
        simp
      · obtain ⟨row, hmem, hname, -⟩ := h
        exact hnone row hmem (congrArg some hname)
  | some row =>
      obtain ⟨hmem, hkey⟩ := Table.byKey_eq_some_iff.mp hrow
      have hname : row.val.name = letsencryptConfigSpec.key := Option.some.inj hkey
      have hread : ((some <$> decryptValue P key row.val.value) >>=
          parseTyped P letsencryptConfigSpec) =
          (decryptValue P key row.val.value >>= parseTypedText P letsencryptConfigSpec) := by
        cases decryptValue P key row.val.value <;> rfl
      dsimp only
      rw [hread]
      constructor
      · intro h
        exact ⟨row, hmem, hname, h⟩
      · intro h
        obtain ⟨row', hmem', hname', hjson⟩ := h
        have heq : row = row' := db.settings.eq_of_key hmem hmem' hkey (congrArg some hname')
        rw [heq]
        exact hjson

/-- What a token says depends on its text only. -/
theorem jsonOf_congr {key key' token token' : Str}
    (h : decryptValue P key token = decryptValue P key' token') :
    jsonOf P key token = jsonOf P key' token' := by
  rw [jsonOf, jsonOf, h]

/-- A restored zone has the name that was exported. -/
theorem zoneName_of_zoneItem {destKey sourceKey : Str} {row : Row DnsZoneConfig}
    {zone : DnsZoneConfig} (h : zoneOf P destKey sourceKey (zoneItem row) = .ok zone) :
    zone.zoneName = row.val.zoneName := by
  unfold zoneOf at h
  obtain ⟨fields, hfields, h⟩ := bind_eq_ok h
  obtain ⟨config, -, h⟩ := bind_eq_ok h
  obtain ⟨name, hname, h⟩ := bind_eq_ok h
  rw [← Except.ok.inj hfields] at hname
  have hzone := Except.ok.inj h
  rw [← hzone]
  exact (Except.ok.inj hname).symm

section Restored

variable {m : Moment} {cats : List Category} {payload : Dict} {host host' : Host} {db : Db}

/-- The stored configuration is the one that came in. -/
theorem Restored.stored_iff_incoming (h : Restored P m cats payload host host' db)
    (hF : P.fernet.Laws) (hboot : host.Booted P) {config : Dict} :
    readJsonSetting P host'.processKey host'.db letsencryptConfigSpec = .ok (some config) ↔
      Incoming P cats payload host config := by
  have hkey : host'.processKey = host.processKey := h.files.processKey
  have hsettings : host'.db.settings = db.settings := by rw [h.files.tables]
  have hset := ((restoreDatabase_eq_ok_iff P m _ _ _ _ _).mp h.database).1
  unfold Incoming
  by_cases hcat : .settings ∈ cats
  · have hfernet : .settings ∈ fernetBackedCategories := by simp [fernetBackedCategories]
    have hmem := mem_settingsAfter_iff h.valid hcat hset
    have hother : letsencryptConfigSpec.key ≠ settingBackupProgress := by decide
    rw [if_pos hcat, readJsonSetting_eq_some_iff, hsettings, hkey]
    constructor
    · intro hstored
      obtain ⟨row, hrow, hname, hjson⟩ := hstored
      have hval : row.val = ⟨letsencryptConfigSpec.key, row.val.value⟩ := by rw [← hname]
      rcases (hmem _ _).mp ⟨row, hrow, hval⟩ with hkept | hrestored
      · exact absurd hkept.1 hother
      · obtain ⟨item, hitem, token, hs, hvalue⟩ := hrestored
        have hread := h.decryptValue_eq hF hboot hfernet hcat hvalue
        exact ⟨item, hitem, token, hs, by rw [← jsonOf_congr hread]; exact hjson⟩
    · intro hincoming
      obtain ⟨item, hitem, token, hs, hjson⟩ := hincoming
      obtain ⟨value, hvalue⟩ := restoredToken_of_settingItem hcat hset hitem hs
      obtain ⟨row, hrow, hval⟩ := (hmem _ _).mpr (.inr ⟨item, hitem, token, hs, hvalue⟩)
      refine ⟨row, hrow, by rw [hval], ?_⟩
      rw [hval, jsonOf_congr (h.decryptValue_eq hF hboot hfernet hcat hvalue)]
      exact hjson
  · rw [settingsAfter, if_neg hcat] at hset
    rw [if_neg hcat, readJsonSetting_eq_some_iff, readJsonSetting_eq_some_iff, hsettings, hkey,
      ← Except.ok.inj hset]

/-- The restored zone at an id is the one listed at that place. -/
theorem Restored.zoneName_get? (h : Restored P m cats payload host host' db) {source : Host}
    (harchive : ArchiveOf source cats payload) (hcat : .zones ∈ cats) (id : Nat) :
    (host'.db.zones.get? id).map (fun row => row.val.zoneName) =
      (restoredAt source.db.zones id).map fun row => row.val.zoneName := by
  have hafter : host'.db.zones = db.zones := by rw [h.files.tables]
  have hzones := ((restoreDatabase_eq_ok_iff P m _ _ _ _ _).mp h.database).2.2.1
  rw [zonesAfter, if_pos hcat, restoreZones, itemsOf_archive harchive hcat rfl,
    restoreRows_eq_ok_iff, List.mapM_map] at hzones
  obtain ⟨vs, hvs, hins⟩ := hzones
  have hnames : vs.map DnsZoneConfig.zoneName =
      source.db.zones.rows.map fun row => row.val.zoneName :=
    map_eq_of_mapM_eq_ok hvs fun row _ zone hbuild => zoneName_of_zoneItem hbuild
  rw [hafter]
  by_cases hid : id = 0
  · rw [hid, restoredAt, if_pos rfl, Table.get?_zero, Option.map_none]
  · have hget := Table.get?_insertAll hins (Nat.pos_of_ne_zero hid)
    have hcongr := congrArg (·[id - 1]?) hnames
    simp only [List.getElem?_map] at hcongr
    rw [restoredAt, if_neg hid, ← hcongr, ← hget, Option.map_map]
    rfl

end Restored

/-- Through a restore of zones the renewal keeps its zone exactly when the
id in the configuration that is in force is the place of its zone in the
archive, or beyond the end of it. -/
theorem refersAsBefore_iff (hF : P.fernet.Laws) {m : Moment} {payload : Dict}
    {categories : List Str} {source host host' : Host} {result : RestoreResult}
    (hboot : host.Booted P)
    (harchive : ArchiveOf source (normalizeCategories categories) payload)
    (hzones : .zones ∈ normalizeCategories categories)
    (h : restorePayload P m payload categories host = (.ok result, host')) :
    RefersAsBefore P host'.processKey
        (configOrigin (normalizeCategories categories) source host).db host'.db ↔
      ∀ config, Incoming P (normalizeCategories categories) payload host config →
        KeepsPlace P source.db
          (configOrigin (normalizeCategories categories) source host).db config := by
  obtain ⟨db, hrestored⟩ := restored_of_ok P m h
  unfold RefersAsBefore
  refine forall_congr' fun config => ?_
  rw [hrestored.stored_iff_incoming hF hboot]
  refine imp_congr_right fun _ => ?_
  have hname := hrestored.zoneName_get? harchive hzones
  unfold KeepsPlace zoneRow
  cases zoneRef P (config.get (lit "zone_id")) with
  | none => simp
  | some id =>
      have hid := hname id
      simp only [Option.bind_some, Option.some.injEq, forall_eq']
      cases hafter : host'.db.zones.get? id with
      | none =>
          rw [hafter, Option.map_none] at hid
          simp [Option.map_eq_none_iff.mp hid.symm]
      | some row =>
          rw [hafter, Option.map_some] at hid
          obtain ⟨row', hrow', heq⟩ := Option.map_eq_some_iff.mp hid.symm
          simp [hrow', heq]

/-! ## a gap in the ids -/

/-- A configuration that renews through the zone with the id 2. -/
def configText : Str := lit "\x7b\"zone_id\": 2\x7d"

def config2 : Dict := [(lit "zone_id", .int 2)]

/-- Python that can read `configText`. -/
def jsonPlatform : Platform :=
  { Platform.plain with loads := fun text => if text = configText then some (.obj config2) else none }

/-- An installation with the zones 1, 2 and 3 that renews through zone 2, less
the zones in `gone`. -/
def renewingHost (gone : List Nat) : Host :=
  { newHost with
    db :=
      { Db.empty with
        zones := (Table.ofList
          [⟨lit "a.example", lit "token"⟩, ⟨lit "b.example", lit "token"⟩,
            ⟨lit "c.example", lit "token"⟩]).delete fun row => row.id ∈ gone
        settings := .ofList
          [⟨lit "letsencrypt_config", encryptValue jsonPlatform hostKey configText⟩] } }

def renewingCategories : List Str := [lit "settings", lit "zones", lit "application_secrets"]

/-- Without a gap before it the zone keeps its id. -/
theorem refersAsBefore_noGap :
    let payload := archived (renewingHost [3]) renewingCategories
    let host' := (restorePayload jsonPlatform calm payload renewingCategories newHost).2
    RefersAsBefore jsonPlatform host'.processKey (renewingHost [3]).db host'.db ↔
      ∀ config, Incoming jsonPlatform [.settings, .zones, .applicationSecrets] payload newHost config →
        KeepsPlace jsonPlatform (renewingHost [3]).db (renewingHost [3]).db config := by
  have hboot : newHost.Booted jsonPlatform := by
    rw [Host.Booted]
    decide
  have hreturns : (restorePayload jsonPlatform calm (archived (renewingHost [3]) renewingCategories)
      renewingCategories newHost).1 =
      .ok ⟨[(.settings, 1), (.zones, 2), (.applicationSecrets, 2)], true,
        [.settings, .zones, .applicationSecrets]⟩ := by decide
  have hiff := refersAsBefore_iff Fernet.plain_laws hboot
    (archiveOf_archived (renewingHost [3]) renewingCategories) (by decide)
    (eq_of_fst_eq_ok hreturns)
  exact hiff

/-- An installation that has deleted its first zone and restores its own
archive renews through another zone. -/
theorem not_refersAsBefore_gap :
    let host := renewingHost [1]
    let payload := archived host renewingCategories
    let restored := restorePayload jsonPlatform calm payload renewingCategories host
    ArchiveOf host [.settings, .zones, .applicationSecrets] payload ∧
      restored.1 = .ok ⟨[(.settings, 1), (.zones, 2), (.applicationSecrets, 2)], true,
        [.settings, .zones, .applicationSecrets]⟩ ∧
      ¬RefersAsBefore jsonPlatform restored.2.processKey host.db restored.2.db := by
  have hcats : normalizeCategories renewingCategories = [.settings, .zones, .applicationSecrets] := by
    decide
  refine ⟨hcats ▸ archiveOf_archived _ _, by decide, fun hrefers => ?_⟩
  have hjson : jsonOf jsonPlatform hostKey (encryptValue jsonPlatform hostKey configText) =
      .ok (some config2) := by
    rw [jsonOf, decryptValue_encryptValue jsonPlatform Fernet.plain_laws (by decide)]
    rfl
  obtain ⟨row, hrow, hname⟩ := hrefers config2
    (readJsonSetting_eq_some_iff.mpr
      ⟨⟨1, ⟨lit "letsencrypt_config", encryptValue jsonPlatform hostKey configText⟩⟩,
        by decide, rfl, hjson⟩)
    ⟨2, ⟨lit "c.example", lit "token"⟩⟩ (by decide)
  have hsource : zoneRow jsonPlatform (renewingHost [1]).db (.int 2) =
      some ⟨2, ⟨lit "b.example", lit "token"⟩⟩ := by decide
  rw [← Option.some.inj (hsource.symm.trans hrow)] at hname
  exact absurd hname (by decide)

end ApiToDns.Backup
