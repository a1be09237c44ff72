import ApiToDns.Backup.Checked

/-!
# Backup.Selected

A restore touches the selected categories only, with one exception: restoring
zones without the API keys takes the keys their zones
(`keepsUnselected_iff`).
-/

namespace ApiToDns.Backup

open Py

/-- `api_key_allowed_zone_names`. -/
def apiKeyAllowedZoneNames (db : Db) (keyId : Nat) : List Str :=
  let links := db.allowedZones.rows.filter fun link => link.val.apiKeyId = keyId
  (links.filterMap fun link =>
    (db.zones.get? link.val.dnsZoneConfigId).map fun zone => zone.val.zoneName).insertionSort (· ≤ ·)

/-- The names of the zones that a key may use. -/
theorem mem_apiKeyAllowedZoneNames {db : Db} {keyId : Nat} {name : Str} :
    name ∈ apiKeyAllowedZoneNames db keyId ↔
      ∃ link ∈ db.allowedZones.rows, link.val.apiKeyId = keyId ∧
        ∃ zone, db.zones.get? link.val.dnsZoneConfigId = some zone ∧ zone.val.zoneName = name := by
  simp [apiKeyAllowedZoneNames, and_assoc]

/-- The accounts, without their session versions. -/
def accounts (users : Table User) : List (Nat × Str × Str × Str × Bool) :=
  users.rows.map fun row =>
    (row.id, row.val.username, row.val.passwordHash, row.val.roles, row.val.disabled)

/-- The keys are the same and may use the same zones, of those there are in
the end. -/
structure SameApiKeys (before after : Db) : Prop where
  keys : after.apiKeys = before.apiKeys
  allowed : ∀ key ∈ after.apiKeys.rows, ∀ zone ∈ after.zones.rows,
    (zone.val.zoneName ∈ apiKeyAllowedZoneNames after key.id ↔
      zone.val.zoneName ∈ apiKeyAllowedZoneNames before key.id)

/-- Every category that is not selected has the content it had. -/
structure KeepsUnselected (cats : List Category) (before after : Host) : Prop where
  settings : .settings ∉ cats → after.db.settings = before.db.settings
  users : .users ∉ cats → accounts after.db.users = accounts before.db.users
  zones : .zones ∉ cats → after.db.zones = before.db.zones
  apiKeys : .apiKeys ∉ cats → SameApiKeys before.db after.db
  alertRules : .alertRules ∉ cats → after.db.alertRules = before.db.alertRules
  activityLogs : .activityLogs ∉ cats → after.db.activityLogs = before.db.activityLogs
  sslFiles : .sslFiles ∉ cats → after.ssl = before.ssl
  applicationSecrets : .applicationSecrets ∉ cats →
    after.environ = before.environ ∧ after.durable = before.durable ∧
      after.projectEnv = before.projectEnv

/-- The zones are restored without the keys, and one of the restored zones is
one that a key may use. -/
def TakesZonesFromKeys (cats : List Category) (payload : Dict) (db : Db) : Prop :=
  .zones ∈ cats ∧ .apiKeys ∉ cats ∧
    ∃ key ∈ db.apiKeys.rows, ∃ name ∈ apiKeyAllowedZoneNames db key.id,
      ∃ item ∈ itemsOf payload .zones, ∃ token, ZoneItem item name token

variable {P : Platform} {m : Moment}

/-- New session versions leave the accounts as they are. -/
theorem accounts_freshSessionVersions (users : Table User) :
    accounts (freshSessionVersions m users) = accounts users := by
  simp [accounts, freshSessionVersions, Table.update]

section Frame

variable {cats : List Category} {payload : Dict} {host host' : Host} {db : Db}
  (h : Restored P m cats payload host host' db)

include h

/-- The tables are those of the transaction, the session versions apart. -/
theorem Restored.tables_eq :
    host'.db.settings = db.settings ∧ host'.db.zones = db.zones ∧ host'.db.apiKeys = db.apiKeys ∧
      host'.db.allowedZones = db.allowedZones ∧ host'.db.alertRules = db.alertRules ∧
      host'.db.activityLogs = db.activityLogs := by
  have htables := h.files.tables
  refine ⟨?_, ?_, ?_, ?_, ?_, ?_⟩
  all_goals rw [htables]

/-- The accounts after a restore, apart from their session versions. -/
theorem Restored.accounts_eq : accounts host'.db.users = accounts db.users := by
  cases h.files.users with
  | inl hsame => rw [hsame]
  | inr hfresh =>
      rw [hfresh.2.2]
      exact accounts_freshSessionVersions db.users

/-- Only the zones of the API keys can change behind a selection. -/
theorem Restored.keepsUnselected_iff_apiKeys :
    KeepsUnselected cats host host' ↔ (.apiKeys ∉ cats → SameApiKeys host.db host'.db) := by
  obtain ⟨hs, hz, hk, hl, hr, hg⟩ := h.tables_eq
  have hdb := (restoreDatabase_eq_ok_iff P m _ _ _ _ _).mp h.database
  constructor
  · intro hkeeps
    exact hkeeps.apiKeys
  · intro hkeys
    constructor
    · intro hn
      have hset := hdb.1
      rw [settingsAfter, if_neg hn] at hset
      rw [hs, Except.ok.inj hset]
    · intro hn
      have husers := hdb.2.1
      rw [usersAfter, if_neg hn] at husers
      rw [h.accounts_eq, Except.ok.inj husers]
    · intro hn
      have hzones := hdb.2.2.1
      rw [zonesAfter, if_neg hn] at hzones
      rw [hz, Except.ok.inj hzones]
    · exact hkeys
    · intro hn
      have hrules := hdb.2.2.2.2.1
      rw [alertRulesAfter, if_neg hn] at hrules
      rw [hr, Except.ok.inj hrules]
    · intro hn
      have hlogs := hdb.2.2.2.2.2
      rw [activityLogsAfter, if_neg hn] at hlogs
      rw [hg, Except.ok.inj hlogs]
    · exact h.files.ssl
    · exact h.files.secrets

/-- The keys keep their zones unless the zones are restored under them. -/
theorem Restored.keepsUnselected_iff_zones :
    KeepsUnselected cats host host' ↔ ¬TakesZonesFromKeys cats payload host.db := by
  rw [h.keepsUnselected_iff_apiKeys]
  obtain ⟨-, hz, hk, hl, -, -⟩ := h.tables_eq
  have hdb := (restoreDatabase_eq_ok_iff P m _ _ _ _ _).mp h.database
  by_cases hkeys : .apiKeys ∈ cats
  · exact ⟨fun _ htakes => htakes.2.1 hkeys, fun _ hn => absurd hkeys hn⟩
  · have hafter := hdb.2.2.2.1
    rw [apiKeysAfter, if_neg hkeys] at hafter
    obtain ⟨hapi, hlinks⟩ := Prod.mk.inj (Except.ok.inj hafter)
    rw [← hapi] at hk
    rw [← hlinks] at hl
    by_cases hzones : .zones ∈ cats
    · rw [if_pos hzones] at hl
      -- no key may use any zone any more
      have hnone : ∀ keyId, apiKeyAllowedZoneNames host'.db keyId = [] := by
        intro keyId
        rw [apiKeyAllowedZoneNames, hl]
        rfl
      have hnames := zoneName_iff_of_zonesAfter h.valid hzones hdb.2.2.1
      constructor
      · intro hsame htakes
        obtain ⟨-, -, key, hkey, name, hname, item, hitem, token, hz'⟩ := htakes
        obtain ⟨zone, hzone, hzname⟩ := (hnames _).mpr ⟨item, hitem, token, hz'⟩
        have hiff := (hsame hkeys).allowed key (hk ▸ hkey) zone (hz ▸ hzone)
        rw [hnone, hzname] at hiff
        exact absurd (hiff.mpr hname) (by simp)
      · intro htakes _
        refine ⟨hk, fun key hkey zone hzone => ?_⟩
        rw [hnone]
        refine iff_of_false (by simp) fun hname => htakes ?_
        obtain ⟨item, hitem, token, hz'⟩ := (hnames _).mp ⟨zone, hz ▸ hzone, rfl⟩
        exact ⟨hzones, hkeys, key, hk ▸ hkey, _, hname, item, hitem, token, hz'⟩
    · rw [if_neg hzones] at hl
      have hzafter := hdb.2.2.1
      rw [zonesAfter, if_neg hzones] at hzafter
      rw [← Except.ok.inj hzafter] at hz
      refine iff_of_true (fun _ => ⟨hk, fun key _ zone _ => ?_⟩) fun htakes => hzones htakes.1
      rw [apiKeyAllowedZoneNames, apiKeyAllowedZoneNames, hl, hz]

end Frame

/-- A restore keeps what was not selected exactly when it does not restore,
without the API keys, a zone that one of them may use. -/
theorem keepsUnselected_iff {payload : Dict} {categories : List Str} {host host' : Host}
    {result : RestoreResult}
    (h : restorePayload P m payload categories host = (.ok result, host')) :
    KeepsUnselected (normalizeCategories categories) host host' ↔
      ¬TakesZonesFromKeys (normalizeCategories categories) payload host.db := by
  obtain ⟨db, hrestored⟩ := restored_of_ok P m h
  exact hrestored.keepsUnselected_iff_zones

/-- An installation with one key for one zone. -/
def keyHost : Host where
  db :=
    { Db.empty with
      settings := .ofList [⟨lit "log_level", lit "token"⟩]
      apiKeys := .ofList
        [⟨lit "ci", lit "digest", some (lit "abc"), apiKeyAccessReadWrite, true, calm.now⟩]
      zones := .ofList [⟨lit "example.com", lit "token"⟩]
      allowedZones := .ofList [⟨1, 1⟩] }
  ssl _ := none
  environ := ⟨lit "secret", hostKey⟩
  container := ⟨lit "secret", hostKey⟩
  durable := none
  projectEnv := none
  processKey := hostKey

/-- The archive of its zones. -/
def zonesArchive : Dict :=
  [(lit "manifest", .obj [(lit "envelope_encrypted", .bool true)]),
    (lit "zones", .arr [.obj [(lit "zone_name", .str (lit "example.com")),
      (lit "encrypted_config", .str (lit "token"))]]),
    (lit "application_secrets", .obj [(lit "SECRET_KEY", .str (lit "secret")),
      (lit "ENCRYPTION_KEY", .str hostKey)])]

/-- The archive of its zones and keys. -/
def keysArchive : Dict :=
  zonesArchive ++ [(lit "api_keys", .arr [.obj [(lit "label", .str (lit "ci")),
    (lit "key", .str (lit "digest")), (lit "access_mode", .str apiKeyAccessReadWrite),
    (lit "allowed_zones", .arr [.str (lit "example.com")])]])]

/-- What is selected of it. -/
def keysSelection : List Str := [lit "zones", lit "api_keys", lit "application_secrets"]

/-- Restoring zones and keys keeps the setting. -/
theorem keepsUnselected_keys :
    KeepsUnselected [.zones, .apiKeys, .applicationSecrets] keyHost
      (restorePayload .plain calm keysArchive keysSelection keyHost).2 := by
  have hreturns : (restorePayload .plain calm keysArchive keysSelection keyHost).1 =
      .ok ⟨[(.zones, 1), (.apiKeys, 1), (.applicationSecrets, 2)], true,
        [.zones, .apiKeys, .applicationSecrets]⟩ := by decide
  exact (keepsUnselected_iff (eq_of_fst_eq_ok hreturns)).mpr fun htakes =>
    htakes.2.1 (by decide)

/-- Restoring the zones alone takes them from the keys. -/
theorem not_keepsUnselected_zones :
    (restorePayload .plain calm zonesArchive [lit "zones", lit "application_secrets"] keyHost).1 =
        .ok ⟨[(.zones, 1), (.applicationSecrets, 2)], true, [.zones, .applicationSecrets]⟩ ∧
      ¬KeepsUnselected [.zones, .applicationSecrets] keyHost
        (restorePayload .plain calm zonesArchive [lit "zones", lit "application_secrets"]
          keyHost).2 := by
  refine ⟨by decide, fun hkeeps => ?_⟩
  have hsame := hkeeps.apiKeys (by decide)
  have hiff := hsame.allowed
    ⟨1, ⟨lit "ci", lit "digest", some (lit "abc"), apiKeyAccessReadWrite, true, calm.now⟩⟩
    (by decide) ⟨1, ⟨lit "example.com", lit "token"⟩⟩ (by decide)
  exact absurd (hiff.mpr (by decide)) (by decide)

end ApiToDns.Backup
