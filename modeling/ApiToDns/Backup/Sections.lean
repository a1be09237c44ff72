import ApiToDns.Backup.Atomic
import ApiToDns.Backup.Selected

/-!
# Backup.Sections

Whether an archive that passed the checks has data for what a restore wipes.
The checks take a category for present if the manifest names it, and what is
missing or blank for empty; the restore then wipes it (`emptied_of_blank`), and
with the zones it wipes what the API keys may use (`wipesArchivedOnly_iff`).
-/

namespace ApiToDns.Backup

open Py

/-- The category is archived as an object, not as a list. -/
def Category.isObject : Category → Bool
  | .sslFiles | .applicationSecrets => true
  | _ => false

/-- The value is a list or an object, as the category is archived. -/
def IsSection (c : Category) : Json → Prop
  | .arr _ => c.isObject = false
  | .obj _ => c.isObject = true
  | _ => False

/-- The archive has a data section for the category. -/
def HasSection (payload : Dict) (c : Category) : Prop := IsSection c (payload.get c.text)

/-- What stands in the place of the data section is missing, null, false, zero,
an empty text or an empty container of the other kind. -/
def Blank (payload : Dict) (c : Category) : Prop :=
  (payload.get c.text).truthy = false ∧ ¬HasSection payload c

/-- A category has the rows or files it had; with the API keys go the zones that
they may use. -/
def SameContent (before after : Host) : Category → Prop
  | .settings => after.db.settings = before.db.settings
  | .users => accounts after.db.users = accounts before.db.users
  | .zones => after.db.zones = before.db.zones
  | .apiKeys => SameApiKeys before.db after.db ∧
      after.db.allowedZones.rows = before.db.allowedZones.rows
  | .alertRules => after.db.alertRules = before.db.alertRules
  | .activityLogs => after.db.activityLogs = before.db.activityLogs
  | .sslFiles => after.ssl = before.ssl
  | .applicationSecrets => after.environ = before.environ ∧ after.durable = before.durable ∧
      after.projectEnv = before.projectEnv

/-- Every selected category has a data section, and what has none keeps its rows
or files. -/
structure WipesArchivedOnly (cats : List Category) (payload : Dict) (before after : Host) : Prop where
  sections : ∀ c ∈ cats, HasSection payload c
  kept : ∀ c, ¬HasSection payload c → SameContent before after c

/-- The zones are restored from an archive without API keys, and the API keys may
use some. -/
def WipesGrants (cats : List Category) (payload : Dict) (before : Host) : Prop :=
  .zones ∈ cats ∧ ¬HasSection payload .apiKeys ∧ before.db.allowedZones.rows ≠ []

section

variable {P : Platform} {m : Moment} {destKey : Str} {cats : List Category} {payload : Dict}
  {host host' : Host} {db : Db} {c : Category}

/-! ## sections of an archive that passed the checks -/

/-- A list that is not empty is a section. -/
theorem isSection_of_listOr {x : Json} {items : List Json} (hlist : c.isObject = false)
    (htrue : x.truthy = true) (h : listOr x = some items) : IsSection c x := by
  unfold listOr Json.orElse at h
  rw [if_pos htrue] at h
  cases x <;> simp_all [IsSection]

/-- A category that is read as a list has a section. -/
theorem isSection_of_listCategory {msg : Str} {items : List Json} (hlist : c.isObject = false)
    (htrue : (payload.get c.text).truthy = true) (h : listCategory payload c msg = .ok items) :
    HasSection payload c := by
  unfold listCategory at h
  split at h
  · next heq => exact isSection_of_listOr hlist htrue heq
  · contradiction

/-- A category that is read as a mapping has a section. -/
theorem isSection_of_objectCategory {msg : Str} {fields : Dict} (hobject : c.isObject = true)
    (htrue : (payload.get c.text).truthy = true) (h : objectCategory payload c msg = .ok fields) :
    HasSection payload c := by
  have heq := objectCategory_eq_ok h
  unfold Json.orElse at heq
  rw [if_pos htrue] at heq
  rw [HasSection, heq]
  exact hobject

/-- Of a selected category something has to be archived as its data section. -/
theorem hasSection_of_truthy (h : validateRestoreRecords P destKey cats payload = .ok ())
    (hc : c ∈ cats) (htrue : (payload.get c.text).truthy = true) : HasSection payload c := by
  obtain ⟨-, hsettings, husers, hzones, hkeys, hrules, hssl, hlogs, hsecrets⟩ :=
    validateRestoreRecords_eq_ok_iff.mp h
  cases c with
  | settings =>
      obtain ⟨items, hitems, -⟩ := bind_eq_ok (hsettings hc)
      exact isSection_of_listCategory rfl htrue hitems
  | users =>
      obtain ⟨items, hitems, -⟩ := bind_eq_ok (husers hc)
      exact isSection_of_listCategory rfl htrue hitems
  | zones =>
      obtain ⟨items, hitems, -⟩ := bind_eq_ok (hzones hc)
      exact isSection_of_listCategory rfl htrue hitems
  | apiKeys =>
      obtain ⟨items, hitems, -⟩ := bind_eq_ok (hkeys hc)
      exact isSection_of_listCategory rfl htrue hitems
  | alertRules =>
      obtain ⟨items, hitems, -⟩ := bind_eq_ok (hrules hc)
      exact isSection_of_listCategory rfl htrue hitems
  | activityLogs =>
      obtain ⟨items, hitems, -⟩ := bind_eq_ok (hlogs hc)
      exact isSection_of_listCategory rfl htrue hitems
  | sslFiles =>
      obtain ⟨fields, hfields, -⟩ := bind_eq_ok (hssl hc)
      exact isSection_of_objectCategory rfl htrue hfields
  | applicationSecrets =>
      have hcheck := hsecrets hc
      unfold validateApplicationSecrets at hcheck
      dsimp only at hcheck
      split at hcheck
      · split_ifs at hcheck
        · contradiction
        · obtain ⟨fields, hfields, -⟩ := bind_eq_ok hcheck
          exact isSection_of_objectCategory rfl htrue hfields
      · contradiction

/-- An accepted archive has a data section for every selected category unless
one is blank. -/
theorem hasSection_iff (h : validateRestoreRecords P destKey cats payload = .ok ()) (hc : c ∈ cats) :
    HasSection payload c ↔ ¬Blank payload c := by
  constructor
  · intro hsection hblank
    exact hblank.2 hsection
  · intro hblank
    by_contra hnone
    refine hblank ⟨?_, hnone⟩
    by_contra htrue
    exact hnone (hasSection_of_truthy h hc (by simpa using htrue))

/-! ## what a restore does to a category -/

/-- What is as it was has the same content. -/
theorem SameContent.refl (host : Host) (c : Category) : SameContent host host c := by
  cases c with
  | apiKeys => exact ⟨⟨rfl, fun key _ zone _ => Iff.rfl⟩, rfl⟩
  | applicationSecrets => exact ⟨rfl, rfl, rfl⟩
  | _ => rfl

/-- A category that is not selected has the content it had, the API keys if their
zones are not restored or they may use none. -/
theorem Restored.sameContent (h : Restored P m cats payload host host' db) (hc : c ∉ cats)
    (hgrants : c = .apiKeys → .zones ∈ cats → host.db.allowedZones.rows = []) :
    SameContent host host' c := by
  obtain ⟨hs, hz, hk, hl, hr, hg⟩ := h.tables_eq
  obtain ⟨hsettings, husers, hzones, hkeys, hrules, hlogs⟩ :=
    (restoreDatabase_eq_ok_iff P m _ _ _ _ _).mp h.database
  cases c with
  | settings =>
      rw [settingsAfter, if_neg hc] at hsettings
      rw [SameContent, hs, Except.ok.inj hsettings]
  | users =>
      rw [usersAfter, if_neg hc] at husers
      rw [SameContent, h.accounts_eq, Except.ok.inj husers]
  | zones =>
      rw [zonesAfter, if_neg hc] at hzones
      rw [SameContent, hz, Except.ok.inj hzones]
  | apiKeys =>
      have htakes : ¬TakesZonesFromKeys cats payload host.db := by
        rintro ⟨hcat, -, key, -, name, hname, -⟩
        obtain ⟨link, hlink, -⟩ := mem_apiKeyAllowedZoneNames.mp hname
        rw [hgrants rfl hcat] at hlink
        exact absurd hlink List.not_mem_nil
      refine ⟨(h.keepsUnselected_iff_zones.mpr htakes).apiKeys hc, ?_⟩
      rw [apiKeysAfter, if_neg hc] at hkeys
      rw [hl, ← (Prod.mk.inj (Except.ok.inj hkeys)).2]
      split
      · next hcat => rw [hgrants rfl hcat]; rfl
      · rfl
  | alertRules =>
      rw [alertRulesAfter, if_neg hc] at hrules
      rw [SameContent, hr, Except.ok.inj hrules]
  | activityLogs =>
      rw [activityLogsAfter, if_neg hc] at hlogs
      rw [SameContent, hg, Except.ok.inj hlogs]
  | sslFiles => exact h.files.ssl hc
  | applicationSecrets => exact h.files.secrets hc

/-- Restoring the zones without the API keys leaves these no zone. -/
theorem Restored.allowedZones_nil (h : Restored P m cats payload host host' db) (hzones : .zones ∈ cats)
    (hkeys : .apiKeys ∉ cats) : host'.db.allowedZones.rows = [] := by
  obtain ⟨-, -, -, hl, -, -⟩ := h.tables_eq
  have hafter := ((restoreDatabase_eq_ok_iff P m _ _ _ _ _).mp h.database).2.2.2.1
  rw [apiKeysAfter, if_neg hkeys, if_pos hzones] at hafter
  rw [hl, ← (Prod.mk.inj (Except.ok.inj hafter)).2]
  rfl

/-- No content is left, the progress of the restore apart. -/
def Emptied (host : Host) : Category → Prop
  | .settings => ∀ row ∈ host.db.settings.rows, row.val.name = settingBackupProgress
  | .users => host.db.users.rows = []
  | .zones => host.db.zones.rows = []
  | .apiKeys => host.db.apiKeys.rows = []
  | .alertRules => host.db.alertRules.rows = []
  | .activityLogs => host.db.activityLogs.rows = []
  | .sslFiles => ∀ name ∈ sslFileNames, host.ssl name = none
  | .applicationSecrets => host.durable = none

/-- A falsy category has no items. -/
theorem itemsOf_of_falsy (h : (payload.get c.text).truthy = false) : itemsOf payload c = [] := by
  simp [itemsOf, listOr, Json.orElse, h]

/-- A blank category is emptied by the transaction. -/
theorem emptied_of_blank (h : Restored P m cats payload host host' db) (hc : c ∈ cats)
    (hfiles : c ≠ .sslFiles) (hblank : Blank payload c) : Emptied host' c := by
  have hitems := itemsOf_of_falsy hblank.1
  obtain ⟨hs, hz, hk, hl, hr, hg⟩ := h.tables_eq
  obtain ⟨hsettings, husers, hzones, hkeys, hrules, hlogs⟩ :=
    (restoreDatabase_eq_ok_iff P m _ _ _ _ _).mp h.database
  cases c with
  | settings =>
      rw [settingsAfter, if_pos hc, hitems] at hsettings
      intro row hrow
      rw [hs, ← Except.ok.inj hsettings] at hrow
      simpa [Table.delete] using (List.mem_filter.mp hrow).2
  | users =>
      have hchecked := (validateRestoreRecords_eq_ok_iff.mp h.valid).2.2.1 hc
      obtain ⟨items, hlist, hcheck⟩ := bind_eq_ok hchecked
      rw [← listCategory_eq_ok hlist, hitems, if_pos rfl] at hcheck
      contradiction
  | zones =>
      rw [zonesAfter, if_pos hc, hitems] at hzones
      rw [Emptied, hz, ← Except.ok.inj hzones]
      rfl
  | apiKeys =>
      rw [apiKeysAfter, if_pos hc, hitems] at hkeys
      rw [Emptied, hk, ← (Prod.mk.inj (Except.ok.inj hkeys)).1]
      rfl
  | alertRules =>
      rw [alertRulesAfter, if_pos hc, hitems] at hrules
      rw [Emptied, hr, ← Except.ok.inj hrules]
      rfl
  | activityLogs =>
      rw [activityLogsAfter, if_pos hc, hitems] at hlogs
      rw [Emptied, hg, ← Except.ok.inj hlogs]
      rfl
  | sslFiles => contradiction
  | applicationSecrets =>
      obtain ⟨secrets, hchecked⟩ := secretsChecked h.valid hc
      have heq := hchecked.eq
      have hkey := hchecked.secretKey
      simp only [secretsOf, Json.orElse, hblank.1, Bool.false_eq_true, if_false] at heq
      have hnone := Except.ok.inj heq
      rw [← hnone] at hkey
      exact absurd rfl hkey

/-- Restoring an accepted archive wipes nothing that it has no data for exactly
if nothing of what is selected is blank in it, and, where the transaction is
committed, the zones are not restored without the API keys that may use some. -/
theorem wipesArchivedOnly_iff {categories : List Str} {r : Except Exc RestoreResult}
    (h : validateRestoreRecords P host.processKey (normalizeCategories categories) payload = .ok ())
    (hrun : restorePayload P m payload categories host = (r, host')) :
    WipesArchivedOnly (normalizeCategories categories) payload host host' ↔
      (∀ c ∈ normalizeCategories categories, ¬Blank payload c) ∧
        (Commits P m payload categories host →
          ¬WipesGrants (normalizeCategories categories) payload host) := by
  constructor
  · intro hwipes
    refine ⟨fun c hc => (hasSection_iff h hc).mp (hwipes.sections c hc), fun hcommits hgrants => ?_⟩
    obtain ⟨hzones, hnone, hsome⟩ := hgrants
    obtain ⟨db, hrestored⟩ := restored_of_commits hcommits
    rw [hrun] at hrestored
    have hkeys : .apiKeys ∉ normalizeCategories categories :=
      fun hc => hnone (hwipes.sections .apiKeys hc)
    rw [← (hwipes.kept .apiKeys hnone).2, hrestored.allowedZones_nil hzones hkeys] at hsome
    contradiction
  · rintro ⟨hblank, hgrants⟩
    have hsections : ∀ c ∈ normalizeCategories categories, HasSection payload c :=
      fun c hc => (hasSection_iff h hc).mpr (hblank c hc)
    refine ⟨hsections, fun c hnone => ?_⟩
    by_cases hcommits : Commits P m payload categories host
    · obtain ⟨db, hrestored⟩ := restored_of_commits hcommits
      rw [hrun] at hrestored
      refine hrestored.sameContent (fun hc => hnone (hsections c hc)) fun heq hzones => ?_
      subst heq
      by_contra hsome
      exact hgrants hcommits ⟨hzones, hnone, hsome⟩
    · have hsame := unchanged_of_not_commits hcommits
      rw [hrun] at hsame
      dsimp only at hsame
      rw [hsame]
      exact .refl host c

end

/-- Restoring zones and API keys from an archive that has both. -/
theorem wipesArchivedOnly_keys :
    WipesArchivedOnly [.zones, .apiKeys, .applicationSecrets] keysArchive keyHost
      (restorePayload .plain calm keysArchive keysSelection keyHost).2 := by
  have hvalid : validateRestoreRecords .plain keyHost.processKey (normalizeCategories keysSelection)
      keysArchive = .ok () := by decide
  have hsections : ∀ c ∈ normalizeCategories keysSelection, HasSection keysArchive c := by
    have hcats : normalizeCategories keysSelection = [.zones, .apiKeys, .applicationSecrets] := rfl
    simp only [hcats, List.forall_mem_cons, List.not_mem_nil, false_implies, implies_true, and_true]
    exact ⟨rfl, rfl, rfl⟩
  exact (wipesArchivedOnly_iff hvalid rfl).mpr ⟨fun c hc => (hasSection_iff hvalid hc).mp
    (hsections c hc), fun _ hgrants => hgrants.2.1 (hsections .apiKeys (by decide))⟩

/-- An archive whose manifest names the API keys and that has no data for them. -/
def namedArchive : Dict :=
  [(lit "manifest", .obj [(lit "categories", .arr [.str (lit "api_keys")])])]

/-- It is accepted, and all API keys are deleted. -/
theorem named_archive_wipes :
    validateRestoreRecords .plain keyHost.processKey (normalizeCategories [lit "api_keys"])
        namedArchive = .ok () ∧
      ¬WipesArchivedOnly [.apiKeys] namedArchive keyHost
        (restorePayload .plain calm namedArchive [lit "api_keys"] keyHost).2 ∧
      keyHost.db.apiKeys.rows ≠ [] ∧
      (restorePayload .plain calm namedArchive [lit "api_keys"] keyHost).2.db.apiKeys.rows = [] := by
  refine ⟨by decide, fun h => ?_, by decide, by decide⟩
  exact h.sections .apiKeys (by decide)

end ApiToDns.Backup
