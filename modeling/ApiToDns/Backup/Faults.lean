import ApiToDns.Backup.Build
import ApiToDns.Backup.Checked
import ApiToDns.Lib.Checks

/-!
# Backup.Faults

What `validate_restore_records` raises on a payload that nobody vouches for.
The checks walk the decoded JSON with methods that only some shapes have; what
such an access raises is no `BackupError`.

* `RecordFault` — the faults of a payload, in the order in which it is read;
* `recordFault_iff` — the checks raise something else than a `BackupError`
  exactly if the payload has such a fault.
-/

namespace ApiToDns.Backup

open Py Checks

/-- No `BackupError`. -/
def Escapes (exc : Exc) : Prop := ∀ msg, exc ≠ .runtimeError msg

/-! ## shapes -/

/-- `(x or "")` is no text. -/
def NotText (x : Json) : Prop := x.truthy = true ∧ ∀ s, x ≠ .str s

/-- `set(x)` raises. -/
def NoSet (x : Json) : Prop :=
  (∀ s, x ≠ .str s) ∧ (∀ fields, x ≠ .obj fields) ∧
    ∀ items, x = .arr items → ∃ item ∈ items, hashable item = false

section Shapes

variable (P : Platform)

/-- `int(x)` raises something else than `TypeError` and `ValueError`, as it
does for an infinite float. -/
def Overflows (x : Json) : Prop :=
  ∃ exc, pyInt P x = .error exc ∧ exc ≠ typeError ∧ exc.isValueError = false ∧ Escapes exc

end Shapes

/-! ## checking -/

/-- The order in which the categories are checked. -/
def checkOrder : List Category :=
  [.settings, .users, .zones, .apiKeys, .alertRules, .sslFiles, .activityLogs, .applicationSecrets]

/-- A setting that passes. -/
def SettingSound (item : Json) : Prop :=
  ∃ row : Dict, item = .obj row ∧ ∃ name, stripped (row.get (lit "name")) = .ok name ∧
    (name ≠ [] → name ∉ excludedSettingNames →
      row.get (lit "value") = .null ∨ ∃ s, row.get (lit "value") = .str s)

/-- A zone that passes, by its name. -/
def ZoneSound (item : Json) (zoneName : Str) : Prop :=
  ∃ row : Dict, item = .obj row ∧ stripped (row.get (lit "zone_name")) = .ok zoneName ∧
    zoneName ≠ [] ∧ ∃ c s, row.get (lit "encrypted_config") = .str (c :: s)

/-- An API key that passes, by its digest. -/
def ApiKeySound (item : Json) (digest : Str) : Prop :=
  ∃ row : Dict, item = .obj row ∧ row.get (lit "key") = .str digest ∧ digest ≠ [] ∧
    (∃ mode, accessModeOf row = .str mode ∧ mode ∈ apiKeyAccessModes) ∧
    ∃ items, listOr (row.get (lit "allowed_zones")) = some items

/-- A file that passes. -/
def SslFileSound (file : Str × Json) : Prop :=
  file.1 ∈ sslFileNames →
    ∃ text bs, file.2 = .str text ∧ strip text ≠ [] ∧ Base64.b64decode true text = some bs

section Checking

variable (P : Platform)

/-- What is read of a user first. -/
def UserRead (row : Dict) (username : Str) : Prop :=
  stripped (row.get (lit "username")) = .ok username ∧ username ≠ [] ∧
    ∃ hash, row.get (lit "password_hash") = .str hash ∧ strip hash ≠ [] ∧
      validatePasswordHash P hash username = .ok ()

/-- `row.get("session_version") or 0`. -/
def sessionVersionOf (row : Dict) : Json := (row.get (lit "session_version")).orElse (.int 0)

/-- A user that passes, by the name; and whether it is an enabled global
admin. -/
def UserSound (item : Json) (user : Str × Bool) : Prop :=
  ∃ row : Dict, item = .obj row ∧ UserRead P row user.1 ∧
    (∃ n, pyInt P (sessionVersionOf row) = .ok n) ∧
    if (row.get (lit "disabled")).truthy then user.2 = false
    else ∃ roles, parseRolesOr (row.get (lit "roles")) = .ok roles ∧
      user.2 = decide (roleGlobalAdmin ∈ effectiveRoles roles)

/-- What is wrong with a user where nothing looks for it. -/
def UserFault (earlier : List Str) (item : Json) : Prop :=
  ∃ row : Dict, item = .obj row ∧
    (NotText (row.get (lit "username")) ∨
      ∃ username, UserRead P row username ∧ username ∉ earlier ∧
        (Overflows P (sessionVersionOf row) ∨
          (∃ n, pyInt P (sessionVersionOf row) = .ok n) ∧
            (row.get (lit "disabled")).truthy = false ∧ NotText (row.get (lit "roles"))))

/-- `row.get("cooldown_minutes") or 0`. -/
def cooldownOf (row : Dict) : Json := (row.get (lit "cooldown_minutes")).orElse (.int 0)

/-- An alert rule that passes. -/
def AlertRuleSound (item : Json) : Prop :=
  ∃ row : Dict, item = .obj row ∧ ∃ n, pyInt P (cooldownOf row) = .ok n

/-- The manifest of a payload. -/
def Manifest (payload manifest : Dict) : Prop :=
  (payload.get (lit "manifest")).orElse (.obj []) = .obj manifest

/-- The secrets of a payload that come from an encrypted archive. -/
def SecretsRead (payload secrets : Dict) : Prop :=
  (∃ manifest, Manifest payload manifest ∧
      (Dict.get manifest manifestEnvelopeEncrypted).truthy = true) ∧
    (payload.get Category.applicationSecrets.text).orElse (.obj []) = .obj secrets

/-- The secrets pass. -/
def SecretsSound (destKey : Str) (cats : List Category) (payload : Dict) : Prop :=
  ∃ secrets, SecretsRead payload secrets ∧
    ∃ secretKey encryptionKey, stripped (secrets.get (lit "SECRET_KEY")) = .ok secretKey ∧
      stripped (secrets.get (lit "ENCRYPTION_KEY")) = .ok encryptionKey ∧
      secretKey ≠ [] ∧ encryptionKey ≠ [] ∧
      (∃ s, validatePersistedSecret P (lit "SECRET_KEY") secretKey = .ok s) ∧
      (∃ s, validatePersistedSecret P (lit "ENCRYPTION_KEY") encryptionKey = .ok s) ∧
      ((∀ c ∈ fernetBackedCategories, c ∉ cats) → encryptionKey = strip destKey)

/-- The category passes. -/
def CategorySound (destKey : Str) (cats : List Category) (payload : Dict) : Category → Prop
  | .settings => ∃ items, listOr (payload.get (lit "settings")) = some items ∧
      ∀ item ∈ items, SettingSound item
  | .users => ∃ items users, listOr (payload.get (lit "users")) = some items ∧
      AllRead Prod.fst (UserSound P) [] items users ∧ ∃ user ∈ users, user.2 = true
  | .zones => ∃ items names, listOr (payload.get (lit "zones")) = some items ∧
      AllRead id ZoneSound [] items names
  | .apiKeys => ∃ items digests, listOr (payload.get (lit "api_keys")) = some items ∧
      AllRead id ApiKeySound [] items digests
  | .alertRules => ∃ items, listOr (payload.get (lit "alert_rules")) = some items ∧
      ∀ item ∈ items, AlertRuleSound P item
  | .sslFiles => ∃ files : Dict, (payload.get (lit "ssl_files")).orElse (.obj []) = .obj files ∧
      ∀ file ∈ files, SslFileSound file
  | .activityLogs => ∃ items, listOr (payload.get (lit "activity_logs")) = some items ∧
      ∀ item ∈ items, ∃ row, item = .obj row
  | .applicationSecrets => SecretsSound P destKey cats payload

/-- What is wrong with a category where nothing looks for it, all that is read
before it being sound. -/
def CategoryFault (payload : Dict) : Category → Prop
  | .settings => ∃ before item after,
      listOr (payload.get (lit "settings")) = some (before ++ item :: after) ∧
      (∀ x ∈ before, SettingSound x) ∧
      ∃ row : Dict, item = .obj row ∧ NotText (row.get (lit "name"))
  | .users => ∃ before item after users,
      listOr (payload.get (lit "users")) = some (before ++ item :: after) ∧
      AllRead Prod.fst (UserSound P) [] before users ∧ UserFault P (users.map Prod.fst) item
  | .zones => ∃ before item after names,
      listOr (payload.get (lit "zones")) = some (before ++ item :: after) ∧
      AllRead id ZoneSound [] before names ∧
      ∃ row : Dict, item = .obj row ∧ NotText (row.get (lit "zone_name"))
  | .alertRules => ∃ before item after,
      listOr (payload.get (lit "alert_rules")) = some (before ++ item :: after) ∧
      (∀ x ∈ before, AlertRuleSound P x) ∧
      ∃ row : Dict, item = .obj row ∧ Overflows P (cooldownOf row)
  | .applicationSecrets => ∃ secrets, SecretsRead payload secrets ∧
      (NotText (secrets.get (lit "SECRET_KEY")) ∨
        ¬NotText (secrets.get (lit "SECRET_KEY")) ∧ NotText (secrets.get (lit "ENCRYPTION_KEY")))
  | .apiKeys | .sslFiles | .activityLogs => False

/-- The selection passes. -/
def SelectionSound (cats : List Category) (payload : Dict) : Prop :=
  ∃ manifest texts, Manifest payload manifest ∧
    textsOf ((manifest.get (lit "categories")).orElse (.arr [])) = .ok texts ∧
    (∀ c ∈ cats, c.text ∈ texts ∨ payload.has c.text = true) ∧
    ((∃ c ∈ fernetBackedCategories, c ∈ cats) → .applicationSecrets ∈ cats)

/-- What is wrong with a payload where nothing looks for it, all that is read
before it being sound. -/
inductive RecordFault (destKey : Str) (cats : List Category) (payload : Dict) : Prop
  | manifest (hshape : ∀ manifest, ¬Manifest payload manifest)
  | categories {manifest : Dict} (hmanifest : Manifest payload manifest)
      (hshape : NoSet ((manifest.get (lit "categories")).orElse (.arr [])))
  | category {before after : List Category} {c : Category}
      (hselection : SelectionSound cats payload) (horder : checkOrder = before ++ c :: after)
      (hbefore : ∀ d ∈ before, d ∈ cats → CategorySound P destKey cats payload d)
      (hselected : c ∈ cats) (hfault : CategoryFault P payload c)

end Checking

/-! ## accesses -/

variable {P : Platform} {destKey : Str} {cats : List Category} {payload : Dict}

@[simp] theorem not_escapes_runtimeError (msg : Str) : ¬Escapes (.runtimeError msg) := by
  simp [Escapes]

@[simp] theorem escapes_other (msg : Str) : Escapes (.other msg) := by simp [Escapes]

@[simp] theorem escapes_valueError (msg : Str) : Escapes (.valueError msg) := by simp [Escapes]

/-- A backup error does not escape. -/
@[simp] theorem not_breaks_backupError {α : Type} (msg : Str) :
    ¬Breaks Escapes (backupError msg : Except Exc α) := by
  simp [backupError]

/-- What is no text breaks. -/
theorem breaks_asText_iff {x : Json} : Breaks Escapes (asText x) ↔ ∀ s, x ≠ .str s := by
  cases x <;> simp [asText, attributeError]

/-- What is no mapping breaks. -/
theorem breaks_asDict_iff {x : Json} : Breaks Escapes (asDict x) ↔ ∀ fields, x ≠ .obj fields := by
  cases x <;> simp [asDict, attributeError]

/-- A mapping is its fields. -/
theorem asDict_eq_ok_iff {x : Json} {fields : Dict} : asDict x = .ok fields ↔ x = .obj fields := by
  cases x <;> simp [asDict]

/-- A value that is neither text nor falsy. -/
theorem orElse_str_ne_iff {x : Json} : (∀ s, x.orElse (.str []) ≠ .str s) ↔ NotText x := by
  unfold Json.orElse NotText
  by_cases hx : x.truthy = true <;> simp [hx]

/-- Stripping breaks on what is no text. -/
theorem breaks_stripped_iff {x : Json} : Breaks Escapes (stripped x) ↔ NotText x := by
  rw [stripped, breaks_map_iff, breaks_asText_iff, orElse_str_ne_iff]

/-- Anything else is stripped. -/
theorem exists_stripped_iff {x : Json} : (∃ s, stripped x = .ok s) ↔ ¬NotText x := by
  rw [← orElse_str_ne_iff, stripped]
  cases x.orElse (.str []) <;> simp [asText, Functor.map, Except.map]

/-- Reading roles breaks on what is no text. -/
theorem breaks_parseRolesOr_iff {x : Json} : Breaks Escapes (parseRolesOr x) ↔ NotText x := by
  rw [parseRolesOr, breaks_map_iff, breaks_asText_iff, orElse_str_ne_iff]

/-- A set of what cannot be hashed breaks. -/
theorem breaks_textsOf_iff {x : Json} : Breaks Escapes (textsOf x) ↔ NoSet x := by
  cases x with
  | arr items =>
      have hshape : NoSet (.arr items) ↔ items.all hashable = false := by
        simp [NoSet]
      rw [hshape, textsOf]
      cases items.all hashable <;> simp [typeError]
  | _ => simp [textsOf, NoSet, typeError]

/-- A number that overflows breaks. -/
theorem breaks_pyInt_iff {x : Json} {msg : Str} :
    Breaks Escapes (asBackupError msg (pyInt P x)) ↔ Overflows P x := by
  unfold Overflows
  cases hint : pyInt P x with
  | ok n => simp [asBackupError]
  | error exc =>
      unfold asBackupError
      dsimp only
      split
      · next hcaught =>
          simp only [not_breaks_backupError, Except.error.injEq, false_iff]
          rintro ⟨exc', rfl, hne, hvalue, -⟩
          simp [hne, hvalue] at hcaught
      · next huncaught =>
          rw [not_or] at huncaught
          simp [huncaught.1, huncaught.2]

/-- Naming an error does not change a success. -/
theorem asBackupError_eq_ok_iff {α : Type} {x : Except Exc α} {msg : Str} {a : α} :
    asBackupError msg x = .ok a ↔ x = .ok a := by
  cases x with
  | ok b => exact Iff.rfl
  | error exc =>
      unfold asBackupError
      dsimp only
      split <;> simp [backupError]

/-- A category that is no list does not break. -/
theorem not_breaks_listCategory {c : Category} {msg : Str} :
    ¬Breaks Escapes (listCategory payload c msg) := by
  unfold listCategory
  split <;> simp

/-- When a category is a list. -/
theorem listCategory_eq_ok_iff {c : Category} {msg : Str} {items : List Json} :
    listCategory payload c msg = .ok items ↔ listOr (payload.get c.text) = some items := by
  unfold listCategory
  cases listOr (payload.get c.text) <;> simp [backupError]

/-- A category that is no mapping does not break. -/
theorem not_breaks_objectCategory {c : Category} {msg : Str} :
    ¬Breaks Escapes (objectCategory payload c msg) := by
  unfold objectCategory
  split <;> simp

/-- When a category is a mapping. -/
theorem objectCategory_eq_ok_iff {c : Category} {msg : Str} {fields : Dict} :
    objectCategory payload c msg = .ok fields ↔
      (payload.get c.text).orElse (.obj []) = .obj fields := by
  unfold objectCategory
  cases (payload.get c.text).orElse (.obj []) <;> simp [backupError]

/-- An item that is no mapping does not break. -/
theorem not_breaks_requireMapping {item : Json} {label : Str} :
    ¬Breaks Escapes (requireMapping item label) := by
  unfold requireMapping
  split <;> simp

/-- When an item is a mapping. -/
theorem requireMapping_eq_ok_iff {item : Json} {label : Str} {row : Dict} :
    requireMapping item label = .ok row ↔ item = .obj row := by
  unfold requireMapping
  cases item <;> simp [backupError]

/-- A check of a list breaks at one of its items. -/
theorem breaks_listCategory_forM_iff {c : Category} {msg : Str} {f : Json → Except Exc Unit}
    {sound : Json → Prop} (hf : ∀ item, f item = .ok () ↔ sound item) :
    Breaks Escapes (listCategory payload c msg >>= fun items => items.forM f) ↔
      ∃ before item after, listOr (payload.get c.text) = some (before ++ item :: after) ∧
        (∀ x ∈ before, sound x) ∧ Breaks Escapes (f item) := by
  simp only [breaks_bind_iff, not_breaks_listCategory, false_or, listCategory_eq_ok_iff,
    breaks_forM_iff, hf]
  constructor
  · rintro ⟨items, hitems, before, item, after, rfl, hbefore, h⟩
    exact ⟨before, item, after, hitems, hbefore, h⟩
  · rintro ⟨before, item, after, hitems, hbefore, h⟩
    exact ⟨_, hitems, before, item, after, rfl, hbefore, h⟩

/-- A category passes if its items do. -/
theorem listCategory_forM_eq_ok_iff {c : Category} {msg : Str} {f : Json → Except Exc Unit}
    {sound : Json → Prop} (hf : ∀ item, f item = .ok () ↔ sound item) :
    (listCategory payload c msg >>= fun items => items.forM f) = .ok () ↔
      ∃ items, listOr (payload.get c.text) = some items ∧ ∀ item ∈ items, sound item := by
  simp only [passes_bind_iff, listCategory_eq_ok_iff, forM_eq_ok_iff, hf]

section Read

variable {κ ρ γ : Type} {key : ρ → κ} {step : List κ → Json → Except Exc ρ}
  {sound : Json → ρ → Prop} {finish : List ρ → γ} {c : Category} {msg : Str}

/-- A category breaks at an item, the ones before it having passed. -/
theorem breaks_listCategory_readAll_iff
    (hstep : ∀ seen x r, step seen x = .ok r ↔ sound x r ∧ key r ∉ seen) :
    Breaks Escapes (listCategory payload c msg >>= fun items =>
      finish <$> readAll key step [] items) ↔
      ∃ before item after read, listOr (payload.get c.text) = some (before ++ item :: after) ∧
        AllRead key sound [] before read ∧ Breaks Escapes (step (read.map key).reverse item) := by
  simp only [breaks_bind_iff, not_breaks_listCategory, false_or, listCategory_eq_ok_iff,
    breaks_map_iff, breaks_readAll_iff hstep, List.append_nil]
  constructor
  · rintro ⟨items, hitems, before, item, after, read, rfl, hread, h⟩
    exact ⟨before, item, after, read, hitems, hread, h⟩
  · rintro ⟨before, item, after, read, hitems, hread, h⟩
    exact ⟨_, hitems, before, item, after, read, rfl, hread, h⟩

/-- A category passes if its items do, each under a name of its own. -/
theorem listCategory_readAll_eq_ok_iff
    (hstep : ∀ seen x r, step seen x = .ok r ↔ sound x r ∧ key r ∉ seen) {g : γ} :
    (listCategory payload c msg >>= fun items => finish <$> readAll key step [] items) = .ok g ↔
      ∃ items read, listOr (payload.get c.text) = some items ∧ AllRead key sound [] items read ∧
        finish read = g := by
  simp only [passes_bind_iff, listCategory_eq_ok_iff, map_eq_ok_iff, readAll_eq_ok_iff hstep]
  exact exists_congr fun items => exists_and_left.symm

end Read

/-! ## category by category -/

/-- A setting passes if it is sound. -/
theorem validateSetting_eq_ok_iff {item : Json} :
    validateSetting item = .ok () ↔ SettingSound item := by
  unfold validateSetting SettingSound
  simp only [passes_bind_iff, requireMapping_eq_ok_iff]
  refine exists_congr fun row => and_congr_right fun _ => exists_congr fun name =>
    and_congr_right fun _ => ?_
  by_cases hname : name ≠ [] ∧ name ∉ excludedSettingNames
  · rw [if_pos hname]
    cases row.get (lit "value") <;> simp [hname, backupError]
  · rw [if_neg hname]
    exact iff_of_true rfl fun hne hnot => absurd ⟨hne, hnot⟩ hname

/-- A setting breaks if its name is no text. -/
theorem breaks_validateSetting_iff {item : Json} :
    Breaks Escapes (validateSetting item) ↔
      ∃ row : Dict, item = .obj row ∧ NotText (row.get (lit "name")) := by
  unfold validateSetting
  simp only [breaks_bind_iff, not_breaks_requireMapping, false_or, requireMapping_eq_ok_iff,
    breaks_stripped_iff]
  refine exists_congr fun row => and_congr_right fun _ => or_iff_left ?_
  rintro ⟨name, -, h⟩
  split at h
  · split at h <;> simp at h
  · simp at h

/-! ### zones -/

/-- The check of a zone. -/
def zoneStep (seen : List Str) (item : Json) : Except Exc Str := do
  let row ← requireMapping item (lit "Zone")
  let zoneName ← stripped (row.get (lit "zone_name"))
  if zoneName = [] then backupError (lit "Zone entry missing zone_name.")
  else if zoneName ∈ seen then
    backupError (lit "Duplicate zone '" ++ zoneName ++ lit "' in backup.")
  else
    match row.get (lit "encrypted_config") with
    | .str (_ :: _) => .ok zoneName
    | _ => backupError (lit "Zone '" ++ zoneName ++ lit "' is missing encrypted_config.")

/-- The zones are read one by one, each under a name of its own. -/
theorem validateZoneList_eq (seen : List Str) (items : List Json) :
    validateZoneList seen items = (fun _ => ()) <$> readAll id zoneStep seen items := by
  refine eq_readAll (fun _ u => u) (fun _ => rfl) (fun seen item items => ?_)
    (fun _ _ => rfl) seen items
  have hmap (x : Except Exc Unit) : (fun u => u) <$> x = x := id_map x
  rw [validateZoneList, zoneStep]
  simp only [hmap, bind_assoc]
  refine bind_congr fun row => bind_congr fun zoneName => ?_
  split
  · rfl
  · split
    · rfl
    · cases row.get (lit "encrypted_config") with
      | str s => cases s <;> rfl
      | _ => rfl

/-- A zone passes if it is sound and new. -/
theorem zoneStep_eq_ok_iff (seen : List Str) (item : Json) (zoneName : Str) :
    zoneStep seen item = .ok zoneName ↔ ZoneSound item zoneName ∧ id zoneName ∉ seen := by
  unfold zoneStep ZoneSound
  simp only [id, passes_bind_iff, requireMapping_eq_ok_iff]
  constructor
  · rintro ⟨row, rfl, name, hname, h⟩
    split at h
    · contradiction
    · next hne =>
        split at h
        · contradiction
        · next hseen =>
            split at h
            · next c s hconfig =>
                cases h
                exact ⟨⟨row, rfl, hname, hne, c, s, hconfig⟩, hseen⟩
            · contradiction
  · rintro ⟨⟨row, rfl, hname, hne, c, s, hconfig⟩, hseen⟩
    refine ⟨row, rfl, zoneName, hname, ?_⟩
    rw [if_neg hne, if_neg hseen, hconfig]

/-- A zone breaks if its name is no text. -/
theorem breaks_zoneStep_iff {seen : List Str} {item : Json} :
    Breaks Escapes (zoneStep seen item) ↔
      ∃ row : Dict, item = .obj row ∧ NotText (row.get (lit "zone_name")) := by
  unfold zoneStep
  simp only [breaks_bind_iff, not_breaks_requireMapping, false_or, requireMapping_eq_ok_iff,
    breaks_stripped_iff]
  refine exists_congr fun row => and_congr_right fun _ => or_iff_left ?_
  rintro ⟨name, -, h⟩
  split at h
  · simp at h
  · split at h
    · simp at h
    · split at h <;> simp at h

/-! ### API keys -/

/-- The check of an API key. -/
def apiKeyStep (seen : List Str) (item : Json) : Except Exc Str := do
  let row ← requireMapping item (lit "API key")
  match row.get (lit "key") with
  | .str [] => backupError (lit "API key entry missing key digest.")
  | .str digest =>
      if digest ∈ seen then backupError (lit "Duplicate API key digest in backup.")
      else
        match accessModeOf row with
        | .str mode =>
            if mode ∈ apiKeyAccessModes then
              match listOr (row.get (lit "allowed_zones")) with
              | some _ => .ok digest
              | none => backupError (lit "API key allowed_zones must be a list.")
            else backupError (lit "API key access_mode must be read_only or read_write.")
        | _ => backupError (lit "API key access_mode must be read_only or read_write.")
  | _ => backupError (lit "API key entry missing key digest.")

/-- The keys are read one by one, each under a digest of its own. -/
theorem validateApiKeyList_eq (seen : List Str) (items : List Json) :
    validateApiKeyList seen items = (fun _ => ()) <$> readAll id apiKeyStep seen items := by
  refine eq_readAll (fun _ u => u) (fun _ => rfl) (fun seen item items => ?_)
    (fun _ _ => rfl) seen items
  have hmap (x : Except Exc Unit) : (fun u => u) <$> x = x := id_map x
  rw [validateApiKeyList, apiKeyStep]
  simp only [hmap, bind_assoc]
  refine bind_congr fun row => ?_
  cases row.get (lit "key") with
  | str digest =>
      cases digest with
      | nil => rfl
      | cons c digest =>
          dsimp only
          split
          · rfl
          · cases accessModeOf row with
            | str mode =>
                dsimp only
                split
                · cases listOr (row.get (lit "allowed_zones")) <;> rfl
                · rfl
            | _ => rfl
  | _ => rfl

/-- A key passes if it is sound and new. -/
theorem apiKeyStep_eq_ok_iff (seen : List Str) (item : Json) (digest : Str) :
    apiKeyStep seen item = .ok digest ↔ ApiKeySound item digest ∧ id digest ∉ seen := by
  unfold apiKeyStep ApiKeySound
  simp only [id, passes_bind_iff, requireMapping_eq_ok_iff]
  constructor
  · rintro ⟨row, rfl, h⟩
    split at h
    · contradiction
    · next digest' hne hkey =>
        split at h
        · contradiction
        · next hseen =>
            split at h
            · next mode hmode =>
                split at h
                · next hmem =>
                    split at h
                    · next items hitems =>
                        cases h
                        exact ⟨⟨row, rfl, hkey, hne, ⟨mode, hmode, hmem⟩, items, hitems⟩, hseen⟩
                    · contradiction
                · contradiction
            · contradiction
    · contradiction
  · rintro ⟨⟨row, rfl, hkey, hne, ⟨mode, hmode, hmem⟩, items, hitems⟩, hseen⟩
    refine ⟨row, rfl, ?_⟩
    obtain ⟨c, digest, rfl⟩ := List.exists_cons_of_ne_nil hne
    simp [hkey, hseen, hmode, hmem, hitems]

/-- No key breaks. -/
theorem not_breaks_apiKeyStep {seen : List Str} {item : Json} :
    ¬Breaks Escapes (apiKeyStep seen item) := by
  unfold apiKeyStep
  simp only [breaks_bind_iff, not_breaks_requireMapping, false_or]
  rintro ⟨row, -, h⟩
  split at h
  · simp at h
  · split at h
    · simp at h
    · split at h
      · split at h
        · split at h <;> simp at h
        · simp at h
      · simp at h
  · simp at h

/-! ### users -/

/-- The accounts are read one by one, each under a name of its own. -/
theorem validateUserList_eq (seen : List Str) (items : List Json) :
    validateUserList P seen items =
      (fun users => users.any Prod.snd) <$> readAll Prod.fst (validateUser P) seen items := by
  refine eq_readAll (fun user rest => user.2 || rest) (fun _ => rfl)
    (fun seen item items => ?_) (fun _ _ => rfl) seen items
  rw [validateUserList]
  refine bind_congr fun user => ?_
  cases validateUserList P (user.1 :: seen) items <;> rfl

/-- No password hash breaks. -/
theorem not_breaks_validatePasswordHash {hash username : Str} :
    ¬Breaks Escapes (validatePasswordHash P hash username) := by
  unfold validatePasswordHash
  split
  · simp
  · split
    · split
      · split
        · simp
        · split <;> simp
      · simp
    · simp

/-- An account passes if it is sound and new. -/
theorem validateUser_eq_ok_iff (seen : List Str) (item : Json) (user : Str × Bool) :
    validateUser P seen item = .ok user ↔ UserSound P item user ∧ user.1 ∉ seen := by
  unfold validateUser UserSound UserRead
  simp only [passes_bind_iff, requireMapping_eq_ok_iff]
  constructor
  · rintro ⟨row, rfl, username, hname, h⟩
    split at h
    · contradiction
    · next hne =>
        split at h
        · next hash hhash =>
            split at h
            · contradiction
            · next hstrip =>
                obtain ⟨⟨⟩, hvalid, h⟩ := passes_bind_iff.mp h
                split at h
                · contradiction
                · next hseen =>
                    obtain ⟨n, hn, h⟩ := passes_bind_iff.mp h
                    have hn := asBackupError_eq_ok_iff.mp hn
                    split at h
                    · next hdisabled =>
                        cases h
                        refine ⟨⟨row, rfl, ⟨hname, hne, hash, hhash, hstrip, hvalid⟩, ⟨n, hn⟩, ?_⟩,
                          hseen⟩
                        rw [if_pos hdisabled]
                    · next hdisabled =>
                        obtain ⟨roles, hroles, h⟩ := passes_bind_iff.mp h
                        cases h
                        refine ⟨⟨row, rfl, ⟨hname, hne, hash, hhash, hstrip, hvalid⟩, ⟨n, hn⟩, ?_⟩,
                          hseen⟩
                        rw [if_neg hdisabled]
                        exact ⟨roles, hroles, rfl⟩
        · contradiction
  · obtain ⟨username, admin⟩ := user
    rintro ⟨⟨row, rfl, ⟨hname, hne, hash, hhash, hstrip, hvalid⟩, ⟨n, hn⟩, hadmin⟩, hseen⟩
    dsimp only at hname hne hvalid hadmin hseen
    refine ⟨row, rfl, username, hname, ?_⟩
    rw [if_neg hne, hhash]
    dsimp only
    rw [if_neg hstrip, hvalid, ok_bind, if_neg hseen]
    refine passes_bind_iff.mpr ⟨n, asBackupError_eq_ok_iff.mpr hn, ?_⟩
    split
    · next hdisabled =>
        rw [if_pos hdisabled] at hadmin
        rw [hadmin]
    · next hdisabled =>
        rw [if_neg hdisabled] at hadmin
        obtain ⟨roles, hroles, hadmin⟩ := hadmin
        rw [hroles, ok_bind, hadmin]

/-- When an account breaks. -/
theorem breaks_validateUser_iff {seen : List Str} {item : Json} :
    Breaks Escapes (validateUser P seen item) ↔ UserFault P seen item := by
  unfold validateUser UserFault UserRead
  simp only [breaks_bind_iff, not_breaks_requireMapping, false_or, requireMapping_eq_ok_iff,
    breaks_stripped_iff]
  refine exists_congr fun row => and_congr_right fun _ => or_congr_right ?_
  constructor
  · rintro ⟨username, hname, h⟩
    split at h
    · simp at h
    · next hne =>
        split at h
        · next hash hhash =>
            split at h
            · simp at h
            · next hstrip =>
                rcases breaks_bind_iff.mp h with h | ⟨⟨⟩, hvalid, h⟩
                · exact absurd h not_breaks_validatePasswordHash
                · split at h
                  · simp at h
                  · next hseen =>
                      refine ⟨username, ⟨hname, hne, hash, hhash, hstrip, hvalid⟩, hseen, ?_⟩
                      rcases breaks_bind_iff.mp h with h | ⟨n, hn, h⟩
                      · exact .inl (breaks_pyInt_iff.mp h)
                      · split at h
                        · simp at h
                        · next hdisabled =>
                            rcases breaks_bind_iff.mp h with h | ⟨roles, -, h⟩
                            · exact .inr ⟨⟨n, asBackupError_eq_ok_iff.mp hn⟩, by simpa using hdisabled,
                                breaks_parseRolesOr_iff.mp h⟩
                            · simp at h
        · simp at h
  · rintro ⟨username, ⟨hname, hne, hash, hhash, hstrip, hvalid⟩, hseen, h⟩
    refine ⟨username, hname, ?_⟩
    rw [if_neg hne, hhash]
    dsimp only
    rw [if_neg hstrip, hvalid, ok_bind, if_neg hseen]
    refine breaks_bind_iff.mpr ?_
    rcases h with h | ⟨⟨n, hn⟩, hdisabled, h⟩
    · exact .inl (breaks_pyInt_iff.mpr h)
    · refine .inr ⟨n, asBackupError_eq_ok_iff.mpr hn, ?_⟩
      rw [if_neg (by simp [hdisabled])]
      exact breaks_bind_iff.mpr (.inl (breaks_parseRolesOr_iff.mpr h))

/-- The order of the earlier names does not matter. -/
theorem userFault_reverse_iff {earlier : List Str} {item : Json} :
    UserFault P earlier.reverse item ↔ UserFault P earlier item := by
  simp only [UserFault, List.mem_reverse]

/-- When the accounts pass. -/
theorem validateUsers_eq_ok_iff :
    validateUsers P payload = .ok () ↔ CategorySound P destKey cats payload .users := by
  unfold validateUsers CategorySound
  simp only [passes_bind_iff, listCategory_eq_ok_iff]
  constructor
  · rintro ⟨items, hitems, h⟩
    split at h
    · contradiction
    · obtain ⟨admin, hadmin, h⟩ := passes_bind_iff.mp h
      rw [validateUserList_eq, map_eq_ok_iff] at hadmin
      obtain ⟨users, hread, hany⟩ := hadmin
      refine ⟨items, users, hitems,
        (readAll_eq_ok_iff validateUser_eq_ok_iff).mp hread, ?_⟩
      split at h
      · next htrue =>
          rw [htrue, List.any_eq_true] at hany
          exact hany
      · contradiction
  · rintro ⟨items, users, hitems, hread, user, huser, hadmin⟩
    have hne : items ≠ [] := by
      rintro rfl
      rw [List.forall₂_nil_left_iff.mp hread.sound] at huser
      contradiction
    have hany : users.any Prod.snd = true := List.any_eq_true.mpr ⟨user, huser, hadmin⟩
    refine ⟨items, hitems, ?_⟩
    rw [if_neg hne, validateUserList_eq,
      (readAll_eq_ok_iff validateUser_eq_ok_iff).mpr hread]
    exact if_pos hany

/-- When the accounts break. -/
theorem breaks_validateUsers_iff :
    Breaks Escapes (validateUsers P payload) ↔ CategoryFault P payload .users := by
  unfold validateUsers CategoryFault
  simp only [breaks_bind_iff, not_breaks_listCategory, false_or, listCategory_eq_ok_iff]
  constructor
  · rintro ⟨items, hitems, h⟩
    split at h
    · simp at h
    · rcases breaks_bind_iff.mp h with h | ⟨admin, -, h⟩
      · rw [validateUserList_eq, breaks_map_iff,
          breaks_readAll_iff validateUser_eq_ok_iff] at h
        obtain ⟨before, item, after, users, rfl, hread, h⟩ := h
        rw [List.append_nil, breaks_validateUser_iff, userFault_reverse_iff] at h
        exact ⟨before, item, after, users, hitems, hread, h⟩
      · split at h <;> simp at h
  · rintro ⟨before, item, after, users, hitems, hread, h⟩
    refine ⟨_, hitems, ?_⟩
    rw [if_neg (by simp), breaks_bind_iff, validateUserList_eq, breaks_map_iff,
      breaks_readAll_iff validateUser_eq_ok_iff]
    refine .inl ⟨before, item, after, users, rfl, hread, ?_⟩
    rwa [List.append_nil, breaks_validateUser_iff, userFault_reverse_iff]

/-! ### the other categories -/

/-- When an alert rule passes. -/
theorem alertRule_eq_ok_iff {item : Json} :
    (do
      let row ← requireMapping item (lit "Alert rule")
      let _ ← asBackupError (lit "Alert rule has invalid cooldown_minutes.")
        (pyInt P ((row.get (lit "cooldown_minutes")).orElse (.int 0))) : Except Exc Unit) = .ok () ↔
      AlertRuleSound P item := by
  simp only [passes_bind_iff, requireMapping_eq_ok_iff, asBackupError_eq_ok_iff]
  refine exists_congr fun row => and_congr_right fun _ => ?_
  exact ⟨fun ⟨n, hn, _⟩ => ⟨n, hn⟩, fun ⟨n, hn⟩ => ⟨n, hn, rfl⟩⟩

/-- An alert rule breaks if its cooldown overflows. -/
theorem breaks_alertRule_iff {item : Json} :
    Breaks Escapes (do
      let row ← requireMapping item (lit "Alert rule")
      let _ ← asBackupError (lit "Alert rule has invalid cooldown_minutes.")
        (pyInt P ((row.get (lit "cooldown_minutes")).orElse (.int 0))) : Except Exc Unit) ↔
      ∃ row : Dict, item = .obj row ∧ Overflows P (cooldownOf row) := by
  simp only [breaks_bind_iff, not_breaks_requireMapping, false_or, requireMapping_eq_ok_iff,
    breaks_pyInt_iff, not_breaks_pure, and_false, exists_false, or_false]
  exact Iff.rfl

/-- A certificate file passes if it is sound. -/
theorem validateSslFile_eq_ok_iff {file : Str × Json} :
    validateSslFile file = .ok () ↔ SslFileSound file := by
  unfold validateSslFile SslFileSound
  by_cases hname : file.1 ∈ sslFileNames
  · rw [if_neg (not_not.mpr hname)]
    cases file.2 with
    | str text =>
        by_cases hstrip : strip text = []
        · simp [hname, hstrip, backupError]
        · cases hbs : Base64.b64decode true text <;> simp [hname, hstrip, hbs, backupError]
    | _ => simp [hname, backupError]
  · simp [hname]

/-- No certificate file breaks. -/
theorem not_breaks_validateSslFile {file : Str × Json} :
    ¬Breaks Escapes (validateSslFile file) := by
  unfold validateSslFile
  split
  · simp
  · split
    · split
      · simp
      · split <;> simp
    · simp

/-- A secret is refused with a value error. -/
theorem validatePersistedSecret_error {name value : Str} {exc : Exc}
    (h : validatePersistedSecret P name value = .error exc) : ∃ msg, exc = .valueError msg := by
  unfold validatePersistedSecret at h
  dsimp only at h
  split at h
  · exact ⟨_, (Except.error.inj h).symm⟩
  · split at h
    · exact ⟨_, (Except.error.inj h).symm⟩
    · split at h
      · exact ⟨_, (Except.error.inj h).symm⟩
      · contradiction

/-- A secret passes if it can be persisted. -/
theorem checkPersistedSecret_eq_ok_iff {name value : Str} :
    checkPersistedSecret P name value = .ok () ↔ ∃ s, validatePersistedSecret P name value = .ok s := by
  constructor
  · exact checkPersistedSecret_eq_ok
  · rintro ⟨s, hs⟩
    rw [checkPersistedSecret, hs]

/-- No secret breaks. -/
theorem not_breaks_checkPersistedSecret {name value : Str} :
    ¬Breaks Escapes (checkPersistedSecret P name value) := by
  unfold checkPersistedSecret
  cases hvalid : validatePersistedSecret P name value with
  | ok s => simp
  | error exc =>
      obtain ⟨msg, rfl⟩ := validatePersistedSecret_error hvalid
      simp

/-- When the secrets pass. -/
theorem validateApplicationSecrets_eq_ok_iff :
    validateApplicationSecrets P destKey cats payload = .ok () ↔
      SecretsSound P destKey cats payload := by
  unfold validateApplicationSecrets SecretsSound SecretsRead Manifest
  dsimp only
  constructor
  · intro h
    split at h
    · next manifest hmanifest =>
        split at h
        · contradiction
        · next hsealed =>
            obtain ⟨secrets, hsecrets, h⟩ := passes_bind_iff.mp h
            obtain ⟨secretKey, hsk, h⟩ := passes_bind_iff.mp h
            obtain ⟨encryptionKey, hek, h⟩ := passes_bind_iff.mp h
            split at h
            · contradiction
            · next hne =>
                rw [not_or] at hne
                obtain ⟨⟨⟩, hvsk, h⟩ := passes_bind_iff.mp h
                obtain ⟨⟨⟩, hvek, h⟩ := passes_bind_iff.mp h
                refine ⟨secrets, ⟨⟨manifest, hmanifest, by simpa using hsealed⟩,
                  objectCategory_eq_ok_iff.mp hsecrets⟩, secretKey, encryptionKey, hsk, hek, hne.1,
                  hne.2, checkPersistedSecret_eq_ok_iff.mp hvsk,
                  checkPersistedSecret_eq_ok_iff.mp hvek, fun hfernet => ?_⟩
                split at h
                · contradiction
                · next hown => exact not_not.mp fun hn => hown ⟨hfernet, hn⟩
    · contradiction
  · rintro ⟨secrets, ⟨⟨manifest, hmanifest, hsealed⟩, hsecrets⟩, secretKey, encryptionKey, hsk, hek,
      hskne, hekne, hvsk, hvek, hown⟩
    rw [hmanifest]
    dsimp only
    rw [if_neg (by simp [hsealed]), objectCategory_eq_ok_iff.mpr hsecrets, ok_bind, hsk, ok_bind,
      hek, ok_bind, if_neg (by simp [hskne, hekne]), checkPersistedSecret_eq_ok_iff.mpr hvsk,
      ok_bind, checkPersistedSecret_eq_ok_iff.mpr hvek, ok_bind]
    exact if_neg fun h => h.2 (hown h.1)

/-- When the secrets break. -/
theorem breaks_validateApplicationSecrets_iff :
    Breaks Escapes (validateApplicationSecrets P destKey cats payload) ↔
      CategoryFault P payload .applicationSecrets := by
  unfold validateApplicationSecrets CategoryFault SecretsRead Manifest
  dsimp only
  constructor
  · intro h
    split at h
    · next manifest hmanifest =>
        split at h
        · simp at h
        · next hsealed =>
            rcases breaks_bind_iff.mp h with h | ⟨secrets, hsecrets, h⟩
            · exact absurd h not_breaks_objectCategory
            · refine ⟨secrets, ⟨⟨manifest, hmanifest, by simpa using hsealed⟩,
                objectCategory_eq_ok_iff.mp hsecrets⟩, ?_⟩
              rcases breaks_bind_iff.mp h with h | ⟨secretKey, hsk, h⟩
              · exact .inl (breaks_stripped_iff.mp h)
              · refine .inr ⟨exists_stripped_iff.mp ⟨secretKey, hsk⟩, ?_⟩
                rcases breaks_bind_iff.mp h with h | ⟨encryptionKey, -, h⟩
                · exact breaks_stripped_iff.mp h
                · split at h
                  · simp at h
                  · rcases breaks_bind_iff.mp h with h | ⟨⟨⟩, -, h⟩
                    · exact absurd h not_breaks_checkPersistedSecret
                    · rcases breaks_bind_iff.mp h with h | ⟨⟨⟩, -, h⟩
                      · exact absurd h not_breaks_checkPersistedSecret
                      · split at h <;> simp at h
    · simp at h
  · rintro ⟨secrets, ⟨⟨manifest, hmanifest, hsealed⟩, hsecrets⟩, h⟩
    rw [hmanifest]
    dsimp only
    rw [if_neg (by simp [hsealed]), objectCategory_eq_ok_iff.mpr hsecrets, ok_bind,
      breaks_bind_iff, breaks_stripped_iff]
    rcases h with h | ⟨hsk, hek⟩
    · exact .inl h
    · obtain ⟨secretKey, hsk⟩ := exists_stripped_iff.mpr hsk
      exact .inr ⟨secretKey, hsk, breaks_bind_iff.mpr (.inl (breaks_stripped_iff.mpr hek))⟩

/-! ### the selection -/

/-- When the selection passes. -/
theorem validateImportCategories_eq_ok_iff :
    validateImportCategories cats payload = .ok () ↔ SelectionSound cats payload := by
  unfold validateImportCategories SelectionSound Manifest
  simp only [passes_bind_iff, asDict_eq_ok_iff]
  constructor
  · rintro ⟨manifest, hmanifest, texts, htexts, ⟨⟩, hloop, hneeds⟩
    refine ⟨manifest, texts, hmanifest, htexts, fun c hc => ?_, fun hfernet => ?_⟩
    · have hcheck := forM_eq_ok_iff.mp hloop c hc
      by_contra hnot
      rw [not_or] at hnot
      rw [if_pos ⟨hnot.1, by simpa using hnot.2⟩] at hcheck
      contradiction
    · by_contra hnot
      rw [if_pos ⟨hfernet, hnot⟩] at hneeds
      contradiction
  · rintro ⟨manifest, texts, hmanifest, htexts, hcats, hneeds⟩
    refine ⟨manifest, hmanifest, texts, htexts, (), forM_eq_ok_iff.mpr fun c hc => if_neg ?_,
      if_neg fun h => h.2 (hneeds h.1)⟩
    rintro ⟨hnot, hhas⟩
    exact absurd (hcats c hc) (by simp [hnot, hhas])

/-- When the selection breaks. -/
theorem breaks_validateImportCategories_iff :
    Breaks Escapes (validateImportCategories cats payload) ↔
      (∀ manifest, ¬Manifest payload manifest) ∨ ∃ manifest, Manifest payload manifest ∧
        NoSet ((manifest.get (lit "categories")).orElse (.arr [])) := by
  unfold validateImportCategories Manifest
  simp only [breaks_bind_iff, breaks_asDict_iff, asDict_eq_ok_iff, breaks_textsOf_iff]
  refine or_congr Iff.rfl (exists_congr fun manifest => and_congr_right fun _ => or_iff_left ?_)
  rintro ⟨texts, -, h | ⟨⟨⟩, -, h⟩⟩
  · obtain ⟨before, c, after, -, -, h⟩ := breaks_forM_iff.mp h
    split at h <;> simp at h
  · split at h <;> simp at h

/-! ### all categories -/

/-- The check of a category. -/
def checkOf (P : Platform) (destKey : Str) (cats : List Category) (payload : Dict) :
    Category → Except Exc Unit
  | .settings => validateSettings payload
  | .users => validateUsers P payload
  | .zones => validateZones payload
  | .apiKeys => validateApiKeys payload
  | .alertRules => validateAlertRules P payload
  | .sslFiles => validateSslFiles payload
  | .activityLogs => validateActivityLogs payload
  | .applicationSecrets => validateApplicationSecrets P destKey cats payload

/-- The selection is checked, then the selected categories. -/
theorem validateRestoreRecords_eq :
    validateRestoreRecords P destKey cats payload =
      (validateImportCategories cats payload >>= fun _ =>
        checkOrder.forM fun c => ifSelected cats c (checkOf P destKey cats payload c)) := by
  simp [validateRestoreRecords, checkOrder, checkOf]

/-- A category passes if it is sound. -/
theorem checkOf_eq_ok_iff (c : Category) :
    checkOf P destKey cats payload c = .ok () ↔ CategorySound P destKey cats payload c := by
  cases c with
  | settings => exact listCategory_forM_eq_ok_iff fun _ => validateSetting_eq_ok_iff
  | users => exact validateUsers_eq_ok_iff
  | zones =>
      rw [checkOf, validateZones]
      simp only [validateZoneList_eq]
      rw [listCategory_readAll_eq_ok_iff zoneStep_eq_ok_iff]
      simp [CategorySound, Category.text]
  | apiKeys =>
      rw [checkOf, validateApiKeys]
      simp only [validateApiKeyList_eq]
      rw [listCategory_readAll_eq_ok_iff apiKeyStep_eq_ok_iff]
      simp [CategorySound, Category.text]
  | alertRules => exact listCategory_forM_eq_ok_iff fun _ => alertRule_eq_ok_iff
  | sslFiles =>
      rw [checkOf, validateSslFiles, CategorySound]
      simp only [passes_bind_iff, objectCategory_eq_ok_iff, forM_eq_ok_iff,
        validateSslFile_eq_ok_iff]
      rfl
  | activityLogs =>
      refine listCategory_forM_eq_ok_iff fun item => ?_
      simp only [passes_bind_iff, requireMapping_eq_ok_iff]
      exact exists_congr fun row => and_iff_left rfl
  | applicationSecrets => exact validateApplicationSecrets_eq_ok_iff

/-- A category breaks at its faults. -/
theorem breaks_checkOf_iff (c : Category) :
    Breaks Escapes (checkOf P destKey cats payload c) ↔ CategoryFault P payload c := by
  cases c with
  | settings =>
      rw [checkOf, validateSettings, breaks_listCategory_forM_iff fun _ => validateSetting_eq_ok_iff]
      simp only [breaks_validateSetting_iff]
      rfl
  | users => exact breaks_validateUsers_iff
  | zones =>
      rw [checkOf, validateZones]
      simp only [validateZoneList_eq]
      rw [breaks_listCategory_readAll_iff zoneStep_eq_ok_iff]
      simp only [breaks_zoneStep_iff]
      rfl
  | apiKeys =>
      rw [checkOf, validateApiKeys]
      simp only [validateApiKeyList_eq]
      rw [breaks_listCategory_readAll_iff apiKeyStep_eq_ok_iff]
      simp [not_breaks_apiKeyStep, CategoryFault]
  | alertRules =>
      rw [checkOf, validateAlertRules, breaks_listCategory_forM_iff fun _ => alertRule_eq_ok_iff]
      simp only [breaks_alertRule_iff]
      rfl
  | sslFiles =>
      have hfiles (files : Dict) : ¬Breaks Escapes (files.forM validateSslFile) :=
        not_breaks_forM fun _ => not_breaks_validateSslFile
      simp only [checkOf, validateSslFiles, breaks_bind_iff, not_breaks_objectCategory, hfiles,
        CategoryFault, and_false, exists_false, or_self]
  | activityLogs =>
      rw [checkOf, validateActivityLogs, breaks_bind_iff]
      refine iff_of_false ?_ id
      rintro (h | ⟨items, -, h⟩)
      · exact not_breaks_listCategory h
      · refine not_breaks_forM (fun item hitem => ?_) h
        rcases breaks_bind_iff.mp hitem with h | ⟨row, -, h⟩
        · exact not_breaks_requireMapping h
        · exact not_breaks_pure _ h
  | applicationSecrets => exact breaks_validateApplicationSecrets_iff

/-- A selected category passes if it is sound. -/
theorem ifSelected_checkOf_eq_ok_iff {c : Category} :
    ifSelected cats c (checkOf P destKey cats payload c) = .ok () ↔
      (c ∈ cats → CategorySound P destKey cats payload c) := by
  rw [ifSelected_eq_ok_iff, checkOf_eq_ok_iff]

/-- A selected category breaks at its faults. -/
theorem breaks_ifSelected_checkOf_iff {c : Category} :
    Breaks Escapes (ifSelected cats c (checkOf P destKey cats payload c)) ↔
      c ∈ cats ∧ CategoryFault P payload c := by
  unfold ifSelected
  split
  · next hc => simp [hc, breaks_checkOf_iff]
  · next hc => simp [hc]

/-- The checks of a payload raise something else than a `BackupError` exactly
if it has a fault where it is read. -/
theorem recordFault_iff :
    Breaks Escapes (validateRestoreRecords P destKey cats payload) ↔
      RecordFault P destKey cats payload := by
  rw [validateRestoreRecords_eq, breaks_bind_iff, breaks_validateImportCategories_iff]
  simp only [breaks_forM_iff, breaks_ifSelected_checkOf_iff, ifSelected_checkOf_eq_ok_iff]
  constructor
  · rintro ((h | ⟨manifest, hmanifest, h⟩) | ⟨⟨⟩, hselection, before, c, after, horder, hbefore, hc, h⟩)
    · exact .manifest h
    · exact .categories hmanifest h
    · exact .category (validateImportCategories_eq_ok_iff.mp hselection) horder hbefore hc h
  · intro h
    cases h with
    | manifest h => exact .inl (.inl h)
    | categories hmanifest h => exact .inl (.inr ⟨_, hmanifest, h⟩)
    | category hselection horder hbefore hc h =>
        exact .inr ⟨(), validateImportCategories_eq_ok_iff.mpr hselection, _, _, _, horder, hbefore, hc, h⟩

end ApiToDns.Backup
