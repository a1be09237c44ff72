import ApiToDns.Backup.Effects

/-!
# Backup.Checked

What a payload that passed the checks looks like, category by category.
-/

namespace ApiToDns.Backup

open Py

variable {P : Platform} {destKey : Str} {cats : List Category} {payload : Dict}

/-- Two checks pass if both do. -/
theorem unit_bind_eq_ok_iff {ε : Type} {x y : Except ε Unit} :
    (x >>= fun _ => y) = .ok () ↔ x = .ok () ∧ y = .ok () := by
  rw [bind_eq_ok_iff]
  constructor
  · intro h
    obtain ⟨a, ha, hy⟩ := h
    exact ⟨ha, hy⟩
  · intro h
    exact ⟨(), h.1, h.2⟩

/-- The check of a category that is not selected passes. -/
theorem ifSelected_eq_ok_iff {category : Category} {check : Except Exc Unit} :
    ifSelected cats category check = .ok () ↔ (category ∈ cats → check = .ok ()) := by
  unfold ifSelected
  by_cases h : category ∈ cats <;> simp [h]

/-- A loop of checks passes if all do. -/
theorem forM_eq_ok_iff {ε : Type} {f : α → Except ε Unit} {items : List α} :
    items.forM f = .ok () ↔ ∀ item ∈ items, f item = .ok () := by
  induction items with
  | nil => simp [List.forM, pure, Except.pure]
  | cons item items ih =>
      show (f item >>= fun _ => items.forM f) = .ok () ↔ _
      rw [unit_bind_eq_ok_iff, ih, List.forall_mem_cons]

/-- The checks that a selection asks for have all passed. -/
theorem validateRestoreRecords_eq_ok_iff :
    validateRestoreRecords P destKey cats payload = .ok () ↔
      validateImportCategories cats payload = .ok () ∧
      (.settings ∈ cats → validateSettings payload = .ok ()) ∧
      (.users ∈ cats → validateUsers P payload = .ok ()) ∧
      (.zones ∈ cats → validateZones payload = .ok ()) ∧
      (.apiKeys ∈ cats → validateApiKeys payload = .ok ()) ∧
      (.alertRules ∈ cats → validateAlertRules P payload = .ok ()) ∧
      (.sslFiles ∈ cats → validateSslFiles payload = .ok ()) ∧
      (.activityLogs ∈ cats → validateActivityLogs payload = .ok ()) ∧
      (.applicationSecrets ∈ cats →
        validateApplicationSecrets P destKey cats payload = .ok ()) := by
  unfold validateRestoreRecords
  simp only [unit_bind_eq_ok_iff, ifSelected_eq_ok_iff]

/-- The items of a category. -/
theorem listCategory_eq_ok {category : Category} {msg : Str} {items : List Json}
    (h : listCategory payload category msg = .ok items) : itemsOf payload category = items := by
  unfold listCategory at h
  unfold itemsOf
  split at h
  · next heq =>
      rw [heq]
      exact Except.ok.inj h
  · contradiction

/-- An item that is required to be a mapping. -/
theorem requireMapping_eq_ok {item : Json} {label : Str} {row : Dict}
    (h : requireMapping item label = .ok row) : item = .obj row := by
  unfold requireMapping at h
  split at h
  · rw [Except.ok.inj h]
  · contradiction

/-- A text that is not blank once stripped is the text that was there. -/
theorem stripped_eq_ok {x : Json} {s : Str} (h : stripped x = .ok s) (hne : s ≠ []) :
    ∃ t, x = .str t ∧ strip t = s := by
  unfold stripped at h
  unfold Json.orElse at h
  split at h
  · cases x with
    | str t => exact ⟨t, rfl, Except.ok.inj h⟩
    | _ => contradiction
  · have : strip [] = s := Except.ok.inj h
    exact absurd this.symm hne

/-! ## application secrets -/

/-- The secrets of an archive that passed the checks. -/
structure SecretsChecked (P : Platform) (destKey : Str) (cats : List Category) (payload : Dict)
    (secrets : Secrets) : Prop where
  eq : secretsOf payload = .ok secrets
  secretKey : secrets.secretKey ≠ []
  encryptionKey : secrets.encryptionKey ≠ []
  validSecretKey : ∃ s, validatePersistedSecret P (lit "SECRET_KEY") secrets.secretKey = .ok s
  validEncryptionKey :
    ∃ s, validatePersistedSecret P (lit "ENCRYPTION_KEY") secrets.encryptionKey = .ok s
  own : (∀ c ∈ fernetBackedCategories, c ∉ cats) → secrets.encryptionKey = strip destKey

/-- A secret that is checked can be persisted. -/
theorem checkPersistedSecret_eq_ok {name value : Str}
    (h : checkPersistedSecret P name value = .ok ()) :
    ∃ s, validatePersistedSecret P name value = .ok s := by
  unfold checkPersistedSecret at h
  split at h
  · contradiction
  · contradiction
  · next s heq => exact ⟨s, heq⟩

/-- The fields of a category. -/
theorem objectCategory_eq_ok {category : Category} {msg : Str} {fields : Dict}
    (h : objectCategory payload category msg = .ok fields) :
    (payload.get category.text).orElse (.obj []) = .obj fields := by
  unfold objectCategory at h
  split at h
  · next heq => rw [heq, Except.ok.inj h]
  · contradiction

/-- The secrets of a validated payload are checked. -/
theorem secretsChecked (h : validateRestoreRecords P destKey cats payload = .ok ())
    (hcat : .applicationSecrets ∈ cats) :
    ∃ secrets, SecretsChecked P destKey cats payload secrets := by
  have hcheck := (validateRestoreRecords_eq_ok_iff.mp h).2.2.2.2.2.2.2.2 hcat
  unfold validateApplicationSecrets at hcheck
  dsimp only at hcheck
  split at hcheck
  · split at hcheck
    · contradiction
    · obtain ⟨fields, hfields, hcheck⟩ := bind_eq_ok hcheck
      obtain ⟨secretKey, hsk, hcheck⟩ := bind_eq_ok hcheck
      obtain ⟨encryptionKey, hek, hcheck⟩ := bind_eq_ok hcheck
      split at hcheck
      · contradiction
      · next hne =>
          obtain ⟨hvs, hcheck⟩ := unit_bind_eq_ok_iff.mp hcheck
          obtain ⟨hve, hcheck⟩ := unit_bind_eq_ok_iff.mp hcheck
          refine ⟨⟨secretKey, encryptionKey⟩, ?_⟩
          constructor
          · rw [secretsOf, objectCategory_eq_ok hfields]
            show (stripped (Dict.get fields (lit "SECRET_KEY")) >>= _) = _
            rw [hsk, ok_bind, hek, ok_bind]
          · exact fun heq => hne (.inl heq)
          · exact fun heq => hne (.inr heq)
          · exact checkPersistedSecret_eq_ok hvs
          · exact checkPersistedSecret_eq_ok hve
          · intro hfernet
            split at hcheck
            · contradiction
            · next hown => exact not_not.mp fun hn => hown ⟨hfernet, hn⟩
  · contradiction

/-- The key that the tokens of the archive are read with. -/
theorem SecretsChecked.archiveKey_eq {secrets : Secrets}
    (h : SecretsChecked P destKey cats payload secrets) (hcat : .applicationSecrets ∈ cats) :
    archiveKey P cats payload = secrets.encryptionKey := by
  have heq := h.eq
  rw [archiveKey, if_pos hcat, payloadEncryptionKey]
  unfold secretsOf at heq
  obtain ⟨fields, hfields, heq⟩ := bind_eq_ok heq
  obtain ⟨secretKey, -, heq⟩ := bind_eq_ok heq
  obtain ⟨encryptionKey, hek, heq⟩ := bind_eq_ok heq
  have hsecrets := Except.ok.inj heq
  have hobj : (payload.get Category.applicationSecrets.text).orElse (.obj []) = .obj fields := by
    unfold asDict at hfields
    split at hfields
    · next h => rw [h, Except.ok.inj hfields]
    · contradiction
  rw [hobj]
  dsimp only
  have hne := h.encryptionKey
  rw [← hsecrets] at hne ⊢
  obtain ⟨text, htext, hstrip⟩ := stripped_eq_ok hek hne
  have hnonempty : text ≠ [] := fun hnil => hne (by rw [← hstrip, hnil]; rfl)
  rw [htext, Json.orElse, if_pos (by cases text <;> simp_all [Json.truthy]), Json.pyStr_str, hstrip]

/-- Encrypted categories are restored together with the secrets they are
encrypted with. -/
theorem applicationSecrets_of_fernetBacked
    (h : validateRestoreRecords P destKey cats payload = .ok ()) {c : Category}
    (hc : c ∈ fernetBackedCategories) (hcat : c ∈ cats) : .applicationSecrets ∈ cats := by
  have himport := (validateRestoreRecords_eq_ok_iff.mp h).1
  unfold validateImportCategories at himport
  obtain ⟨manifest, -, himport⟩ := bind_eq_ok himport
  obtain ⟨included, -, himport⟩ := bind_eq_ok himport
  obtain ⟨-, -, hsecrets⟩ := bind_eq_ok himport
  by_contra hn
  rw [if_pos ⟨⟨c, hc, hcat⟩, hn⟩] at hsecrets
  contradiction

/-- The key of the archive is there when encrypted categories are restored. -/
theorem archiveKey_ne_nil (h : validateRestoreRecords P destKey cats payload = .ok ())
    {c : Category} (hc : c ∈ fernetBackedCategories) (hcat : c ∈ cats) :
    archiveKey P cats payload ≠ [] := by
  have hsecrets := applicationSecrets_of_fernetBacked h hc hcat
  obtain ⟨secrets, hchecked⟩ := secretsChecked h hsecrets
  rw [hchecked.archiveKey_eq hsecrets]
  exact hchecked.encryptionKey

/-! ## settings -/

/-- A setting of an archive that is not skipped. -/
structure SettingItem (item : Json) (name token : Str) : Prop where
  obj : ∃ row : Dict, item = .obj row ∧ stripped (row.get (lit "name")) = .ok name ∧
    (row.get (lit "value")).orElse (.str []) = .str token
  name_ne_nil : name ≠ []
  not_excluded : name ∉ excludedSettingNames

/-- A validated setting has a name and a token. -/
theorem settingItem_of_validateSetting {item : Json} {row : Dict} {name : Str}
    (h : validateSetting item = .ok ()) (hobj : item = .obj row)
    (hname : stripped (row.get (lit "name")) = .ok name) (hne : name ≠ [])
    (hex : name ∉ excludedSettingNames) : ∃ token, SettingItem item name token := by
  unfold validateSetting at h
  rw [hobj] at h
  obtain ⟨row', hrow, h⟩ := bind_eq_ok h
  rw [← Except.ok.inj hrow, hname, ok_bind, if_pos ⟨hne, hex⟩] at h
  split at h
  · next hnull => exact ⟨[], ⟨row, hobj, hname, by rw [hnull]; rfl⟩, hne, hex⟩
  · next s hstr =>
      refine ⟨s, ⟨row, hobj, hname, ?_⟩, hne, hex⟩
      rw [hstr]
      cases s <;> rfl
  · contradiction

/-- A restored setting comes from an item of the archive. -/
theorem settingItem_of_settingOf (h : validateRestoreRecords P destKey cats payload = .ok ())
    (hcat : .settings ∈ cats) {sourceKey : Str} {item : Json} {name value : Str}
    (hitem : item ∈ itemsOf payload .settings)
    (hbuild : settingOf P destKey sourceKey item = .ok (some ⟨name, value⟩)) :
    ∃ token, SettingItem item name token := by
  have hsettings := (validateRestoreRecords_eq_ok_iff.mp h).2.1 hcat
  obtain ⟨items, hitems, hlist⟩ := bind_eq_ok hsettings
  rw [listCategory_eq_ok hitems] at hitem
  have hcheck := forM_eq_ok_iff.mp hlist item hitem
  unfold settingOf at hbuild
  obtain ⟨row, hrow, hbuild⟩ := bind_eq_ok hbuild
  obtain ⟨name', hname, hbuild⟩ := bind_eq_ok hbuild
  split at hbuild
  · simp at hbuild
  · next hkept =>
      obtain ⟨value', -, hbuild⟩ := bind_eq_ok hbuild
      have heq : name' = name := by
        have := Except.ok.inj hbuild
        simp only [Option.some.injEq, Setting.mk.injEq] at this
        exact this.1
      rw [← heq]
      have hobj : item = .obj row := by
        cases item with
        | obj fields => exact congrArg Json.obj (Except.ok.inj hrow)
        | _ => contradiction
      exact settingItem_of_validateSetting hcheck hobj hname (fun hn => hkept (.inl hn))
        fun hn => hkept (.inr hn)

/-- The row restored for a setting. -/
theorem settingOf_eq_ok_iff {sourceKey : Str} {item : Json} {name token value : Str}
    (hitem : SettingItem item name token) :
    settingOf P destKey sourceKey item = .ok (some ⟨name, value⟩) ↔
      restoredToken P destKey sourceKey (lit "Setting '" ++ name ++ lit "'") (.str token) =
        .ok value := by
  obtain ⟨row, hobj, hname, hvalue⟩ := hitem.obj
  have hkept : ¬(name = [] ∨ name ∈ excludedSettingNames) :=
    not_or.mpr ⟨hitem.name_ne_nil, hitem.not_excluded⟩
  rw [settingOf, hobj]
  show (stripped (row.get (lit "name")) >>= _) = _ ↔ _
  rw [hname, ok_bind, if_neg hkept, hvalue, bind_eq_ok_iff]
  simp

/-- A setting that is not skipped has been built into a row. -/
theorem exists_restoredToken_of_settingOf {sourceKey : Str} {item : Json} {name token : Str}
    {v : Option Setting} (hitem : SettingItem item name token)
    (h : settingOf P destKey sourceKey item = .ok v) :
    ∃ value, restoredToken P destKey sourceKey (lit "Setting '" ++ name ++ lit "'") (.str token) =
      .ok value := by
  obtain ⟨row, hobj, hname, hvalue⟩ := hitem.obj
  have hkept : ¬(name = [] ∨ name ∈ excludedSettingNames) :=
    not_or.mpr ⟨hitem.name_ne_nil, hitem.not_excluded⟩
  rw [settingOf, hobj] at h
  change (stripped (row.get (lit "name")) >>= _) = _ at h
  rw [hname, ok_bind, if_neg hkept, hvalue, bind_eq_ok_iff] at h
  obtain ⟨value, hv, -⟩ := h
  exact ⟨value, hv⟩

/-! ## zones -/

/-- A zone of an archive. -/
structure ZoneItem (item : Json) (zoneName token : Str) : Prop where
  obj : ∃ row : Dict, item = .obj row ∧ row.get (lit "zone_name") = .str zoneName ∧
    row.get (lit "encrypted_config") = .str token
  name_ne_nil : strip zoneName ≠ []
  token_ne_nil : token ≠ []

/-- Validated zones have a name and a token. -/
theorem zoneItem_of_validateZoneList {seen : List Str} {items : List Json}
    (h : validateZoneList seen items = .ok ()) :
    ∀ item ∈ items, ∃ zoneName token, ZoneItem item zoneName token := by
  induction items generalizing seen with
  | nil => simp
  | cons item items ih =>
      rw [validateZoneList] at h
      obtain ⟨row, hrow, h⟩ := bind_eq_ok h
      obtain ⟨name, hname, h⟩ := bind_eq_ok h
      split at h
      · contradiction
      · next hne =>
          split at h
          · contradiction
          · split at h
            · next c token htoken =>
                obtain ⟨zoneName, hzone, hstrip⟩ := stripped_eq_ok hname hne
                rw [List.forall_mem_cons]
                refine ⟨⟨zoneName, c :: token, ?_⟩, ih h⟩
                exact { obj := ⟨row, requireMapping_eq_ok hrow, hzone, htoken⟩
                        name_ne_nil := by rw [hstrip]; exact hne
                        token_ne_nil := by simp }
            · contradiction

/-- The zones of a validated payload have a name and a token. -/
theorem zoneItem_of_mem (h : validateRestoreRecords P destKey cats payload = .ok ())
    (hcat : .zones ∈ cats) :
    ∀ item ∈ itemsOf payload .zones, ∃ zoneName token, ZoneItem item zoneName token := by
  have hzones := (validateRestoreRecords_eq_ok_iff.mp h).2.2.2.1 hcat
  obtain ⟨items, hitems, hlist⟩ := bind_eq_ok hzones
  rw [listCategory_eq_ok hitems]
  exact zoneItem_of_validateZoneList hlist

/-- The row restored for a zone. -/
theorem zoneOf_eq_ok {sourceKey : Str} {item : Json} {zoneName token : Str} {zone : DnsZoneConfig}
    (hitem : ZoneItem item zoneName token) (h : zoneOf P destKey sourceKey item = .ok zone) :
    zone.zoneName = zoneName ∧
      restoredToken P destKey sourceKey (lit "Zone '" ++ zoneName ++ lit "'") (.str token) =
        .ok zone.encryptedConfig := by
  obtain ⟨row, hobj, hname, htoken⟩ := hitem.obj
  rw [hobj, zoneOf] at h
  obtain ⟨row', hrow, h⟩ := bind_eq_ok h
  have hrow' : row = row' := Except.ok.inj hrow
  rw [← hrow', hname, htoken] at h
  dsimp only at h
  rw [Json.pyStr_str] at h
  obtain ⟨config, hconfig, h⟩ := bind_eq_ok h
  have hzone := Except.ok.inj h
  rw [← hzone]
  exact ⟨rfl, hconfig⟩

/-- The restored zones are those of the archive. -/
theorem zoneName_iff_of_zonesAfter (h : validateRestoreRecords P destKey cats payload = .ok ())
    (hcat : .zones ∈ cats) {sourceKey : Str} {db : Db} {zones : Table DnsZoneConfig}
    (hzones : zonesAfter P destKey sourceKey cats payload db = .ok zones) (name : Str) :
    (∃ zone ∈ zones.rows, zone.val.zoneName = name) ↔
      ∃ item ∈ itemsOf payload .zones, ∃ token, ZoneItem item name token := by
  have hitems := zoneItem_of_mem h hcat
  rw [zonesAfter, if_pos hcat, restoreZones, restoreRows_eq_ok_iff] at hzones
  obtain ⟨vs, hvs, hins⟩ := hzones
  have hvals := Table.vals_insertAll hins
  constructor
  · intro hzone
    obtain ⟨zone, hmem, hname⟩ := hzone
    have hv : zone.val ∈ vs := hvals ▸ List.mem_map_of_mem hmem
    obtain ⟨item, hitem, hbuild⟩ := mem_of_mapM_eq_ok hvs hv
    obtain ⟨zoneName, token, hz⟩ := hitems item hitem
    have heq := (zoneOf_eq_ok hz hbuild).1
    exact ⟨item, hitem, token, by rw [← hname, heq]; exact hz⟩
  · intro hzone
    obtain ⟨item, hitem, token, hz⟩ := hzone
    obtain ⟨v, hv, hbuild⟩ := exists_of_mapM_eq_ok hvs hitem
    have hv' : v ∈ zones.rows.map Row.val := hvals.symm ▸ hv
    obtain ⟨zone, hmem, hval⟩ := List.mem_map.mp hv'
    exact ⟨zone, hmem, by rw [hval]; exact (zoneOf_eq_ok hz hbuild).1⟩

/-! ## users -/

/-- An enabled global admin of an archive. -/
structure AdminItem (item : Json) (roles : List Str) : Prop where
  obj : ∃ row : Dict, item = .obj row ∧ (row.get (lit "disabled")).truthy = false ∧
    parseRolesOr (row.get (lit "roles")) = .ok roles
  admin : roleGlobalAdmin ∈ effectiveRoles roles

/-- A validated account that counts as an admin is one. -/
theorem adminItem_of_validateUser {seen : List Str} {item : Json} {name : Str}
    (h : validateUser P seen item = .ok (name, true)) : ∃ roles, AdminItem item roles := by
  unfold validateUser at h
  obtain ⟨row, hrow, h⟩ := bind_eq_ok h
  obtain ⟨username, -, h⟩ := bind_eq_ok h
  split at h
  · contradiction
  · split at h
    · split at h
      · contradiction
      · obtain ⟨-, -, h⟩ := bind_eq_ok h
        split at h
        · contradiction
        · obtain ⟨-, -, h⟩ := bind_eq_ok h
          split at h
          · simp at h
          · next hdisabled =>
              obtain ⟨roles, hroles, h⟩ := bind_eq_ok h
              have hadmin := (Prod.mk.inj (Except.ok.inj h)).2
              exact ⟨roles, ⟨row, requireMapping_eq_ok hrow, by simpa using hdisabled, hroles⟩,
                of_decide_eq_true hadmin⟩
    · contradiction

/-- Validated accounts have an admin. -/
theorem adminItem_of_validateUserList {seen : List Str} {items : List Json}
    (h : validateUserList P seen items = .ok true) :
    ∃ item ∈ items, ∃ roles, AdminItem item roles := by
  induction items generalizing seen with
  | nil => simp [validateUserList] at h
  | cons item items ih =>
      rw [validateUserList] at h
      obtain ⟨checked, hchecked, h⟩ := bind_eq_ok h
      obtain ⟨rest, hrest, h⟩ := bind_eq_ok h
      have hor : (checked.2 || rest) = true := Except.ok.inj h
      rw [Bool.or_eq_true] at hor
      cases hor with
      | inl hadmin =>
          obtain ⟨roles, hroles⟩ := adminItem_of_validateUser
            (by rw [hchecked, ← hadmin])
          exact ⟨item, by simp, roles, hroles⟩
      | inr hadmin =>
          rw [hadmin] at hrest
          obtain ⟨item', hitem, hroles⟩ := ih hrest
          exact ⟨item', by simp [hitem], hroles⟩

/-- Archives whose users are restored have an enabled global admin. -/
theorem adminItem_of_checked (h : validateRestoreRecords P destKey cats payload = .ok ())
    (hcat : .users ∈ cats) : ∃ item ∈ itemsOf payload .users, ∃ roles, AdminItem item roles := by
  have husers := (validateRestoreRecords_eq_ok_iff.mp h).2.2.1 hcat
  unfold validateUsers at husers
  obtain ⟨items, hitems, husers⟩ := bind_eq_ok husers
  rw [listCategory_eq_ok hitems]
  split at husers
  · contradiction
  · obtain ⟨admin, hadmin, husers⟩ := bind_eq_ok husers
    split at husers
    · next htrue =>
        rw [htrue] at hadmin
        exact adminItem_of_validateUserList hadmin
    · contradiction

/-- The account restored for an enabled global admin is one. -/
theorem userOf_adminItem {m : Moment} {item : Json} {roles : List Str} {i : Nat} {user : User}
    (hitem : AdminItem item roles) (h : userOf P m (item, i) = .ok user) :
    user.disabled = false ∧ targetIsGlobalAdmin user = true := by
  obtain ⟨row, hobj, hdisabled, hroles⟩ := hitem.obj
  unfold userOf at h
  rw [hobj] at h
  obtain ⟨row', hrow, h⟩ := bind_eq_ok h
  rw [← Except.ok.inj hrow] at h
  obtain ⟨hash, -, h⟩ := bind_eq_ok h
  obtain ⟨roles', hroles', h⟩ := bind_eq_ok h
  rw [hroles] at hroles'
  have hadmin : roleGlobalAdmin ∈ roles := globalAdmin_mem_effectiveRoles.mp hitem.admin
  have hstored : roleGlobalAdmin ∈ parseRoles (serializeRoles roles) :=
    mem_parse_serialize.mpr (.inl ⟨by decide, .inl hadmin⟩)
  rw [← Except.ok.inj h, ← Except.ok.inj hroles']
  exact ⟨hdisabled, targetIsGlobalAdmin_iff.mpr hstored⟩

end ApiToDns.Backup
