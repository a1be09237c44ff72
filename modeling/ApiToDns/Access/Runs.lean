import ApiToDns.Access.Requests
import ApiToDns.Lib.Runs
import ApiToDns.Zones.Kept
import ApiToDns.Zones.Steps

/-!
# Access.Runs

Grants over whole runs.  A grant links the rowids of a key and of a zone, and a
rowid is given again when its row is gone; so each operation that removes a row
must remove the links to it.

* `Step` — keys are created, edited and revoked, zones and plugins changed, and
  archives restored;
* `Gives`, `Keeps` — the steps that give a grant, and those that leave the zone of
  a grant where it is;
* `calls_authorized` — the calls of a request in any state of a run.
-/

namespace ApiToDns.Access

open Py Backup KeyMigration Zones

/-! ## steps -/

/-- A key is made inactive. -/
def deactivate (keys : Table ApiKey) (id : Nat) : Table ApiKey :=
  keys.update (fun row => if row.id = id then { row.val with active := false } else row.val)
    fun row => by split <;> rfl

/-- The keys after one of them is deactivated. -/
theorem mem_deactivate {keys : Table ApiKey} {id : Nat} {row : Row ApiKey} :
    row ∈ (deactivate keys id).rows ↔
      ∃ old ∈ keys.rows,
        ⟨old.id, if old.id = id then { old.val with active := false } else old.val⟩ = row :=
  Table.mem_update

/-- `revoke_api_key`. -/
def revokeApiKey (db : Db) (keyId : Int) : Db :=
  if fitsColumn keyId then { db with apiKeys := deactivate db.apiKeys keyId.toNat } else db

/-- A request to the installation, other than a migration. -/
inductive Step where
  | key (request : ApiKeys.ApiKeyRequest)
  | revoke (keyId : Int)
  | zones (request : ZoneRequest) (notMigration : request ≠ .migrate)
  /-- a request of `/dns-record`; it changes no table but the activity log -/
  | mutate (headers : KeyHeaders) (request : RecordRequest)
  | lookup (headers : KeyHeaders) (query : Lookup)

section Machine

variable (P : Platform) (dumps : Json → Str)

/-- The installation after a step. -/
def Step.after (host : Host) : Step → Host
  | .key request => { host with db := (request.serve P host.processKey host.db).2 }
  | .revoke keyId => { host with db := revokeApiKey host.db keyId }
  | .zones request _ => request.after P dumps host
  | .mutate _ _ | .lookup _ _ => host

/-- The installation after some steps. -/
def afterAll (host : Host) (steps : List Step) : Host := steps.foldl (Step.after P dumps) host

/-- The names are those of some zones, and the row of one of these is the rowid. -/
def NamesZone (zones : Table DnsZoneConfig) (znames : List Json) (zoneId : Nat) : Prop :=
  ∃ name, .str name ∈ znames ∧ ∃ zone ∈ zones.rows, zone.id = zoneId ∧ zone.val.zoneName = name

/-- An archived key, restored to a row, that names the zone of a row. -/
def Names (zones : Table DnsZoneConfig) (keys : Table ApiKey) (item : Json) (keyId zoneId : Nat) :
    Prop :=
  ∃ row, item = .obj row ∧
    NamesZone zones ((listOr (Dict.get row (lit "allowed_zones"))).getD []) zoneId ∧
    ∃ key ∈ keys.rows, key.id = keyId ∧
      bindTextNotNull P (Dict.get row (lit "key")) = .ok key.val.key

/-- The step gives the key the zone: it is a form of the key with the zone, or the
restore of a key that names the zone. -/
def Gives (keyId zoneId : Nat) (host : Host) (step : Step) : Prop :=
  ApiKeys.Allowed (step.after P dumps host).db keyId zoneId ∧
    match step with
    | .key request =>
        request.keyId host.db = keyId ∧ ApiKeys.Submitted host.db request.form.zoneIds zoneId
    | .zones (.restore m payload categories) _ =>
        Commits P m payload categories host ∧ .apiKeys ∈ normalizeCategories categories ∧
          ∃ item ∈ itemsOf payload .apiKeys,
            Names P (step.after P dumps host).db.zones (step.after P dumps host).db.apiKeys item
              keyId zoneId
    | _ => False

/-- The grant is there before and after the step, the configuration under one name,
and neither configurations nor keys were restored in between. -/
def Keeps (keyId zoneId : Nat) (host : Host) (step : Step) : Prop :=
  ApiKeys.Allowed host.db keyId zoneId ∧
    ApiKeys.Allowed (step.after P dumps host).db keyId zoneId ∧
    (∃ zone ∈ host.db.zones.rows, ∃ zone' ∈ (step.after P dumps host).db.zones.rows,
      zone.id = zoneId ∧ zone'.id = zoneId ∧ zone'.val.zoneName = zone.val.zoneName) ∧
    match step with
    | .zones (.restore m payload categories) _ =>
        Commits P m payload categories host →
          .zones ∉ normalizeCategories categories ∧ .apiKeys ∉ normalizeCategories categories
    | _ => True

end Machine

variable {P : Platform} {dumps : Json → Str}

/-- A grant links a key and a zone that are there. -/
def Linked (db : Db) : Prop :=
  ∀ keyId zoneId, ApiKeys.Allowed db keyId zoneId →
    (∃ key ∈ db.apiKeys.rows, key.id = keyId) ∧ ∃ zone ∈ db.zones.rows, zone.id = zoneId

/-! ## keys -/

section Keys

variable {processKey : Str} {db : Db} {request : ApiKeys.ApiKeyRequest}

variable (P processKey) in
/-- What adding links leaves: the old ones, and those that were asked for. -/
theorem allowed_linkZones (db : Db) {keyId : Nat} {zoneIds : List Int} {k z : Nat}
    (h : ApiKeys.Allowed (ApiKeys.linkZones P processKey db keyId zoneIds).2 k z) :
    ApiKeys.Allowed db k z ∨ k = keyId ∧ ApiKeys.Submitted db zoneIds z := by
  unfold ApiKeys.linkZones at h
  split at h
  · exact .inl h
  · next db' hadd => exact (ApiKeys.allowed_addLinks hadd).mp h

variable (P processKey db) in
/-- Linking zones leaves the keys and the zones alone. -/
theorem linkZones_frame (keyId : Nat) (zoneIds : List Int) :
    (ApiKeys.linkZones P processKey db keyId zoneIds).2.apiKeys = db.apiKeys ∧
      (ApiKeys.linkZones P processKey db keyId zoneIds).2.zones = db.zones := by
  unfold ApiKeys.linkZones
  split
  · exact ⟨rfl, rfl⟩
  · next db' hadd =>
      obtain ⟨hkeys, hzones, -⟩ := ApiKeys.addLinks_frame hadd
      exact ⟨hkeys, hzones⟩

/-- A later row of a key, which is active only if the key was. -/
structure Later (key key' : Row ApiKey) : Prop where
  id : key'.id = key.id
  digest : key'.val.key = key.val.key
  active : key'.val.active = true → key.val.active = true

/-- A row is a later row of itself. -/
theorem Later.refl (key : Row ApiKey) : Later key key := ⟨rfl, rfl, fun h => h⟩

/-- What a request on a key does to the rows. -/
structure KeyEffect (db db' : Db) (keyId : Nat) (zoneIds : List Int) : Prop where
  zones : db'.zones = db.zones
  links : ∀ k z, ApiKeys.Allowed db' k z →
    ApiKeys.Allowed db k z ∨ k = keyId ∧ ApiKeys.Submitted db zoneIds z
  kept : ∀ key ∈ db.apiKeys.rows, ∃ key' ∈ db'.apiKeys.rows, Later key key'
  linked : ∀ z, ApiKeys.Allowed db' keyId z → ApiKeys.Allowed db keyId z ∨
    ∃ key ∈ db'.apiKeys.rows, key.id = keyId

/-- Changing nothing is such an effect. -/
theorem KeyEffect.refl (keyId : Nat) (zoneIds : List Int) : KeyEffect db db keyId zoneIds where
  zones := rfl
  links _ _ h := .inl h
  kept key hkey := ⟨key, hkey, .refl key⟩
  linked _ h := .inl h

/-- What an edit does to the keys. -/
theorem keyEffect_edit (keyId : Int) (form : ApiKeys.ApiKeyForm) :
    KeyEffect db (ApiKeys.editApiKey P processKey db keyId form).2 keyId.toNat form.zoneIds := by
  rcases ApiKeys.editApiKey_cases P processKey db keyId form with hnone | hfound
  · rw [hnone.2.2]
    exact .refl _ _
  · obtain ⟨hfits, row, hget⟩ := hfound
    rw [ApiKeys.editApiKey_of_get hfits hget]
    split
    · exact .refl _ _
    · split
      · exact .refl _ _
      · obtain ⟨hrow, hid⟩ := Table.get?_eq_some_iff.mp hget
        rw [← hid]
        set edited := ApiKeys.edited db row form.label
          (ApiKeys.selectedAccessMode P.ucd form.accessMode row.val.accessMode) with hedited
        obtain ⟨hkeys, hzones⟩ := linkZones_frame P processKey edited row.id form.zoneIds
        have hkept : ∀ key ∈ db.apiKeys.rows, ∃ key' ∈ edited.apiKeys.rows, Later key key' := by
          refine fun key hkey => ⟨_, ApiKeys.mem_changeApiKey.mpr ⟨key, hkey, rfl⟩, rfl, ?_, ?_⟩
          · dsimp only
            split <;> rfl
          · dsimp only
            split <;> exact fun h => h
        refine ⟨hzones, fun k z hafter => ?_, ?_, fun z _ => .inr ?_⟩
        · rcases allowed_linkZones P processKey edited hafter with hold | hnew
          · exact .inl (ApiKeys.allowed_edited.mp hold).1
          · exact .inr hnew
        · rw [hkeys]
          exact hkept
        · obtain ⟨key', hkey', hlater⟩ := hkept row hrow
          rw [hkeys]
          exact ⟨key', hkey', hlater.id⟩

variable (P processKey db) in
/-- What a request of the key form does to the keys. -/
theorem keyEffect_serve (request : ApiKeys.ApiKeyRequest) :
    KeyEffect db (request.serve P processKey db).2 (request.keyId db) request.form.zoneIds := by
  cases request with
  | update keyId form => exact keyEffect_edit keyId form
  | inlineEdit new keyId form => exact keyEffect_edit keyId form
  | create new form =>
      dsimp only [ApiKeys.ApiKeyRequest.serve, ApiKeys.ApiKeyRequest.keyId,
        ApiKeys.ApiKeyRequest.form]
      unfold ApiKeys.createApiKeyRoute
      dsimp only
      split
      · exact .refl _ _
      · split
        · exact .refl _ _
        · split
          · exact .refl _ _
          · next apiKeys hins =>
              obtain ⟨hkeys, hzones⟩ := linkZones_frame P processKey { db with apiKeys }
                db.apiKeys.nextId form.zoneIds
              obtain ⟨-, hrows⟩ := Table.insert_eq_some_iff.mp hins
              refine ⟨hzones, fun k z hafter => ?_, fun key hkey => ?_,
                fun z _ => .inr ?_⟩
              · exact allowed_linkZones P processKey { db with apiKeys } hafter
              · rw [hkeys]
                exact ⟨key, by simp [hrows, hkey], .refl key⟩
              · rw [hkeys]
                exact ⟨_, by rw [hrows]; exact List.mem_append_right _ (List.mem_singleton.mpr rfl),
                  rfl⟩

end Keys

/-! ## restored keys -/

section Restored

variable {zones : Table DnsZoneConfig} {m : Moment}

/-- A zone that is named is named by a longer list. -/
theorem NamesZone.concat {znames : List Json} {zoneId : Nat} (h : NamesZone zones znames zoneId)
    (zname : Json) : NamesZone zones (znames ++ [zname]) zoneId := by
  obtain ⟨name, hname, hzone⟩ := h
  exact ⟨name, List.mem_append_left _ hname, hzone⟩

/-- A link of a key that is being restored was there, or its zone is named. -/
theorem link_restoreAllowedZone {keyId : Nat} {t t' : Table ApiKeyAllowedZone} {znames : List Json}
    (h : znames.foldlM (restoreAllowedZone zones keyId) t = .ok t') :
    ∀ link ∈ t'.rows, link ∈ t.rows ∨
      link.val.apiKeyId = keyId ∧ NamesZone zones znames link.val.dnsZoneConfigId := by
  refine foldlM_invariant (fun seen t' => ∀ link ∈ t'.rows, link ∈ t.rows ∨
    link.val.apiKeyId = keyId ∧ NamesZone zones seen link.val.dnsZoneConfigId)
    (fun seen t₁ zname t₂ hseen hstep link hlink => ?_) (fun link hlink => .inl hlink) h
  have hold (hmem : link ∈ t₁.rows) : link ∈ t.rows ∨ link.val.apiKeyId = keyId ∧
      NamesZone zones (seen ++ [zname]) link.val.dnsZoneConfigId :=
    (hseen link hmem).imp_right fun hnew => ⟨hnew.1, hnew.2.concat zname⟩
  unfold restoreAllowedZone at hstep
  split at hstep
  · next name =>
      split at hstep
      · next zone hzone =>
          obtain ⟨-, hrows⟩ := Table.insert_eq_some_iff.mp (addRow_eq_ok_iff.mp hstep)
          rw [hrows, List.mem_append, List.mem_singleton] at hlink
          rcases hlink with hmem | hnew
          · exact hold hmem
          · obtain ⟨hmem, hname⟩ := Table.byKey_eq_some_iff.mp hzone
            rw [hnew]
            exact .inr ⟨rfl, name, by simp, zone, hmem, rfl, Option.some.inj hname⟩
      · rw [← Except.ok.inj hstep] at hlink
        exact hold hlink
  · split at hstep
    · rw [← Except.ok.inj hstep] at hlink
      exact hold hlink
    · contradiction

/-- A restored key has the digest of its item. -/
theorem key_apiKeyOf {item : Json} {key : ApiKey} (h : apiKeyOf P m item = .ok key) :
    ∃ row, item = .obj row ∧ bindTextNotNull P (Dict.get row (lit "key")) = .ok key.key := by
  obtain ⟨row, hrow, h⟩ := bind_eq_ok h
  obtain ⟨label, -, h⟩ := bind_eq_ok h
  obtain ⟨digest, hdigest, h⟩ := bind_eq_ok h
  obtain ⟨shown, -, h⟩ := bind_eq_ok h
  obtain ⟨mode, -, h⟩ := bind_eq_ok h
  obtain ⟨created, -, h⟩ := bind_eq_ok h
  rw [← Except.ok.inj h]
  cases item with
  | obj fields =>
      rw [← Except.ok.inj hrow] at hdigest
      exact ⟨fields, rfl, hdigest⟩
  | _ => contradiction

/-- Every link of the restored keys is named by the archived key of its row. -/
theorem names_restoreApiKeys {items : List Json} {keys : Table ApiKey}
    {links : Table ApiKeyAllowedZone} (h : restoreApiKeys P m zones items = .ok (keys, links)) :
    ∀ link ∈ links.rows, ∃ item ∈ items,
      Names P zones keys item link.val.apiKeyId link.val.dnsZoneConfigId := by
  refine foldlM_invariant (fun seen t => ∀ link ∈ t.2.rows, ∃ item ∈ seen,
    Names P zones t.1 item link.val.apiKeyId link.val.dnsZoneConfigId)
    (fun seen t item t' hseen hstep link hlink => ?_) (fun link hlink => ?_) h
  · obtain ⟨key, hkey, hstep⟩ := bind_eq_ok hstep
    obtain ⟨keys', hadd, hstep⟩ := bind_eq_ok hstep
    obtain ⟨row, hrow, hstep⟩ := bind_eq_ok hstep
    obtain ⟨links', hlinks, hstep⟩ := bind_eq_ok hstep
    rw [← Except.ok.inj hstep] at hlink ⊢
    obtain ⟨-, hrows⟩ := Table.insert_eq_some_iff.mp (addRow_eq_ok_iff.mp hadd)
    rcases link_restoreAllowedZone hlinks link hlink with hold | hnew
    · obtain ⟨item', hitem', fields, hobj, hnames, key', hkey', hfound⟩ := hseen link hold
      exact ⟨item', List.mem_append_left _ hitem', fields, hobj, hnames, key',
        by rw [hrows]; exact List.mem_append_left _ hkey', hfound⟩
    · obtain ⟨fields, hobj, hdigest⟩ := key_apiKeyOf hkey
      rw [hobj] at hrow
      rw [← Except.ok.inj hrow] at hnew
      refine ⟨item, by simp, fields, hobj, hnew.2, ⟨t.1.nextId, key⟩, ?_, hnew.1.symm, hdigest⟩
      rw [hrows]
      simp
  · simp [Table.empty] at hlink

end Restored

/-! ## one step -/

section Steps

variable {host : Host}

/-- What leaves the keys, and the configuration of each grant it leaves. -/
structure Passes (db db' : Db) : Prop where
  keys : ∀ key ∈ db.apiKeys.rows, ∃ key' ∈ db'.apiKeys.rows, Later key key'
  links : ∀ k z, ApiKeys.Allowed db' k z → ApiKeys.Allowed db k z
  zones : ∀ k z, ApiKeys.Allowed db' k z → ∀ zone ∈ db.zones.rows, zone.id = z →
    ∃ zone' ∈ db'.zones.rows, zone'.id = z ∧ zone'.val.zoneName = zone.val.zoneName

/-- The rows of the keys, the links and the zones stay. -/
theorem Passes.of_eq {db db' : Db} (hkeys : db'.apiKeys = db.apiKeys)
    (hlinks : db'.allowedZones = db.allowedZones)
    (hzones : ∀ zone ∈ db.zones.rows, ∃ zone' ∈ db'.zones.rows,
      zone'.id = zone.id ∧ zone'.val.zoneName = zone.val.zoneName) : Passes db db' where
  keys key hkey := ⟨key, by rwa [hkeys], .refl key⟩
  links k z h := by
    unfold ApiKeys.Allowed at h ⊢
    rwa [hlinks] at h
  zones k z _ zone hzone hid := by
    obtain ⟨zone', hzone', hid', hname⟩ := hzones zone hzone
    exact ⟨zone', hzone', hid'.trans hid, hname⟩

/-- What changes nothing leaves them all. -/
theorem Passes.refl (db : Db) : Passes db db :=
  .of_eq rfl rfl fun zone hzone => ⟨zone, hzone, rfl, rfl⟩

/-- So does a revocation. -/
theorem passes_revoke (db : Db) (keyId : Int) : Passes db (revokeApiKey db keyId) := by
  unfold revokeApiKey
  split
  · refine ⟨fun key hkey => ?_, fun k z h => h, fun k z _ zone hzone hid => ?_⟩
    · refine ⟨_, mem_deactivate.mpr ⟨key, hkey, rfl⟩, rfl, ?_, ?_⟩
      · dsimp only
        split <;> rfl
      · dsimp only
        split
        · exact fun h => absurd h Bool.false_ne_true
        · exact fun h => h
    · exact ⟨zone, hzone, hid, rfl⟩
  · exact .refl db

/-- A request on the zones other than a restore gives no grant, and removes the
grants of a zone with the zone. -/
theorem passes_zones {request : ZoneRequest} (hmigrate : request ≠ .migrate)
    (hrestore : ∀ m payload categories, request ≠ .restore m payload categories) :
    Passes host.db (request.after P dumps host).db := by
  cases request with
  | create form =>
      dsimp only [ZoneRequest.after]
      rcases zoneCreate_cases dumps host.db form with hcreated | hsame
      · obtain ⟨plugin, zones, -, hins, hafter⟩ := hcreated
        obtain ⟨-, hrows⟩ := Table.insert_eq_some_iff.mp hins
        rw [hafter]
        refine .of_eq rfl rfl fun zone hzone => ⟨zone, ?_, rfl, rfl⟩
        rw [hrows]
        exact List.mem_append_left _ hzone
      · rw [hsame]
        exact .refl _
  | update zoneId form =>
      dsimp only [ZoneRequest.after]
      rcases zoneUpdate_cases dumps host.db zoneId form with hupdated | hsame
      · obtain ⟨row, ex, plugin, -, hafter⟩ := hupdated
        rw [hafter]
        refine .of_eq rfl rfl fun zone hzone => ⟨_, mem_changeZone.mpr ⟨zone, hzone, rfl⟩, rfl, ?_⟩
        dsimp only
        split <;> rfl
      · rw [hsame]
        exact .refl _
  | delete zoneId detached =>
      dsimp only [ZoneRequest.after]
      rcases zoneDelete_cases P host.processKey host.db zoneId detached with hdeleted | hsame
      · obtain ⟨row, d, -, -, hafter⟩ := hdeleted
        rw [hafter]
        have hlink (k z : Nat) :
            ApiKeys.Allowed { host.db with
              settings := (d.apply P host.processKey host.db).settings
              zones := host.db.zones.delete fun zone => zone.id = row.id
              allowedZones := host.db.allowedZones.delete
                fun link => link.val.dnsZoneConfigId = row.id } k z ↔
              ApiKeys.Allowed host.db k z ∧ z ≠ row.id := by
          simp only [ApiKeys.Allowed, Table.mem_delete, decide_eq_false_iff_not]
          grind
        refine ⟨fun key hkey => ⟨key, hkey, .refl key⟩, fun k z h => ((hlink k z).mp h).1,
          fun k z h zone hzone hid => ⟨zone, ?_, hid, rfl⟩⟩
        have hne := ((hlink k z).mp h).2
        rw [Table.mem_delete, decide_eq_false_iff_not, hid]
        exact ⟨hzone, hne⟩
      · rw [hsame]
        exact .refl _
  | disable pluginKey =>
      dsimp only [ZoneRequest.after]
      rcases settingsPluginDisable_cases dumps host.db pluginKey with hdisabled | hsame
      · obtain ⟨disabled, -, -, -, -, hafter⟩ := hdisabled
        rw [hafter, setDisabledDnsPlugins_eq]
        exact .of_eq rfl rfl fun zone hzone => ⟨zone, hzone, rfl, rfl⟩
      · rw [hsame]
        exact .refl _
  | enable pluginKey =>
      dsimp only [ZoneRequest.after]
      rcases settingsPluginEnable_cases dumps host.db pluginKey with henabled | hsame
      · obtain ⟨disabled, -, hafter⟩ := henabled
        rw [hafter, setDisabledDnsPlugins_eq]
        exact .of_eq rfl rfl fun zone hzone => ⟨zone, hzone, rfl, rfl⟩
      · rw [hsame]
        exact .refl _
  | migrate => exact absurd rfl hmigrate
  | restore m payload categories => exact absurd rfl (hrestore m payload categories)

/-- What leaves the keys and the zones of the grants leaves the grants linked. -/
theorem Linked.of_passes {db db' : Db} (h : Linked db) (hpasses : Passes db db') : Linked db' := by
  intro k z hallowed
  obtain ⟨hkey, hzone⟩ := h k z (hpasses.links k z hallowed)
  obtain ⟨key, hkey, hkeyId⟩ := hkey
  obtain ⟨zone, hzone, hzoneId⟩ := hzone
  obtain ⟨key', hkey', hlater⟩ := hpasses.keys key hkey
  obtain ⟨zone', hzone', hid', -⟩ := hpasses.zones k z hallowed zone hzone hzoneId
  exact ⟨⟨key', hkey', hlater.id.trans hkeyId⟩, zone', hzone', hid'⟩

/-- Each grant after a step was given by it, or kept by it. -/
structure Accounts (P : Platform) (dumps : Json → Str) (host : Host) (step : Step) : Prop where
  linked : Linked (step.after P dumps host).db
  grants : ∀ k z, ApiKeys.Allowed (step.after P dumps host).db k z →
    Gives P dumps k z host step ∨ ApiKeys.Allowed host.db k z ∧ Keeps P dumps k z host step

/-- A step that passes the tables on, and restores none of them. -/
theorem accounts_of_passes {step : Step} (h : Linked host.db)
    (hpasses : Passes host.db (step.after P dumps host).db)
    (hrestore : ∀ m payload categories hne,
      step = .zones (.restore m payload categories) hne → Commits P m payload categories host →
        .zones ∉ normalizeCategories categories ∧ .apiKeys ∉ normalizeCategories categories) :
    Accounts P dumps host step where
  linked := h.of_passes hpasses
  grants k z hallowed := by
    have hbefore := hpasses.links k z hallowed
    obtain ⟨-, zone, hzone, hid⟩ := h k z hbefore
    obtain ⟨zone', hzone', hid', hname⟩ := hpasses.zones k z hallowed zone hzone hid
    refine .inr ⟨hbefore, hbefore, hallowed, ⟨zone, hzone, zone', hzone', hid, hid', hname⟩, ?_⟩
    split
    · next m payload categories hne => exact hrestore m payload categories hne rfl
    · trivial

/-- The tables of keys, zones and grants after a restore. -/
theorem apiKeysAfter_of_restored {m : Moment} {cats : List Category} {payload : Dict}
    {host' : Host} {db : Db} (h : Restored P m cats payload host host' db) :
    zonesAfter P host.processKey (archiveKey P cats payload) cats payload host.db =
        .ok host'.db.zones ∧
      apiKeysAfter P m cats payload host.db host'.db.zones =
        .ok (host'.db.apiKeys, host'.db.allowedZones) := by
  obtain ⟨-, -, hzones, hkeys, -⟩ := (restoreDatabase_eq_ok_iff P m _ _ _ _ _).mp h.database
  rw [h.files.tables]
  exact ⟨hzones, hkeys⟩

/-- A restore of keys gives all grants anew, and a restore of zones alone removes
them. -/
theorem accounts_restore (h : Linked host.db) (m : Moment) (payload : Dict)
    (categories : List Str) (hne : ZoneRequest.restore m payload categories ≠ .migrate) :
    Accounts P dumps host (.zones (.restore m payload categories) hne) := by
  set host' := (Step.zones (.restore m payload categories) hne).after P dumps host with hhost'
  have hafter : host' = (restorePayload P m payload categories host).2 := rfl
  by_cases hcommits : Commits P m payload categories host
  · obtain ⟨db, hrestored⟩ := restored_of_commits hcommits
    rw [← hafter] at hrestored
    obtain ⟨hzones, hkeys⟩ := apiKeysAfter_of_restored hrestored
    by_cases hcat : .apiKeys ∈ normalizeCategories categories
    · rw [apiKeysAfter, if_pos hcat] at hkeys
      have hnames := names_restoreApiKeys hkeys
      have hlink (k z : Nat) (hallowed : ApiKeys.Allowed host'.db k z) :
          ∃ item ∈ itemsOf payload .apiKeys, Names P host'.db.zones host'.db.apiKeys item k z := by
        obtain ⟨link, hlink, hval⟩ := hallowed
        have hnamed := hnames link hlink
        rwa [hval] at hnamed
      refine ⟨fun k z hallowed => ?_, fun k z hallowed => ?_⟩
      · obtain ⟨item, -, row, -, ⟨name, -, zone, hzone, hid, -⟩, key, hkey, hkeyId, -⟩ :=
          hlink k z hallowed
        exact ⟨⟨key, hkey, hkeyId⟩, zone, hzone, hid⟩
      · exact .inl ⟨hallowed, hcommits, hcat, hlink k z hallowed⟩
    · rw [apiKeysAfter, if_neg hcat] at hkeys
      obtain ⟨hkeys, hlinks⟩ := Prod.mk.inj (Except.ok.inj hkeys)
      by_cases hzone : .zones ∈ normalizeCategories categories
      · rw [if_pos hzone] at hlinks
        have hnone (k z : Nat) : ¬ApiKeys.Allowed host'.db k z := by
          unfold ApiKeys.Allowed
          rw [← hlinks]
          simp [Table.empty]
        exact ⟨fun k z hallowed => absurd hallowed (hnone k z),
          fun k z hallowed => absurd hallowed (hnone k z)⟩
      · rw [if_neg hzone] at hlinks
        rw [zonesAfter, if_neg hzone] at hzones
        have hpasses : Passes host.db host'.db := .of_eq hkeys.symm hlinks.symm fun zone hmem =>
          ⟨zone, by rwa [← Except.ok.inj hzones], rfl, rfl⟩
        refine accounts_of_passes h hpasses fun m' payload' categories' _ heq _ => ?_
        obtain ⟨-, -, hcategories⟩ := ZoneRequest.restore.inj (Step.zones.inj heq)
        rw [← hcategories]
        exact ⟨hzone, hcat⟩
  · have hpasses : Passes host.db host'.db := by
      rw [hafter, unchanged_of_not_commits hcommits]
      exact .refl _
    refine accounts_of_passes h hpasses fun m' payload' categories' _ heq hcommits' => ?_
    obtain ⟨hm, hpayload, hcategories⟩ := ZoneRequest.restore.inj (Step.zones.inj heq)
    rw [← hm, ← hpayload, ← hcategories] at hcommits'
    exact absurd hcommits' hcommits

/-- A request on a key gives the zones of its form, and keeps the other grants. -/
theorem accounts_key (h : Linked host.db) (request : ApiKeys.ApiKeyRequest) :
    Accounts P dumps host (.key request) := by
  have heffect := keyEffect_serve P host.processKey host.db request
  set db' := ((Step.key request).after P dumps host).db with hdb'
  have hafter : db' = (request.serve P host.processKey host.db).2 := rfl
  rw [← hafter] at heffect
  refine ⟨fun k z hallowed => ?_, fun k z hallowed => ?_⟩
  · rw [heffect.zones]
    rcases heffect.links k z hallowed with hbefore | hnew
    · obtain ⟨⟨key, hkey, hkeyId⟩, hzone⟩ := h k z hbefore
      obtain ⟨key', hkey', hlater⟩ := heffect.kept key hkey
      exact ⟨⟨key', hkey', hlater.id.trans hkeyId⟩, hzone⟩
    · obtain ⟨hk, hsubmitted⟩ := hnew
      obtain ⟨zone, hzone⟩ := Option.isSome_iff_exists.mp hsubmitted.1
      refine ⟨?_, zone, Table.get?_eq_some_iff.mp hzone⟩
      rw [hk] at hallowed ⊢
      rcases heffect.linked z hallowed with hbefore | hkey
      · obtain ⟨⟨key, hkey, hkeyId⟩, -⟩ := h _ z hbefore
        obtain ⟨key', hkey', hlater⟩ := heffect.kept key hkey
        exact ⟨key', hkey', hlater.id.trans hkeyId⟩
      · exact hkey
  · rcases heffect.links k z hallowed with hbefore | hnew
    · obtain ⟨-, zone, hzone, hid⟩ := h k z hbefore
      have hzone' : zone ∈ db'.zones.rows := by rwa [heffect.zones]
      exact .inr ⟨hbefore, hbefore, hallowed, ⟨zone, hzone, zone, hzone', hid, hid, rfl⟩, trivial⟩
    · exact .inl ⟨hallowed, hnew.1.symm, hnew.2⟩

/-- Every step accounts for the grants after it. -/
theorem accounts (h : Linked host.db) (step : Step) :
    Accounts P dumps host step := by
  have hpass {step : Step} (hpasses : Passes host.db (step.after P dumps host).db)
      (hrestore : ∀ m payload categories hne, step ≠ .zones (.restore m payload categories) hne) :
      Accounts P dumps host step :=
    accounts_of_passes h hpasses fun m payload categories hne heq =>
      absurd heq (hrestore m payload categories hne)
  cases step with
  | key request => exact accounts_key h request
  | revoke keyId => exact hpass (passes_revoke host.db keyId) (by simp)
  | mutate headers request => exact hpass (.refl _) (by simp)
  | lookup headers query => exact hpass (.refl _) (by simp)
  | zones request hmigrate =>
      cases request with
      | restore m payload categories => exact accounts_restore h m payload categories hmigrate
      | _ => exact hpass (passes_zones hmigrate (by simp)) (by simp)

/-- No key may use any zone yet. -/
def Ungranted (db : Db) : Prop := db.allowedZones.rows = []

/-- Without any grant no key may use a zone. -/
theorem Ungranted.not_allowed {db : Db} (h : Ungranted db) (k z : Nat) : ¬ApiKeys.Allowed db k z := by
  unfold Ungranted at h
  simp [ApiKeys.Allowed, h]

/-- A grant in any state of a run was given by a step of it and kept since. -/
theorem since_granted (h : Ungranted host.db) (steps : List Step) {k z : Nat}
    (hallowed : ApiKeys.Allowed (afterAll P dumps host steps).db k z) :
    Since (Step.after P dumps) (Gives P dumps k z) (Keeps P dumps k z) host steps := by
  have hlinked : Linked host.db := fun k z hbefore => absurd hbefore (h.not_allowed k z)
  refine since_of_holds (fun host => Linked host.db) (fun host => ApiKeys.Allowed host.db k z)
    (fun host step hlinked => ?_) (fun host step hlinked hafter => ?_) hlinked
    (h.not_allowed k z) steps hallowed
  · exact (accounts hlinked step).linked
  · exact (accounts hlinked step).grants k z hafter

end Steps

/-! ## the calls of a request -/

variable (P dumps)

/-- The calls that a request asks for are allowed: the key and the zone were
checked, each call is for the zone of the configuration, and the grant was given by
a step of the run and kept since. -/
structure Authorized (H : Hashing) (host : Host) (steps : List Step) (headers : KeyHeaders)
    {α : Type} (asked : Asked α) : Prop where
  checked : Checked P H (afterAll P dumps host steps).processKey (afterAll P dumps host steps).db
    headers asked.resolved asked.client
  zone : ∀ o, asked.program.Issues o → AtZone P.ucd asked.resolved.settings o
  granted : Since (Step.after P dumps)
    (Gives P dumps asked.resolved.key.id asked.resolved.zone.id)
    (Keeps P dumps asked.resolved.key.id asked.resolved.zone.id) host steps

/-- In every state of every run a change calls a client as a key that may write is
allowed to, and a lookup as its key is allowed to. -/
theorem calls_authorized (H : Hashing) (host : Host) (h : Ungranted host.db) (steps : List Step) :
    (∀ headers request asked,
      mutateDnsRecord P H (afterAll P dumps host steps).processKey (afterAll P dumps host steps).db
        headers request = .ok asked →
      Authorized P dumps H host steps headers asked ∧
        asked.resolved.key.val.accessMode = apiKeyAccessReadWrite) ∧
    ∀ headers query asked,
      getDnsRecord P H (afterAll P dumps host steps).processKey (afterAll P dumps host steps).db
        headers query = .ok asked →
      Authorized P dumps H host steps headers asked := by
  have hgranted {headers : KeyHeaders} {α : Type} {asked : Asked α}
      (hchecked : Checked P H (afterAll P dumps host steps).processKey
        (afterAll P dumps host steps).db headers asked.resolved asked.client) :
      Since (Step.after P dumps) (Gives P dumps asked.resolved.key.id asked.resolved.zone.id)
        (Keeps P dumps asked.resolved.key.id asked.resolved.zone.id) host steps := by
    obtain ⟨apiKey, zoneName, -, -, hto⟩ := hchecked.resolved
    exact since_granted h steps hto.granted
  refine ⟨fun headers request asked hasked => ?_, fun headers query asked hasked => ?_⟩
  · obtain ⟨hchecked, hmode, hzone⟩ := mutate_spec hasked
    exact ⟨⟨hchecked, hzone, hgranted hchecked⟩, hmode⟩
  · obtain ⟨hchecked, hzone⟩ := lookup_spec hasked
    exact ⟨hchecked, hzone, hgranted hchecked⟩

/-! ## a run with a grant -/

/-- A zone, and a key that may change it. -/
def grantingRun : List Step :=
  [.zones (.create bindForm) (by simp),
    .key (.create ⟨hashedDigest, lit "ICEiIyQlJico", ⟨lit "2025-01-01T00:00:00"⟩⟩
      ⟨lit "new", [1], some (lit "read_write")⟩)]

/-- The host after `grantingRun`. -/
def grantedHost : Host := afterAll Compact.platform Compact.dumps newHost grantingRun

/-- `DELETE /dns-record` for an address of the zone. -/
def deleteAddress : RecordRequest :=
  .delete (some (lit "example.com")) (some (lit "www")) (some (lit "A"))

/-- A success has a result. -/
theorem exists_of_isOk {ε α : Type} {x : Except ε α} (h : x.isOk = true) : ∃ a, x = .ok a := by
  cases x with
  | ok a => exact ⟨a, rfl⟩
  | error e => contradiction

/-- The granted key may ask for the deletion. -/
theorem deleteAddress_asked :
    ∃ asked, mutateDnsRecord Compact.platform twoKeys grantedHost.processKey grantedHost.db
      ⟨some hashedKey, none⟩ deleteAddress = .ok asked := by
  apply exists_of_isOk
  decide +kernel

theorem calls_authorized_granted :
    ∃ asked, mutateDnsRecord Compact.platform twoKeys
        (afterAll Compact.platform Compact.dumps newHost grantingRun).processKey
        (afterAll Compact.platform Compact.dumps newHost grantingRun).db ⟨some hashedKey, none⟩
        deleteAddress = .ok asked ∧
      Authorized Compact.platform Compact.dumps twoKeys newHost grantingRun ⟨some hashedKey, none⟩
        asked := by
  obtain ⟨asked, hasked⟩ := deleteAddress_asked
  have hall := calls_authorized Compact.platform Compact.dumps twoKeys newHost rfl grantingRun
  exact ⟨asked, hasked, (hall.1 _ _ _ hasked).1⟩

end ApiToDns.Access
