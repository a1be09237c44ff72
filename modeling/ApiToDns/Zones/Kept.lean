import ApiToDns.Backup.Boot
import ApiToDns.Lib.Runs
import ApiToDns.Zones.Clients
import ApiToDns.Zones.Usable

/-!
# Zones.Kept

What changing a zone keeps.

* `save_unchanged` — saving a form that was not touched;
* `zone_kept_of_run` — a zone over a run of requests that are not about it, and of
  restarts.
-/

namespace ApiToDns.Zones

open Py Backup

variable {P : Platform} {dumps : Json → Str} {processKey : Str}

/-! ## saving a form that was not touched -/

/-- A zone that a form made is edited and saved without a change: it is served by
the same client, at the same server and for the same zone, and the other zones,
the API keys, what these may use and the accounts are as they were.  (The entry in
the activity log that follows may change other tables.) -/
theorem save_unchanged (hF : P.fernet.Laws) (hjson : JsonLaws P dumps)
    (hkey : P.fernet.valid processKey = true) {db : Db} {row : Row DnsZoneConfig}
    (hrow : row ∈ db.zones.rows) (hfits : fitsColumn row.id = true) {form : Form} {ex : Dict}
    {plugin : DnsProviderPlugin} (henabled : EnabledIn P processKey db plugin)
    (hmade : decodeZoneConfig P processKey row.val = .ok (.obj (configOf form ex plugin))) :
    ∃ db' saved cfg,
      (zoneUpdate P dumps processKey db row.id
        (editForm P.ucd (configOf form ex plugin) plugin)).after db = db' ∧
      (∀ r, r ∈ db'.zones.rows ↔ r = ⟨row.id, saved⟩ ∨ r ∈ db.zones.rows ∧ r.id ≠ row.id) ∧
      (db'.apiKeys = db.apiKeys ∧ db'.allowedZones = db.allowedZones ∧ db'.users = db.users) ∧
      saved.zoneName = row.val.zoneName ∧
      decodeZoneConfig P processKey saved = .ok (.obj cfg) ∧
      (∀ disabled, createDnsClientFromSettings P.ucd cfg disabled =
        createDnsClientFromSettings P.ucd (configOf form ex plugin) disabled) ∧
      dnsServer cfg = dnsServer (configOf form ex plugin) ∧
      providerDnsZone P.ucd cfg = providerDnsZone P.ucd (configOf form ex plugin) := by
  have hplugin := henabled.1
  have hfound : db.zones.get? (row.id : Int).toNat = some row := by
    rw [Int.toNat_natCast, Table.get?_eq_some_iff]
    exact ⟨hrow, rfl⟩
  have hupdates : Updates P processKey db row.id
      (editForm P.ucd (configOf form ex plugin) plugin) row (configOf form ex plugin) plugin :=
    ⟨hfits, hfound, ⟨_, hmade, by rfl⟩, henabled, formProvider_editForm hplugin _ _⟩
  have hread : ReadBack P dumps (.obj (savedConfig P.ucd form ex plugin)) :=
    readBack_configOf hjson hplugin (readBack_of_decode hjson hmade)
  refine ⟨_, ⟨row.val.zoneName,
    encodeZoneConfigDict P dumps processKey (savedConfig P.ucd form ex plugin)⟩,
    savedConfig P.ucd form ex plugin, zoneUpdate_of_updates dumps hupdates, fun r => ?_, ⟨rfl, rfl, rfl⟩, rfl,
    decode_changed hF hkey hread, (sameClient_savedConfig hplugin).client_eq, ?_, ?_⟩
  · rw [changeZone, Table.mem_update]
    constructor
    · intro h
      obtain ⟨r', hr', heq⟩ := h
      by_cases hid : r'.id = row.id
      · left
        rw [← heq, if_pos hid, hid, db.zones.eq_of_id hr' hrow hid]
        rfl
      · right
        rw [if_neg hid] at heq
        rw [← heq]
        exact ⟨hr', hid⟩
    · intro h
      rcases h with heq | hold
      · exact ⟨row, hrow, by rw [heq, if_pos rfl]; rfl⟩
      · exact ⟨r, hold.1, by rw [if_neg hold.2]⟩
  · exact get_savedConfig_of_ne hplugin (by decide)
  · rw [providerDnsZone, providerDnsZone, get_savedConfig_of_ne hplugin (by decide)]

/-- A BIND form with all its fields. -/
def bindForm : Form :=
  formOf [(lit "zone_name", lit "Example.COM"), (lit "dns_provider_type", lit "bind"),
    (lit "dns_zone", lit "Example.com."), (lit "dns_server", lit "192.0.2.53"),
    (lit "dns_username", lit "api-to-dns"), (lit "dns_password", lit "c2VjcmV0")]

/-- An installation with the zone of this form. -/
def bindDb : Db :=
  { Db.empty with
    zones := .ofList [⟨lit "example.com",
      encodeZoneConfigDict Compact.platform Compact.dumps hostKey (configOf bindForm [] bindPlugin)⟩] }

theorem save_unchanged_bindDb :
    ∃ db' saved cfg,
      (zoneUpdate Compact.platform Compact.dumps hostKey bindDb (1 : Nat)
        (editForm .ascii (configOf bindForm [] bindPlugin) bindPlugin)).after bindDb = db' ∧
      ⟨1, saved⟩ ∈ db'.zones.rows ∧
      decodeZoneConfig Compact.platform hostKey saved = .ok (.obj cfg) ∧
      ∀ disabled, createDnsClientFromSettings .ascii cfg disabled =
        createDnsClientFromSettings .ascii (configOf bindForm [] bindPlugin) disabled := by
  have henabled : EnabledIn Compact.platform hostKey bindDb bindPlugin :=
    ⟨by decide, [], by decide, by decide⟩
  have hmade : decodeZoneConfig Compact.platform hostKey ⟨lit "example.com",
      encodeZoneConfigDict Compact.platform Compact.dumps hostKey
        (configOf bindForm [] bindPlugin)⟩ = .ok (.obj (configOf bindForm [] bindPlugin)) :=
    decode_changed Fernet.plain_laws valid_hostKey (readBack_configOf Compact.laws (by decide)
      ((Compact.laws.obj []).mpr (by simp [Dict.names])))
  obtain ⟨db', saved, cfg, hafter, hrows, -, -, hdecode, hclient, -⟩ :=
    save_unchanged Fernet.plain_laws Compact.laws valid_hostKey
      (show ⟨1, _⟩ ∈ bindDb.zones.rows from List.mem_singleton_self _) (by decide) henabled hmade
  exact ⟨db', saved, cfg, hafter, (hrows _).mpr (.inl rfl), hdecode, hclient⟩

/-! ## requests on other zones -/

variable (P) in
/-- The request is not about the zone: it neither edits nor removes it, and restores
no zones. -/
def Spares (zoneId : Nat) (host : Host) : ZoneRequest → Prop
  | .update id _ | .delete id _ => id.toNat ≠ zoneId
  | .restore m payload categories =>
      Commits P m payload categories host → .zones ∉ normalizeCategories categories
  | _ => True

/-- The row of a zone stays, whatever is done with the others. -/
theorem zone_spared {host : Host} {request : ZoneRequest} {row : Row DnsZoneConfig}
    (hspares : Spares P row.id host request) (hrow : row ∈ host.db.zones.rows) :
    row ∈ (request.after P dumps host).db.zones.rows := by
  cases request with
  | create form =>
      dsimp only [ZoneRequest.after]
      rcases zoneCreate_cases dumps host.db form with hcreated | hsame
      · obtain ⟨plugin, zones, -, hins, hafter⟩ := hcreated
        obtain ⟨-, hrows⟩ := Table.insert_eq_some_iff.mp hins
        rw [hafter]
        simp [hrows, hrow]
      · rwa [hsame]
  | update zoneId form =>
      dsimp only [ZoneRequest.after]
      rcases zoneUpdate_cases dumps host.db zoneId form with hupdated | hsame
      · obtain ⟨old, ex, plugin, hupdates, hafter⟩ := hupdated
        rw [hafter]
        have hid : old.id = zoneId.toNat := (Table.get?_eq_some_iff.mp hupdates.found).2
        have hne : row.id ≠ old.id := fun heq => hspares (hid.symm.trans heq.symm)
        exact mem_changeZone.mpr ⟨row, hrow, by rw [if_neg hne]⟩
      · rwa [hsame]
  | delete zoneId detached =>
      dsimp only [ZoneRequest.after]
      rcases zoneDelete_cases P host.processKey host.db zoneId detached with hdeleted | hsame
      · obtain ⟨old, d, hget, -, hafter⟩ := hdeleted
        have hid : old.id = zoneId.toNat := (Table.get?_eq_some_iff.mp hget).2
        have hne : row.id ≠ old.id := fun heq => hspares (hid.symm.trans heq.symm)
        rw [hafter]
        exact Table.mem_delete.mpr ⟨hrow, by simpa using hne⟩
      · rwa [hsame]
  | disable pluginKey =>
      dsimp only [ZoneRequest.after]
      rcases settingsPluginDisable_cases dumps host.db pluginKey with hdisabled | hsame
      · obtain ⟨disabled, -, -, -, -, hafter⟩ := hdisabled
        rwa [hafter, setDisabledDnsPlugins_eq]
      · rwa [hsame]
  | enable pluginKey =>
      dsimp only [ZoneRequest.after]
      rcases settingsPluginEnable_cases dumps host.db pluginKey with henabled | hsame
      · obtain ⟨disabled, -, hafter⟩ := henabled
        rwa [hafter, setDisabledDnsPlugins_eq]
      · rwa [hsame]
  | migrate =>
      dsimp only [ZoneRequest.after]
      rcases migrate_cases dumps host.db with hmigrated | hsame
      · -- the migration needs an installation without zones
        obtain ⟨zoneRaw, cfg, zones, hmigrates, -⟩ := hmigrated
        rw [hmigrates.none] at hrow
        exact absurd hrow List.not_mem_nil
      · rwa [hsame]
  | restore m payload categories =>
      dsimp only [ZoneRequest.after]
      rcases restore_cases m payload categories host with hrestored | hsame
      · obtain ⟨db, hrestored, hcommits⟩ := hrestored
        have hzones := ((restoreDatabase_eq_ok_iff P m _ _ _ _ _).mp hrestored.database).2.2.1
        rw [zonesAfter, if_neg (hspares hcommits)] at hzones
        rw [hrestored.files.tables]
        dsimp only
        rwa [← Except.ok.inj hzones]
      · rwa [hsame]

/-- What a run is made of: requests, and starts of the process. -/
inductive ZoneEvent where
  | request (request : ZoneRequest)
  | start

variable (P dumps) in
/-- The installation after an event; a process that finds no key does not start. -/
def ZoneEvent.after (host : Host) : ZoneEvent → Host
  | .request r => r.after P dumps host
  | .start =>
      match nextEncryptionKey P host with
      | none => host
      | some key => { host with processKey := key }

variable (P) in
/-- The event is not about the zone, and a start finds the key that the process had. -/
def SparesEvent (zoneId : Nat) (host : Host) : ZoneEvent → Prop
  | .request r => Spares P zoneId host r
  | .start => host.Booted P

/-- An event that spares a zone keeps its row and the key it is read with. -/
theorem zone_spared_event {host : Host} {event : ZoneEvent} {row : Row DnsZoneConfig}
    (hspares : SparesEvent P row.id host event) (hrow : row ∈ host.db.zones.rows) :
    row ∈ (event.after P dumps host).db.zones.rows ∧
      (event.after P dumps host).processKey = host.processKey := by
  cases event with
  | request request => exact ⟨zone_spared hspares hrow, processKey_after host request⟩
  | start =>
      have hkey : nextEncryptionKey P host = some host.processKey := hspares
      rw [ZoneEvent.after, hkey]
      exact ⟨hrow, rfl⟩

/-- A zone that no event of a run is about has the configuration that it had, in
every state of the run and with the key of that state. -/
theorem zone_kept_of_run {host : Host} {row : Row DnsZoneConfig} (hrow : row ∈ host.db.zones.rows)
    {events : List ZoneEvent}
    (hmeets : MeetsAll (ZoneEvent.after P dumps) (SparesEvent P row.id) host events) (n : Nat) :
    let now := (events.take n).foldl (ZoneEvent.after P dumps) host
    row ∈ now.db.zones.rows ∧
      decodeZoneConfig P now.processKey row.val = decodeZoneConfig P host.processKey row.val := by
  have hstep : ∀ (now : Host) event, (row ∈ now.db.zones.rows ∧ now.processKey = host.processKey) →
      SparesEvent P row.id now event →
        row ∈ (event.after P dumps now).db.zones.rows ∧
          (event.after P dumps now).processKey = host.processKey := by
    intro now event hnow hspares
    obtain ⟨hmem, hkey⟩ := zone_spared_event hspares hnow.1
    exact ⟨hmem, hkey.trans hnow.2⟩
  obtain ⟨hmem, hkey⟩ := foldl_invariant_of_meets hstep ⟨hrow, rfl⟩ hmeets n
  refine ⟨hmem, ?_⟩
  rw [hkey]

/-- The row of the zone of `bindDb`. -/
def bindRow : Row DnsZoneConfig :=
  ⟨1, ⟨lit "example.com",
    encodeZoneConfigDict Compact.platform Compact.dumps hostKey (configOf bindForm [] bindPlugin)⟩⟩

/-- Another zone is made, the process starts again, the zone is edited and removed,
and a plugin is disabled. -/
def otherEvents : List ZoneEvent :=
  [.request (.create unnamedForm), .start, .request (.disable (lit "azure")),
    .request (.update 2 namedForm), .request (.delete 2 (.ok ⟨none, false⟩))]

theorem zone_kept_of_run_bindDb :
    bindRow ∈ ((otherEvents.take 5).foldl (ZoneEvent.after Compact.platform Compact.dumps)
        { newHost with db := bindDb }).db.zones.rows ∧
      decodeZoneConfig Compact.platform
        ((otherEvents.take 5).foldl (ZoneEvent.after Compact.platform Compact.dumps)
          { newHost with db := bindDb }).processKey bindRow.val =
        decodeZoneConfig Compact.platform hostKey bindRow.val := by
  have hother : (2 : Int).toNat ≠ bindRow.id := by decide
  have hnew : nextEncryptionKey Compact.platform newHost = some newHost.processKey := by decide
  have hbooted : ∀ db, Host.Booted Compact.platform { newHost with db := db } := fun _ => hnew
  have hmeets : MeetsAll (ZoneEvent.after Compact.platform Compact.dumps)
      (SparesEvent Compact.platform bindRow.id) { newHost with db := bindDb } otherEvents :=
    ⟨trivial, hbooted ((zoneCreate Compact.platform Compact.dumps hostKey bindDb unnamedForm).after
      bindDb), trivial, hother, hother, trivial⟩
  have hrow : bindRow ∈ bindDb.zones.rows := List.mem_singleton_self _
  exact zone_kept_of_run hrow hmeets 5

end ApiToDns.Zones
