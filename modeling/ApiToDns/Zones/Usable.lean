import ApiToDns.KeyMigration
import ApiToDns.Zones.Steps

/-!
# Zones.Usable

Stored configurations and `GET /zones` (`routes/zones.zones_page`).  The reader
of a configuration needs its `dns_zone`, which none of the writers checks: a form
may leave it blank, the migration does not write it, and a restore takes over
what the archive has.  One such row makes the listing fail for every key that
may use it.

* `zonesPage` — the listing;
* `Serviceable` — every configuration can be used, and every key gets its list;
* `serviceable_of_run` — the runs through which it stays so.
-/

namespace ApiToDns.Zones

open Py Backup KeyMigration

/-! ## the listing -/

/-- The answer to `GET /zones` as JSON. -/
inductive ZonesReply where
  /-- 403 -/
  | denied
  | listed (zones : List DnsZoneSummary)
deriving DecidableEq

section Listing

variable (P : Platform) (H : Hashing) (processKey : Str)

/-- The zones that a key may use. -/
def allowedZones (db : Db) (keyId : Nat) : List (Row DnsZoneConfig) :=
  (db.allowedZones.rows.filter fun link => link.val.apiKeyId = keyId).filterMap fun link =>
    db.zones.get? link.val.dnsZoneConfigId

/-- `zones_page`, asked for JSON with the key of the headers. -/
def zonesPage (db : Db) (apiKey : Option Str) : Except Exc ZonesReply :=
  match apiKey with
  | none | some [] => .ok .denied
  | some apiKey => do
      match getApiKey H db.apiKeys apiKey with
      | none => do
          let _ ← emitActivityEvent P processKey db
          .ok .denied
      | some key => do
          let zones := allowedZones db key.id
          let _ ← emitActivityEvent P processKey db
          .listed <$> zones.mapM (dnsZoneSummaryDict P processKey)

end Listing

/-! ## usable configurations -/

variable (P : Platform) (dumps : Json → Str)

/-- The text of a configuration says which zone it manages. -/
def Manages (text : Except Exc Str) (zone : Str) : Prop :=
  ∃ t cfg, text = .ok t ∧ P.loads t = some (.obj cfg) ∧ providerDnsZone P.ucd cfg = .ok zone

/-- A stored configuration decodes to an object that names its zone. -/
def Usable (processKey : Str) (row : Row DnsZoneConfig) : Prop :=
  ∃ cfg zone, decodeZoneConfig P processKey row.val = .ok (.obj cfg) ∧
    providerDnsZone P.ucd cfg = .ok zone

/-- Every configuration can be used, and `GET /zones` lists for each active key
the zones it may use, each of them once. -/
structure Serviceable (H : Hashing) (processKey : Str) (db : Db) : Prop where
  usable : ∀ row ∈ db.zones.rows, Usable P processKey row
  listed : ∀ rawKey key, rawKey ≠ [] → getApiKey H db.apiKeys rawKey = some key →
    ∃ zones, zonesPage P H processKey db (some rawKey) = .ok (.listed zones) ∧
      (zones.map DnsZoneSummary.id).Nodup ∧
      ∀ summary, summary ∈ zones ↔ ∃ row ∈ db.zones.rows, ApiKeys.Allowed db key.id row.id ∧
        dnsZoneSummaryDict P processKey row = .ok summary

/-- A setting of texts can be read, or raises what its readers expect. -/
def Reads (setting : Except Exc (Option Str)) : Prop :=
  ∀ exc, setting = .error exc → exc.isValueError = true

/-- What the operations keep. -/
structure Healthy (host : Host) : Prop where
  keyed : Keyed P host
  usable : ∀ row ∈ host.db.zones.rows,
    ∃ zone, Manages P (decryptValue P host.processKey row.val.encryptedConfig) zone
  logLevel : Reads (getSetting P host.processKey host.db logLevelSpec.key)

/-! ## the condition -/

/-- The archive has usable configurations only, and a log level that can be
read. -/
structure SoundArchive (cats : List Category) (payload : Dict) (host : Host) : Prop where
  zones : .zones ∈ cats → ∀ item ∈ itemsOf payload .zones, ∀ name token, ZoneItem item name token →
    ∃ zone, Manages P (decryptValue P (archiveKey P cats payload) token) zone
  logLevel : Reads (incomingSetting P cats payload host logLevelSpec.key)

/-- The request writes no configuration without a zone: a form that makes or
changes a zone names the one at the provider, there is nothing to migrate, and
an archive that is restored is sound. -/
def NamesZones (host : Host) : ZoneRequest → Prop
  | .create form =>
      (∃ plugin, Creates P host.processKey host.db form plugin) → formZone P.ucd form ≠ []
  | .update zoneId form =>
      (∃ row ex plugin, Updates P host.processKey host.db zoneId form row ex plugin) →
        formZone P.ucd form ≠ []
  | .migrate => ¬∃ zoneRaw cfg, Migrates P host.processKey host.db zoneRaw cfg
  | .restore m payload categories =>
      Commits P m payload categories host →
        SoundArchive P (normalizeCategories categories) payload host
  | .delete _ _ | .disable _ | .enable _ => True

/-- The installation after requests, one after the other. -/
def run (host : Host) (requests : List ZoneRequest) : Host :=
  requests.foldl (fun host request => request.after P dumps host) host

/-- Each request of a run meets a condition on the installation it finds. -/
def MeetsRun (cond : Host → ZoneRequest → Prop) (host : Host) : List ZoneRequest → Prop
  | [] => True
  | request :: requests => cond host request ∧ MeetsRun cond (request.after P dumps host) requests

variable {P dumps} {H : Hashing}

/-- The first request and those after it. -/
theorem run_cons (host : Host) (request : ZoneRequest) (requests : List ZoneRequest) :
    run P dumps host (request :: requests) = run P dumps (request.after P dumps host) requests := rfl

/-- What each request keeps under its condition holds throughout the run. -/
theorem invariant_of_run {cond : Host → ZoneRequest → Prop} {Inv : Host → Prop}
    (hstep : ∀ host request, Inv host → cond host request → Inv (request.after P dumps host))
    {requests : List ZoneRequest} {host : Host} (hinv : Inv host)
    (hmeets : MeetsRun P dumps cond host requests) (n : Nat) :
    Inv (run P dumps host (requests.take n)) := by
  induction requests generalizing host n with
  | nil => simpa [run] using hinv
  | cons request requests ih =>
      cases n with
      | zero => exact hinv
      | succ n =>
          rw [List.take_succ_cons, run_cons]
          exact ih (hstep host request hinv hmeets.1) hmeets.2 n

/-! ## what the condition keeps -/

/-- A zone is usable if its text is managed. -/
theorem usable_iff {processKey : Str} {row : Row DnsZoneConfig} :
    Usable P processKey row ↔
      ∃ zone, Manages P (decryptValue P processKey row.val.encryptedConfig) zone := by
  constructor
  · intro h
    obtain ⟨cfg, zone, hdecode, hzone⟩ := h
    obtain ⟨text, htext, hcfg⟩ := bind_eq_ok hdecode
    split at hcfg
    · next value hloads =>
        rw [Except.ok.inj hcfg] at hloads
        exact ⟨zone, text, cfg, htext, hloads, hzone⟩
    · contradiction
  · intro h
    obtain ⟨zone, text, cfg, htext, hloads, hzone⟩ := h
    refine ⟨cfg, zone, ?_, hzone⟩
    rw [decodeZoneConfig, htext, ok_bind, hloads]

/-- A form that names a zone makes a configuration that can be used. -/
theorem manages_configOf (hjson : JsonLaws P dumps) {form : Form} {ex : Dict}
    {plugin : DnsProviderPlugin} (hplugin : plugin ∈ getDnsProviderOptions)
    (hex : ReadBack P dumps (.obj ex)) :
    (∃ zone, Manages P (.ok (dumps (.obj (configOf form ex plugin)))) zone) ↔
      formZone P.ucd form ≠ [] := by
  have hread : P.loads (dumps (.obj (configOf form ex plugin))) =
      some (.obj (configOf form ex plugin)) := readBack_configOf hjson hplugin hex
  have hzone : providerDnsZone P.ucd (configOf form ex plugin) = _ :=
    providerDnsZone_configOf P.ucd hplugin
  constructor
  · intro h hblank
    obtain ⟨zone, t, cfg, ht, hloads, hcfg⟩ := h
    rw [← Except.ok.inj ht, hread] at hloads
    rw [← Json.obj.inj (Option.some.inj hloads), hzone, if_pos hblank] at hcfg
    contradiction
  · intro h
    rw [if_neg h] at hzone
    exact ⟨_, _, _, rfl, hread, hzone⟩

/-- What is written under the condition can be used. -/
theorem manages_of_writes (hjson : JsonLaws P dumps) {host : Host} {request : ZoneRequest}
    (hcond : NamesZones P host request) {name : Str} {text : Except Exc Str}
    (h : Writes P dumps host request name text) : ∃ zone, Manages P text zone := by
  cases request with
  | create form =>
      obtain ⟨plugin, hcreates, -, htext⟩ := h
      rw [htext, manages_configOf hjson hcreates.enabled.1 ((hjson.obj []).mpr (by simp [Dict.names]))]
      exact hcond ⟨plugin, hcreates⟩
  | update zoneId form =>
      obtain ⟨row, ex, plugin, hupdates, -, htext⟩ := h
      rw [htext, manages_configOf hjson hupdates.enabled.1 (hupdates.readBack hjson)]
      exact hcond ⟨row, ex, plugin, hupdates⟩
  | migrate =>
      obtain ⟨zoneRaw, cfg, hmigrates, -⟩ := h
      exact absurd ⟨zoneRaw, cfg, hmigrates⟩ hcond
  | restore m payload categories =>
      obtain ⟨hcommits, hcat, item, hitem, token, hz, htext⟩ := h
      rw [htext]
      exact (hcond hcommits).zones hcat item hitem name token hz
  | delete zoneId detached => contradiction
  | disable pluginKey => contradiction
  | enable pluginKey => contradiction

/-- No request but a restore writes the log level. -/
theorem logLevel_not_touched (request : ZoneRequest) : logLevelSpec.key ∉ request.touches := by
  cases request <;> simp only [ZoneRequest.touches] <;> decide

/-- The log level can be read after a request. -/
theorem reads_logLevel_after (hF : P.fernet.Laws) {host : Host} (h : Healthy P host)
    {request : ZoneRequest} (hcond : NamesZones P host request) :
    Reads (getSetting P host.processKey (request.after P dumps host).db logLevelSpec.key) := by
  by_cases hrestore : ∃ m payload categories, request = .restore m payload categories
  · obtain ⟨m, payload, categories, heq⟩ := hrestore
    rw [heq] at hcond ⊢
    dsimp only [ZoneRequest.after]
    rcases restore_cases m payload categories host with hrestored | hsame
    · obtain ⟨db, hrestored, hcommits⟩ := hrestored
      rw [getSetting_restored hrestored hF h.keyed (by decide) (by decide)]
      exact (hcond hcommits).logLevel
    · rw [hsame]
      exact h.logLevel
  · rw [getSetting_after (fun m payload categories heq => hrestore ⟨m, payload, categories, heq⟩)
      (logLevel_not_touched request)]
    exact h.logLevel

/-- A request keeps the installation healthy under its condition. -/
theorem healthy_after (hF : P.fernet.Laws) (hjson : JsonLaws P dumps) (host : Host)
    (request : ZoneRequest) (h : Healthy P host) (hcond : NamesZones P host request) :
    Healthy P (request.after P dumps host) where
  keyed := keyed_after h.keyed request
  usable := by
    intro row hrow
    rw [processKey_after]
    rcases zone_after hF h.keyed request hrow with hold | hwritten
    · obtain ⟨r, hr, hval⟩ := hold
      rw [← hval]
      exact h.usable r hr
    · exact manages_of_writes hjson hcond hwritten
  logLevel := by
    rw [processKey_after]
    exact reads_logLevel_after hF h hcond

/-! ## the listing of a healthy installation -/

/-- An activity event goes well if the log level can be read. -/
theorem emitActivityEvent_of_reads {processKey : Str} {db : Db}
    (h : Reads (getSetting P processKey db logLevelSpec.key)) :
    emitActivityEvent P processKey db = .ok () := by
  unfold emitActivityEvent readTyped typedOr getTypedSetting
  cases hget : getSetting P processKey db logLevelSpec.key with
  | error exc =>
      rw [error_bind]
      dsimp only
      rw [if_pos (h exc hget)]
  | ok raw =>
      rw [ok_bind]
      cases raw <;> rfl

/-- The zones that a key may use. -/
theorem mem_allowedZones {db : Db} {keyId : Nat} {row : Row DnsZoneConfig} :
    row ∈ allowedZones db keyId ↔ row ∈ db.zones.rows ∧ ApiKeys.Allowed db keyId row.id := by
  unfold allowedZones ApiKeys.Allowed
  simp only [List.mem_filterMap, List.mem_filter, decide_eq_true_eq, Table.get?_eq_some_iff]
  constructor
  · intro h
    obtain ⟨link, ⟨hlink, hkey⟩, hrow, hid⟩ := h
    exact ⟨hrow, link, hlink, by rw [← hkey, hid]⟩
  · intro h
    obtain ⟨hrow, link, hlink, hval⟩ := h
    exact ⟨link, ⟨hlink, by rw [hval]⟩, hrow, by rw [hval]⟩

/-- The zones of a key are distinct, as the links to them are. -/
theorem nodup_allowedZones (db : Db) (keyId : Nat) : ((allowedZones db keyId).map Row.id).Nodup := by
  unfold allowedZones
  rw [List.Nodup, List.pairwise_map, List.pairwise_filterMap]
  have hunique := List.pairwise_filterMap.mp db.allowedZones.unique
  refine (hunique.filter fun link => link.val.apiKeyId = keyId).imp_of_mem ?_
  intro link link' hlink hlink' hne row hrow row' hrow' heq
  simp only [List.mem_filter, decide_eq_true_eq] at hlink hlink'
  rw [Table.get?_eq_some_iff] at hrow hrow'
  refine hne _ rfl _ rfl ?_
  rw [hlink.2, hlink'.2, ← hrow.2, ← hrow'.2, heq]

/-- A zone is summarized if it is usable. -/
theorem exists_summary_iff {processKey : Str} {row : Row DnsZoneConfig} :
    (∃ summary, dnsZoneSummaryDict P processKey row = .ok summary) ↔ Usable P processKey row := by
  constructor
  · intro h
    obtain ⟨summary, h⟩ := h
    obtain ⟨value, hdecode, h⟩ := bind_eq_ok h
    obtain ⟨cfg, hcfg, h⟩ := bind_eq_ok h
    obtain ⟨zone, hzone, -⟩ := bind_eq_ok h
    cases value with
    | obj fields =>
        rw [← Except.ok.inj hcfg] at hzone
        exact ⟨fields, zone, hdecode, hzone⟩
    | _ => contradiction
  · intro h
    obtain ⟨cfg, zone, hdecode, hzone⟩ := h
    refine ⟨⟨row.id, row.val.zoneName, zone⟩, ?_⟩
    rw [dnsZoneSummaryDict, hdecode]
    simp only [ok_bind, asDict, hzone]

/-- A summary has the id of its zone. -/
theorem id_of_summary {processKey : Str} {row : Row DnsZoneConfig} {summary : DnsZoneSummary}
    (h : dnsZoneSummaryDict P processKey row = .ok summary) : summary.id = row.id := by
  obtain ⟨value, -, h⟩ := bind_eq_ok h
  obtain ⟨cfg, -, h⟩ := bind_eq_ok h
  obtain ⟨zone, -, h⟩ := bind_eq_ok h
  rw [← Except.ok.inj h]

/-- A healthy installation lists for each key the zones it may use. -/
theorem serviceable_of_healthy (H : Hashing) {host : Host} (h : Healthy P host) :
    Serviceable P H host.processKey host.db where
  usable row hrow := usable_iff.mpr (h.usable row hrow)
  listed := by
    intro rawKey key hne hkey
    have hsummaries : ∃ zones, (allowedZones host.db key.id).mapM
        (dnsZoneSummaryDict P host.processKey) = .ok zones := by
      refine exists_mapM_eq_ok_iff.mpr fun row hrow => exists_summary_iff.mpr (usable_iff.mpr ?_)
      exact h.usable row (mem_allowedZones.mp hrow).1
    obtain ⟨zones, hzones⟩ := hsummaries
    refine ⟨zones, ?_, ?_, fun summary => ?_⟩
    · cases rawKey with
      | nil => contradiction
      | cons c cs =>
          unfold zonesPage
          simp only [hkey, emitActivityEvent_of_reads h.logLevel, ok_bind, hzones]
          rfl
    · rw [map_eq_of_mapM_eq_ok hzones fun row _ summary hsummary => id_of_summary hsummary]
      exact nodup_allowedZones host.db key.id
    · constructor
      · intro hsummary
        obtain ⟨row, hrow, heq⟩ := mem_of_mapM_eq_ok hzones hsummary
        exact ⟨row, (mem_allowedZones.mp hrow).1, (mem_allowedZones.mp hrow).2, heq⟩
      · intro hrow
        obtain ⟨row, hrow, hallowed, heq⟩ := hrow
        obtain ⟨summary', hsummary', heq'⟩ :=
          exists_of_mapM_eq_ok hzones (mem_allowedZones.mpr ⟨hrow, hallowed⟩)
        rw [heq] at heq'
        rw [Except.ok.inj heq']
        exact hsummary'

/-- In every run whose requests write no configuration without a zone, every
configuration can be used and every active key gets its list, in every state. -/
theorem serviceable_of_run (hF : P.fernet.Laws) (hjson : JsonLaws P dumps) (H : Hashing) {host : Host}
    (hhealthy : Healthy P host) {requests : List ZoneRequest}
    (hmeets : MeetsRun P dumps (NamesZones P) host requests) (n : Nat) :
    Serviceable P H (run P dumps host (requests.take n)).processKey
      (run P dumps host (requests.take n)).db := by
  have hinv : Healthy P (run P dumps host (requests.take n)) :=
    invariant_of_run (healthy_after hF hjson) hhealthy hmeets n
  exact serviceable_of_healthy H hinv

/-! ## a new installation -/

/-- A form with these fields. -/
def formOf (fields : List (Str × Str)) : Form :=
  fun name => (fields.find? fun field => field.1 = name).map Prod.snd

/-- A BIND zone that names the zone at the provider. -/
def namedForm : Form :=
  formOf [(lit "zone_name", lit "Example.COM"), (lit "dns_provider_type", lit "bind"),
    (lit "dns_zone", lit "Example.com."), (lit "dns_server", lit "192.0.2.53")]

/-- The same without that name. -/
def unnamedForm : Form :=
  formOf [(lit "zone_name", lit "Example.COM"), (lit "dns_provider_type", lit "bind"),
    (lit "dns_zone", lit " "), (lit "dns_server", lit "192.0.2.53")]

/-- The key of the host is valid. -/
theorem valid_hostKey : Compact.platform.fernet.valid hostKey = true := by decide

/-- The new host has its key. -/
theorem keyed_newHost : Keyed Compact.platform newHost where
  valid := valid_hostKey
  strip := by decide

/-- An installation with a zone and an active key that may use it. -/
def grantedHost : Host :=
  { newHost with
    db := { Db.empty with
      zones := .ofList [⟨lit "example.org",
        encodeZoneConfigDict Compact.platform Compact.dumps hostKey
          (configOf namedForm [] bindPlugin)⟩]
      apiKeys := .ofList [⟨lit "ci", KeyMigration.plainDigest, some (lit "AAECAwQF"),
        apiKeyAccessReadWrite, true, calm.now⟩]
      allowedZones := .ofList [⟨1, 1⟩] } }

/-- The host is healthy. -/
theorem healthy_grantedHost : Healthy Compact.platform grantedHost where
  keyed := ⟨valid_hostKey, by decide⟩
  usable row hrow := by
    have hrow : row = ⟨1, ⟨lit "example.org", encodeZoneConfigDict Compact.platform Compact.dumps
        hostKey (configOf namedForm [] bindPlugin)⟩⟩ := List.mem_singleton.mp hrow
    have hdecrypt : decryptValue Compact.platform hostKey (encodeZoneConfigDict Compact.platform
        Compact.dumps hostKey (configOf namedForm [] bindPlugin)) =
          .ok (Compact.dumps (.obj (configOf namedForm [] bindPlugin))) :=
      decryptValue_encode Fernet.plain_laws valid_hostKey _
    have hmanages : ∃ zone, Manages Compact.platform
        (.ok (Compact.dumps (.obj (configOf namedForm [] bindPlugin)))) zone :=
      (manages_configOf Compact.laws (by decide)
        ((Compact.laws.obj []).mpr (by simp [Dict.names]))).mpr (by decide)
    rw [← hdecrypt] at hmanages
    rw [hrow]
    exact hmanages
  logLevel exc h := by
    have hnone : getSetting Compact.platform grantedHost.processKey grantedHost.db
        logLevelSpec.key = .ok none := by decide
    rw [hnone] at h
    contradiction

theorem serviceable_of_run_granted :
    MeetsRun Compact.platform Compact.dumps (NamesZones Compact.platform) grantedHost
        [.create namedForm] ∧
      ∃ zones summary,
        zonesPage Compact.platform twoKeys hostKey
          (run Compact.platform Compact.dumps grantedHost [.create namedForm]).db
          (some KeyMigration.plainKey) = .ok (.listed zones) ∧
        summary ∈ zones ∧ summary.id = 1 := by
  have hmeets : MeetsRun Compact.platform Compact.dumps (NamesZones Compact.platform) grantedHost
      [.create namedForm] := ⟨fun _ => by decide, trivial⟩
  have hserviceable : Serviceable Compact.platform twoKeys hostKey
      (run Compact.platform Compact.dumps grantedHost [.create namedForm]).db :=
    serviceable_of_run Fernet.plain_laws Compact.laws twoKeys healthy_grantedHost hmeets 1
  have hcreates : Creates Compact.platform grantedHost.processKey grantedHost.db namedForm
      bindPlugin := ⟨by decide, by decide, ⟨by decide, [], by decide, by decide⟩, by decide⟩
  obtain ⟨zones', hins, hafter⟩ := zoneCreate_of_creates Compact.dumps hcreates
  obtain ⟨-, hrows⟩ := Table.insert_eq_some_iff.mp hins
  have hdb : (run Compact.platform Compact.dumps grantedHost [.create namedForm]).db =
      { grantedHost.db with zones := zones' } := hafter
  obtain ⟨key, hkey, hid⟩ : ∃ key, getApiKey twoKeys grantedHost.db.apiKeys
      KeyMigration.plainKey = some key ∧ key.id = 1 := by decide +kernel
  have hstored : ∃ row ∈ zones'.rows, row.id = 1 := by
    rw [hrows]
    exact ⟨_, List.mem_append_left _ (List.mem_singleton_self _), rfl⟩
  obtain ⟨row, hrow, hrowid⟩ := hstored
  refine ⟨hmeets, ?_⟩
  rw [hdb] at hserviceable ⊢
  obtain ⟨zones, hzones, -, hlisted⟩ :=
    hserviceable.listed KeyMigration.plainKey key (by decide) hkey
  obtain ⟨summary, hsummary⟩ := exists_summary_iff.mpr (hserviceable.usable row hrow)
  have hallowed : ApiKeys.Allowed grantedHost.db key.id row.id := by
    rw [hid, hrowid]
    decide
  refine ⟨zones, summary, hzones, (hlisted summary).mpr ⟨row, hrow, hallowed, hsummary⟩, ?_⟩
  rw [id_of_summary hsummary, hrowid]

/-- The unnamed form creates a zone. -/
theorem creates_unnamed : Creates Compact.platform newHost.processKey newHost.db unnamedForm bindPlugin where
  name := by decide
  free row hrow := by simp [newHost, Db.empty, Table.empty] at hrow
  enabled := ⟨by decide, [], by decide, by decide⟩
  asked := by decide

/-- The zone of the form without the name is stored, and cannot be used. -/
theorem not_serviceable_unnamed :
    ¬Serviceable Compact.platform twoKeys
      (run Compact.platform Compact.dumps newHost [.create unnamedForm]).processKey
      (run Compact.platform Compact.dumps newHost [.create unnamedForm]).db := by
  intro h
  obtain ⟨zones, hins, hafter⟩ := zoneCreate_of_creates Compact.dumps creates_unnamed
  obtain ⟨-, hrows⟩ := Table.insert_eq_some_iff.mp hins
  have hdb : (run Compact.platform Compact.dumps newHost [.create unnamedForm]).db =
      { newHost.db with zones } := hafter
  have hnew := h.usable (newHost.db.zones.newRow _) (by
    rw [hdb]
    dsimp only
    rw [hrows]
    exact List.mem_append_right _ (List.mem_singleton_self _))
  rw [usable_iff] at hnew
  have hdecrypt : decryptValue Compact.platform newHost.processKey (encodeZoneConfigDict
      Compact.platform Compact.dumps newHost.processKey (configOf unnamedForm [] bindPlugin)) =
        .ok (Compact.dumps (.obj (configOf unnamedForm [] bindPlugin))) :=
    decryptValue_encode Fernet.plain_laws keyed_newHost.valid _
  have hmanages : ∃ zone, Manages Compact.platform
      (.ok (Compact.dumps (.obj (configOf unnamedForm [] bindPlugin)))) zone := by
    rw [← hdecrypt]
    exact hnew
  rw [manages_configOf Compact.laws (by decide)
    ((Compact.laws.obj []).mpr (by simp [Dict.names]))] at hmanages
  exact hmanages (by decide)

end ApiToDns.Zones
