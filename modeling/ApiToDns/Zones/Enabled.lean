import ApiToDns.Zones.Usable
import Mathlib.Data.Finset.Card

/-!
# Zones.Enabled

Plugins that are disabled, and the zones that use them.  A plugin is disabled
only while no zone uses it, and a form is accepted only for a plugin that is
enabled; a restore replaces the zones or the settings without asking either.

* `OnlyEnabled` — no zone has a disabled provider, and a plugin is left;
* `KeepsEnabled` — the restores and migrations that keep it so;
* `onlyEnabled_of_run` — the runs through which it stays so.
-/

namespace ApiToDns.Zones

open Py Backup

variable (P : Platform)

/-! ## what is read -/

/-- The plugins that a setting disables. -/
def disabledFrom (setting : Except Exc (Option Str)) : Except Exc (List Str) :=
  match setting >>= parseTyped P disabledSpec with
  | .ok parsed => .ok (disabledOf P parsed)
  | .error exc => if exc.isValueError then .ok [] else .error exc

/-- The provider that the text of a configuration names. -/
def textProvider (text : Except Exc Str) : Except Exc Str := do
  match P.loads (← text) with
  | some cfg => storedProvider P.ucd cfg
  | none => .error (.valueError (lit "JSONDecodeError"))

/-- No zone has a disabled provider, and at least one plugin is enabled. -/
structure OnlyEnabled (host : Host) (disabled : List Str) : Prop where
  read : getDisabledDnsPlugins P host.processKey host.db = .ok disabled
  enabled : ∃ key ∈ getKnownDnsProviderKeys, key ∉ disabled
  zones : ∀ row ∈ host.db.zones.rows, ∀ provider,
    zoneProvider P host.processKey row.val = .ok provider → provider ∉ disabled

/-! ## the condition -/

/-- The text of a configuration that is there after a restore. -/
def Incoming (cats : List Category) (payload : Dict) (host : Host) (text : Except Exc Str) : Prop :=
  if .zones ∈ cats then
    ∃ item ∈ itemsOf payload .zones, ∃ name token, ZoneItem item name token ∧
      text = decryptValue P (archiveKey P cats payload) token
  else
    ∃ row ∈ host.db.zones.rows, text = decryptValue P host.processKey row.val.encryptedConfig

/-- What is restored agrees with what stays. -/
def Agrees (cats : List Category) (payload : Dict) (host : Host) : Prop :=
  ∃ disabled, disabledFrom P (incomingSetting P cats payload host disabledSpec.key) = .ok disabled ∧
    (∃ key ∈ getKnownDnsProviderKeys, key ∉ disabled) ∧
    ∀ text, Incoming P cats payload host text → ∀ provider,
      textProvider P text = .ok provider → provider ∉ disabled

/-- A restore leaves no zone with a disabled provider, and the legacy settings do
not name one. -/
def KeepsEnabled (host : Host) : ZoneRequest → Prop
  | .restore m payload categories =>
      Commits P m payload categories host → Agrees P (normalizeCategories categories) payload host
  | .migrate =>
      ∀ zoneRaw cfg, Migrates P host.processKey host.db zoneRaw cfg → ∀ provider disabled,
        storedProvider P.ucd (.obj cfg) = .ok provider →
        getDisabledDnsPlugins P host.processKey host.db = .ok disabled → provider ∉ disabled
  | .create _ | .update _ _ | .delete _ _ | .disable _ | .enable _ => True

variable {P} {dumps : Json → Str} {processKey : Str}

/-- The disabled plugins are those that the setting names. -/
theorem getDisabledDnsPlugins_eq (db : Db) :
    getDisabledDnsPlugins P processKey db =
      disabledFrom P (getSetting P processKey db disabledSpec.key) := rfl

/-- The provider of a zone is in its configuration. -/
theorem zoneProvider_eq (zone : DnsZoneConfig) :
    zoneProvider P processKey zone =
      textProvider P (decryptValue P processKey zone.encryptedConfig) := by
  unfold zoneProvider decodeZoneConfig textProvider
  cases decryptValue P processKey zone.encryptedConfig with
  | error exc => rfl
  | ok text =>
      simp only [ok_bind]
      cases P.loads text <;> rfl

/-! ## the setting -/

/-- Disabled plugins are known. -/
theorem mem_disabled_known {db : Db} {disabled : List Str}
    (h : getDisabledDnsPlugins P processKey db = .ok disabled) {key : Str} (hkey : key ∈ disabled) :
    key ∈ getKnownDnsProviderKeys := by
  unfold getDisabledDnsPlugins at h
  split at h
  · next parsed hparsed =>
      rw [← Except.ok.inj h] at hkey
      unfold disabledOf at hkey
      split at hkey
      · exact (List.mem_filter.mp hkey).1
      · contradiction
  · split at h
    · rw [← Except.ok.inj h] at hkey
      contradiction
    · contradiction

/-- What is set is what is read. -/
theorem getDisabled_setDisabled (hF : P.fernet.Laws) (hjson : JsonLaws P dumps)
    (hkey : P.fernet.valid processKey = true) (db : Db) {keys : List Str}
    (hkeys : ∀ key ∈ keys, key ∈ getKnownDnsProviderKeys) :
    getDisabledDnsPlugins P processKey (setDisabledDnsPlugins P dumps processKey db keys) =
      .ok (getKnownDnsProviderKeys.filter fun key => key ∈ keys) := by
  have hlower : keys.map (fun key => P.ucd.lower (strip key)) = keys :=
    (List.map_congr_left fun key hmem => lower_strip_key P.ucd (hkeys key hmem)).trans keys.map_id'
  unfold setDisabledDnsPlugins
  rw [hlower]
  dsimp only
  by_cases hnone : (getKnownDnsProviderKeys.filter fun key => key ∈ keys) = []
  · rw [if_pos hnone, getDisabledDnsPlugins_eq, getSetting_eq, storedToken_deleteSetting, if_pos rfl,
      hnone]
    have hparsed : parseTyped P disabledSpec none = .ok (.arr []) := by
      have hblank : strip (lit "[]") ≠ [] := by decide
      simp [parseTyped, parseTypedText, disabledSpec, hblank, hjson.emptyList]
    simp only [disabledFrom, ok_bind, hparsed, disabledOf]
    simp
  · have hread : P.loads (dumps (.arr ((getKnownDnsProviderKeys.filter fun key => key ∈ keys).map
        .str))) = some (.arr ((getKnownDnsProviderKeys.filter fun key => key ∈ keys).map .str)) := by
      refine (hjson.arr _).mpr fun x hx => ?_
      obtain ⟨key, -, heq⟩ := List.mem_map.mp hx
      rw [← heq]
      exact hjson.str key
    have hparsed : parseTyped P disabledSpec (some (dumps (.arr
        ((getKnownDnsProviderKeys.filter fun key => key ∈ keys).map .str)))) =
          .ok (.arr ((getKnownDnsProviderKeys.filter fun key => key ∈ keys).map .str)) := by
      simp [parseTyped, parseTypedText, disabledSpec, hjson.notBlank, hread]
    rw [if_neg hnone, getDisabledDnsPlugins_eq, getSetting_eq, storedToken_setSetting, if_pos rfl]
    dsimp only
    rw [decryptValue_encryptValue P hF hkey]
    simp only [disabledFrom, Functor.map, Except.map, ok_bind, hparsed, disabledOf]
    congr 1
    refine List.filter_congr fun key hmem => ?_
    have hsame : key ∈ (getKnownDnsProviderKeys.filter fun key => key ∈ keys).map
        (fun key => P.ucd.lower (strip key)) ↔ key ∈ keys := by
      have hmap : (getKnownDnsProviderKeys.filter fun key => key ∈ keys).map
          (fun key => P.ucd.lower (strip key)) =
            getKnownDnsProviderKeys.filter fun key => key ∈ keys :=
        (List.map_congr_left fun key h =>
          lower_strip_key P.ucd (List.mem_filter.mp h).1).trans (List.map_id' _)
      rw [hmap]
      simp [hmem]
    rw [decide_eq_decide, List.map_map]
    exact hsame

/-- The provider of what a form asks for is the plugin's. -/
theorem storedProvider_configOf (U : Ucd) {form : Form} {ex : Dict} {plugin : DnsProviderPlugin}
    (hplugin : plugin ∈ getDnsProviderOptions) :
    storedProvider U (.obj (configOf form ex plugin)) = .ok plugin.key := by
  have hne : plugin.key ≠ [] := by
    have hall : ∀ plugin ∈ getDnsProviderOptions, plugin.key ≠ [] := by decide
    exact hall plugin hplugin
  have htruthy : Json.orElse (.str plugin.key) (.str (lit "azure")) = .str plugin.key := by
    simp [Json.orElse, Json.truthy, hne]
  simp only [storedProvider, asDict, ok_bind, get_provider, htruthy, asText]
  rw [lower_strip_key U (key_mem hplugin)]

/-- The provider of a configuration from the form. -/
theorem textProvider_configOf (hjson : JsonLaws P dumps) {form : Form} {ex : Dict}
    {plugin : DnsProviderPlugin} (hplugin : plugin ∈ getDnsProviderOptions)
    (hex : ReadBack P dumps (.obj ex)) :
    textProvider P (.ok (dumps (.obj (configOf form ex plugin)))) = .ok plugin.key := by
  have hread : P.loads (dumps (.obj (configOf form ex plugin))) =
      some (.obj (configOf form ex plugin)) := readBack_configOf hjson hplugin hex
  rw [textProvider, ok_bind, hread]
  exact storedProvider_configOf P.ucd hplugin

/-! ## what one request keeps -/

/-- An enabled plugin is not disabled. -/
theorem EnabledIn.not_mem {db : Db} {plugin : DnsProviderPlugin} {disabled : List Str}
    (h : EnabledIn P processKey db plugin)
    (hread : getDisabledDnsPlugins P processKey db = .ok disabled) : plugin.key ∉ disabled := by
  obtain ⟨-, disabled', hread', hnot⟩ := h
  rw [hread] at hread'
  rw [Except.ok.inj hread']
  exact hnot

/-- What a form or the migration writes has an enabled provider. -/
theorem provider_of_writes (hjson : JsonLaws P dumps) {host : Host} {request : ZoneRequest}
    (hrestore : ∀ m payload categories, request ≠ .restore m payload categories)
    (hcond : KeepsEnabled P host request) {disabled : List Str}
    (hread : getDisabledDnsPlugins P host.processKey host.db = .ok disabled)
    {name : Str} {text : Except Exc Str} (h : Writes P dumps host request name text)
    {provider : Str} (hprovider : textProvider P text = .ok provider) : provider ∉ disabled := by
  cases request with
  | create form =>
      obtain ⟨plugin, hcreates, -, htext⟩ := h
      rw [htext, textProvider_configOf hjson hcreates.enabled.1
        ((hjson.obj []).mpr (by simp [Dict.names]))] at hprovider
      rw [← Except.ok.inj hprovider]
      exact hcreates.enabled.not_mem hread
  | update zoneId form =>
      obtain ⟨row, ex, plugin, hupdates, -, htext⟩ := h
      rw [htext, textProvider_configOf hjson hupdates.enabled.1 (hupdates.readBack hjson)]
        at hprovider
      rw [← Except.ok.inj hprovider]
      exact hupdates.enabled.not_mem hread
  | migrate =>
      obtain ⟨zoneRaw, cfg, hmigrates, -, htext⟩ := h
      rw [htext] at hprovider
      have hloads : P.loads (dumps (.obj cfg)) = some (.obj cfg) := hmigrates.readBack hjson
      rw [textProvider, ok_bind, hloads] at hprovider
      exact hcond zoneRaw cfg hmigrates provider disabled hprovider hread
  | restore m payload categories => exact absurd rfl (hrestore m payload categories)
  | delete zoneId detached => contradiction
  | disable pluginKey => contradiction
  | enable pluginKey => contradiction

/-- Disabling an unused plugin keeps the zones with enabled ones. -/
theorem onlyEnabled_disable (hF : P.fernet.Laws) (hjson : JsonLaws P dumps) {host : Host}
    (hkeyed : Keyed P host) {disabled : List Str} (h : OnlyEnabled P host disabled) {key : Str}
    (hknown : key ∈ getKnownDnsProviderKeys)
    (hcount : 2 ≤ (getDnsProviderOptions.filter fun plugin => plugin.key ∉ disabled).length)
    (hunused : zonesUsingDnsProvider P host.processKey host.db key = .ok []) :
    ∃ disabled', OnlyEnabled P
      { host with
        db := setDisabledDnsPlugins P dumps host.processKey host.db (key :: disabled) } disabled' := by
  have hkeys : ∀ k ∈ key :: disabled, k ∈ getKnownDnsProviderKeys := by
    intro k hk
    rcases List.mem_cons.mp hk with heq | hmem
    · rw [heq]
      exact hknown
    · exact mem_disabled_known h.read hmem
  refine ⟨_, getDisabled_setDisabled hF hjson hkeyed.valid host.db hkeys, ?_, ?_⟩
  · -- of two plugins that are left, one has another key
    obtain ⟨own, hown, hownKey⟩ := List.mem_map.mp hknown
    have hnodup : (getDnsProviderOptions.filter fun plugin => plugin.key ∉ disabled).Nodup :=
      List.Nodup.filter _ (by decide)
    rw [← List.toFinset_card_of_nodup hnodup] at hcount
    obtain ⟨plugin, hplugin, hne⟩ := Finset.exists_mem_ne hcount own
    simp only [List.mem_toFinset, List.mem_filter, decide_eq_true_eq] at hplugin
    refine ⟨plugin.key, key_mem hplugin.1, fun hmem => ?_⟩
    simp only [List.mem_filter, List.mem_cons, decide_eq_true_eq] at hmem
    rcases hmem.2 with heq | hdisabled
    · exact hne (eq_of_key hplugin.1 hown (heq.trans hownKey.symm))
    · exact hplugin.2 hdisabled
  · intro row hrow provider hprovider hmem
    simp only [List.mem_filter, List.mem_cons, decide_eq_true_eq] at hmem
    rw [setDisabledDnsPlugins_eq] at hrow
    rcases hmem.2 with heq | hdisabled
    · obtain ⟨used, hused, hnames⟩ := bind_eq_ok hunused
      have hrow' : row ∈ ApiKeys.listDnsZones host.db :=
        ApiKeys.mem_listDnsZones.mpr hrow
      obtain ⟨pair, hpair, hfirst⟩ := exists_of_mapM_eq_ok hused hrow'
      rw [hprovider, ok_bind] at hfirst
      have hfilter : used.filter (fun zone => zone.2 = key) = [] :=
        List.map_eq_nil_iff.mp (Except.ok.inj hnames)
      have hno := List.filter_eq_nil_iff.mp hfilter pair hpair
      rw [← Except.ok.inj hfirst, heq] at hno
      simp at hno
    · exact h.zones row hrow provider hprovider hdisabled

/-- Enabling a plugin keeps the zones with enabled ones. -/
theorem onlyEnabled_enable (hF : P.fernet.Laws) (hjson : JsonLaws P dumps) {host : Host}
    (hkeyed : Keyed P host) {disabled : List Str} (h : OnlyEnabled P host disabled) (key : Str) :
    ∃ disabled', OnlyEnabled P
      { host with
        db := setDisabledDnsPlugins P dumps host.processKey host.db
          (disabled.filter fun k => k ≠ key) } disabled' := by
  have hkeys : ∀ k ∈ disabled.filter fun k => k ≠ key, k ∈ getKnownDnsProviderKeys := by
    intro k hk
    exact mem_disabled_known h.read (List.mem_filter.mp hk).1
  have hsub : ∀ k, k ∈ (getKnownDnsProviderKeys.filter fun k =>
      k ∈ disabled.filter fun k => k ≠ key) → k ∈ disabled := by
    intro k hk
    simp only [List.mem_filter, decide_eq_true_eq] at hk
    exact hk.2.1
  refine ⟨_, getDisabled_setDisabled hF hjson hkeyed.valid host.db hkeys, ?_, ?_⟩
  · obtain ⟨k, hk, hnot⟩ := h.enabled
    exact ⟨k, hk, fun hmem => hnot (hsub k hmem)⟩
  · intro row hrow provider hprovider hmem
    rw [setDisabledDnsPlugins_eq] at hrow
    exact h.zones row hrow provider hprovider (hsub provider hmem)

/-- What a restore brings agrees, so it agrees afterwards. -/
theorem onlyEnabled_restored (hF : P.fernet.Laws) {m : Moment} {cats : List Category}
    {payload : Dict} {host host' : Host} {db : Db} (hkeyed : Keyed P host)
    (hrestored : Restored P m cats payload host host' db) (h : Agrees P cats payload host) :
    ∃ disabled, OnlyEnabled P host' disabled := by
  obtain ⟨disabled, hread, henabled, hzones⟩ := h
  have hkey : host'.processKey = host.processKey := hrestored.files.processKey
  refine ⟨disabled, ?_, henabled, ?_⟩
  · rw [hkey, getDisabledDnsPlugins_eq,
      getSetting_restored hrestored hF hkeyed (by decide) (by decide)]
    exact hread
  · intro row hrow provider hprovider
    rw [hkey, zoneProvider_eq] at hprovider
    refine hzones _ ?_ provider hprovider
    rw [Incoming]
    rcases zone_restored hF hkeyed hrestored hrow with hkept | harchived
    · rw [if_neg hkept.1]
      exact ⟨row, hkept.2, rfl⟩
    · obtain ⟨hcat, item, hitem, token, hz, htext⟩ := harchived
      rw [if_pos hcat]
      exact ⟨item, hitem, row.val.zoneName, token, hz, htext⟩

/-- A request that leaves the disabled plugins alone. -/
theorem onlyEnabled_written (hF : P.fernet.Laws) (hjson : JsonLaws P dumps) {host : Host}
    (hkeyed : Keyed P host) {disabled : List Str} (h : OnlyEnabled P host disabled)
    {request : ZoneRequest}
    (hrestore : ∀ m payload categories, request ≠ .restore m payload categories)
    (htouches : disabledSpec.key ∉ request.touches) (hcond : KeepsEnabled P host request) :
    OnlyEnabled P (request.after P dumps host) disabled where
  read := by
    rw [processKey_after, getDisabledDnsPlugins_eq, getSetting_after hrestore htouches]
    exact h.read
  enabled := h.enabled
  zones := by
    intro row hrow provider hprovider
    rw [processKey_after, zoneProvider_eq] at hprovider
    rcases zone_after hF hkeyed request hrow with hold | hwritten
    · obtain ⟨r, hr, hval⟩ := hold
      refine h.zones r hr provider ?_
      rw [zoneProvider_eq, hval]
      exact hprovider
    · exact provider_of_writes hjson hrestore hcond h.read hwritten hprovider

/-- A request keeps the providers enabled under its condition. -/
theorem onlyEnabled_after (hF : P.fernet.Laws) (hjson : JsonLaws P dumps) (host : Host)
    (request : ZoneRequest)
    (h : Keyed P host ∧ ∃ disabled, OnlyEnabled P host disabled)
    (hcond : KeepsEnabled P host request) :
    Keyed P (request.after P dumps host) ∧
      ∃ disabled, OnlyEnabled P (request.after P dumps host) disabled := by
  obtain ⟨hkeyed, disabled, honly⟩ := h
  refine ⟨keyed_after hkeyed request, ?_⟩
  cases request with
  | create form =>
      exact ⟨disabled, onlyEnabled_written hF hjson hkeyed honly (fun _ _ _ heq => by contradiction)
        (by simp [ZoneRequest.touches]) hcond⟩
  | update zoneId form =>
      exact ⟨disabled, onlyEnabled_written hF hjson hkeyed honly (fun _ _ _ heq => by contradiction)
        (by simp [ZoneRequest.touches]) hcond⟩
  | delete zoneId detached =>
      exact ⟨disabled, onlyEnabled_written hF hjson hkeyed honly (fun _ _ _ heq => by contradiction)
        (by simp only [ZoneRequest.touches]; decide) hcond⟩
  | migrate =>
      exact ⟨disabled, onlyEnabled_written hF hjson hkeyed honly (fun _ _ _ heq => by contradiction)
        (by simp only [ZoneRequest.touches]; decide) hcond⟩
  | disable pluginKey =>
      dsimp only [ZoneRequest.after]
      rcases settingsPluginDisable_cases dumps host.db pluginKey with hdisabled | hsame
      · obtain ⟨disabled', hread, hknown, hcount, hunused, hafter⟩ := hdisabled
        have heq : disabled' = disabled := Except.ok.inj (hread.symm.trans honly.read)
        rw [heq] at hcount hafter
        rw [hafter]
        exact onlyEnabled_disable hF hjson hkeyed honly hknown hcount hunused
      · rw [hsame]
        exact ⟨disabled, honly⟩
  | enable pluginKey =>
      dsimp only [ZoneRequest.after]
      rcases settingsPluginEnable_cases dumps host.db pluginKey with henabled | hsame
      · obtain ⟨disabled', hread, hafter⟩ := henabled
        have heq : disabled' = disabled := Except.ok.inj (hread.symm.trans honly.read)
        rw [heq] at hafter
        rw [hafter]
        exact onlyEnabled_enable hF hjson hkeyed honly _
      · rw [hsame]
        exact ⟨disabled, honly⟩
  | restore m payload categories =>
      dsimp only [ZoneRequest.after]
      rcases restore_cases m payload categories host with hrestored | hsame
      · obtain ⟨db, hrestored, hcommits⟩ := hrestored
        exact onlyEnabled_restored hF hkeyed hrestored (hcond hcommits)
      · rw [hsame]
        exact ⟨disabled, honly⟩

/-- In every run whose restores and migrations agree with the plugins that are
disabled, no zone has a disabled provider and a plugin is enabled, in every
state. -/
theorem onlyEnabled_of_run (hF : P.fernet.Laws) (hjson : JsonLaws P dumps) {host : Host}
    (hkeyed : Keyed P host) (honly : ∃ disabled, OnlyEnabled P host disabled)
    {requests : List ZoneRequest} (hmeets : MeetsRun P dumps (KeepsEnabled P) host requests) (n : Nat) :
    ∃ disabled, OnlyEnabled P (run P dumps host (requests.take n)) disabled :=
  (invariant_of_run (onlyEnabled_after hF hjson) ⟨hkeyed, honly⟩ hmeets n).2

/-! ## an older archive -/

/-- A new host has no zone. -/
theorem onlyEnabled_newHost : ∃ disabled, OnlyEnabled Compact.platform newHost disabled :=
  ⟨[], by decide, ⟨lit "bind", by decide⟩, fun row hrow => by
    simp [newHost, Db.empty, Table.empty] at hrow⟩

/-- A plugin is disabled, a zone of another one is made, and the other plugin is
not disabled. -/
def guardedRun : List ZoneRequest :=
  [.disable (lit "Azure"), .create namedForm, .disable (lit "bind"), .enable (lit "azure")]

theorem onlyEnabled_of_run_guarded :
    ∃ disabled, OnlyEnabled Compact.platform
      (run Compact.platform Compact.dumps newHost (guardedRun.take 4)) disabled := by
  have hmeets : MeetsRun Compact.platform Compact.dumps (KeepsEnabled Compact.platform) newHost
      guardedRun := ⟨trivial, trivial, trivial, trivial, trivial⟩
  exact onlyEnabled_of_run Fernet.plain_laws Compact.laws keyed_newHost onlyEnabled_newHost hmeets 4

/-- Settings that were saved when BIND was disabled. -/
def olderPayload : Dict :=
  [(lit "manifest", .obj [(lit "envelope_encrypted", .bool true)]),
    (lit "settings", .arr [.obj [(lit "name", .str disabledSpec.key),
      (lit "value", .str (encryptValue Compact.platform hostKey (lit "[\"bind\"]")))]]),
    (lit "application_secrets", .obj [
      (lit "SECRET_KEY", .str (lit "0123456789abcdef0123456789abcdef")),
      (lit "ENCRYPTION_KEY", .str hostKey)])]

/-- A BIND zone is made, and the settings are restored. -/
def disablingRun : List ZoneRequest :=
  [.create namedForm, .restore calm olderPayload [lit "settings", lit "application_secrets"]]

set_option maxRecDepth 8000 in
theorem not_onlyEnabled_restored :
    (∃ disabled, OnlyEnabled Compact.platform newHost disabled) ∧
      ¬∃ disabled, OnlyEnabled Compact.platform
        (run Compact.platform Compact.dumps newHost disablingRun) disabled := by
  refine ⟨onlyEnabled_newHost, fun h => ?_⟩
  obtain ⟨disabled, h⟩ := h
  have hread : getDisabledDnsPlugins Compact.platform hostKey
      (run Compact.platform Compact.dumps newHost disablingRun).db = .ok [lit "bind"] := by
    decide +kernel
  have hzone : ∃ row ∈ (run Compact.platform Compact.dumps newHost disablingRun).db.zones.rows,
      zoneProvider Compact.platform hostKey row.val = .ok (lit "bind") := by
    decide +kernel
  obtain ⟨row, hrow, hprovider⟩ := hzone
  have hkey : (run Compact.platform Compact.dumps newHost disablingRun).processKey = hostKey := by
    decide +kernel
  have hdisabled := h.read
  rw [hkey, hread] at hdisabled
  rw [← hkey] at hprovider
  exact h.zones row hrow _ hprovider (by simp [← Except.ok.inj hdisabled])

end ApiToDns.Zones
