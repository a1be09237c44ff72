import ApiToDns.Backup.Build
import ApiToDns.JsonLaws
import ApiToDns.ZoneConfig

/-!
# Zones.Forms

The configuration that the form of a zone asks for
(`zone_service.build_zone_config_from_form`), with the fields that the
provider plugins declare.

* `buildZoneConfigFromForm` — the configuration, or the refusal of the form;
* `configOf`, `buildZoneConfigFromForm_eq_ok_iff` — what is built, and when;
* `readBack_configOf` — it is read back from its text.
-/

namespace ApiToDns.Zones

open Py Backup

/-! ## plugins -/

/-- The `type` of a field. -/
inductive FieldType where
  | text
  | password
  | checkbox
deriving DecidableEq, Repr

/-- `PluginField`, without what is shown of it. -/
structure PluginField where
  name : Str
  type : FieldType := .text
  default : Str := []
  preserveOnBlank : Bool := false
deriving DecidableEq, Repr

/-- `DnsProviderPlugin`, without its heading and its help. -/
structure DnsProviderPlugin where
  key : Str
  label : Str
  fields : List PluginField
deriving DecidableEq, Repr

/-- `DNS_ZONE_DOMAIN_FIELD`. -/
def dnsZoneDomainField : PluginField := { name := lit "dns_zone" }

/-- A password that a blank field keeps. -/
def secretField (name : Str) : PluginField :=
  { name, type := .password, preserveOnBlank := true }

/-- `azure.PLUGIN`. -/
def azurePlugin : DnsProviderPlugin where
  key := lit "azure"
  label := lit "Azure DNS (REST API)"
  fields :=
    [dnsZoneDomainField, { name := lit "azure_tenant_id" }, { name := lit "azure_client_id" },
      secretField (lit "azure_client_secret"), { name := lit "azure_subscription_id" },
      { name := lit "azure_resource_group" }]

/-- `bind.PLUGIN`. -/
def bindPlugin : DnsProviderPlugin where
  key := lit "bind"
  label := lit "BIND / RFC 2136 (TSIG)"
  fields :=
    [dnsZoneDomainField, { name := lit "dns_server" }, { name := lit "dns_username" },
      secretField (lit "dns_password"),
      { name := lit "dns_tsig_algorithm", default := lit "hmac-sha256" }]

/-- `cloudflare.PLUGIN`. -/
def cloudflarePlugin : DnsProviderPlugin where
  key := lit "cloudflare"
  label := lit "Cloudflare DNS (REST API)"
  fields :=
    [dnsZoneDomainField, secretField (lit "cloudflare_api_token"),
      { name := lit "cloudflare_zone_id" },
      { name := lit "cloudflare_proxied", type := .checkbox }]

/-- `microsoft.PLUGIN`. -/
def microsoftPlugin : DnsProviderPlugin where
  key := lit "microsoft"
  label := lit "Microsoft DNS (WinRM)"
  fields :=
    [dnsZoneDomainField, { name := lit "dns_server" }, { name := lit "dns_username" },
      secretField (lit "dns_password"), { name := lit "dns_winrm_ssl", type := .checkbox },
      { name := lit "dns_winrm_insecure_tls", type := .checkbox }]

/-- `get_dns_provider_options`: the plugins in the order of their keys. -/
def getDnsProviderOptions : List DnsProviderPlugin :=
  [azurePlugin, bindPlugin, cloudflarePlugin, microsoftPlugin]

/-- `get_known_dns_provider_keys`. -/
def getKnownDnsProviderKeys : List Str := getDnsProviderOptions.map DnsProviderPlugin.key

/-- A field that every plugin may have: its name occurs once, and is not that of
the provider. -/
def WellNamed (plugin : DnsProviderPlugin) : Prop :=
  (lit "dns_provider_type" :: plugin.fields.map PluginField.name).Nodup

instance (plugin : DnsProviderPlugin) : Decidable (WellNamed plugin) :=
  inferInstanceAs (Decidable (List.Nodup _))

/-- What the code of the forms relies on in a plugin. -/
theorem plugin_fields {plugin : DnsProviderPlugin} (h : plugin ∈ getDnsProviderOptions) :
    WellNamed plugin ∧ dnsZoneDomainField ∈ plugin.fields ∧
      ∃ secret ∈ plugin.fields, secret.preserveOnBlank = true := by
  have hall : ∀ plugin ∈ getDnsProviderOptions, WellNamed plugin ∧
      dnsZoneDomainField ∈ plugin.fields ∧
        ∃ secret ∈ plugin.fields, secret.preserveOnBlank = true := by
    decide
  exact hall plugin h

variable (U : Ucd)

/-- `dns_provider_display_name`. -/
def dnsProviderDisplayName (providerKey : Str) : Str :=
  match getDnsProviderOptions.find? fun p => p.key = U.lower (strip providerKey) with
  | some plugin => plugin.label
  | none => strip providerKey

/-! ## the form -/

/-- A submitted form, by `form.get`. -/
abbrev Form := Str → Option Str

/-- `_blank_preserve_secret`, of a text and what was stored. -/
def blankPreserveSecret (newVal : Str) (oldVal : Json) : Json :=
  if strip newVal = [] then oldVal else .str newVal

/-- The provider of a configuration. -/
def storedProvider (cfg : Json) : Except Exc Str := do
  let stored := (← asDict cfg).get (lit "dns_provider_type")
  let provider ← asText (stored.orElse (.str (lit "azure")))
  .ok (U.lower (strip provider))

/-- The provider of a form, or of the configuration there is. -/
def formProvider (form : Form) (ex : Json) : Except Exc Str :=
  match form (lit "dns_provider_type") with
  | some (c :: cs) => .ok (U.lower (strip (c :: cs)))
  | _ => storedProvider U ex

/-- The submitted value of a field. -/
def submittedValue (form : Form) (field : PluginField) : Str :=
  if field.type = .checkbox then if (form field.name).isSome then lit "true" else []
  else strip ((form field.name).getD [])

/-- The value that is stored of a field. -/
def fieldValue (form : Form) (ex : Json) (field : PluginField) : Except Exc Json :=
  let value := submittedValue form field
  if field.preserveOnBlank then do
    .ok (blankPreserveSecret value ((← asDict ex).getD field.name (.str [])))
  else if value = [] ∧ field.default ≠ [] then do
    let old := (← asDict ex).get field.name
    .ok (.str (if old.truthy then value else field.default))
  else .ok (.str value)

/-- `build_zone_config_from_form`; no existing configuration is an empty one. -/
def buildZoneConfigFromForm (form : Form) (existing : Json) (providerPlugins : List DnsProviderPlugin) :
    Except Exc Dict := do
  let ex := existing.orElse (.obj [])
  let provider ← formProvider U form ex
  match providerPlugins.find? fun p => p.key = provider with
  | none =>
      if provider ∈ getKnownDnsProviderKeys then
        .error (.valueError (dnsProviderDisplayName U provider ++
          lit " is disabled. Enable it in Settings before using it for a DNS zone."))
      else
        let available := join (lit ", ") (providerPlugins.map DnsProviderPlugin.key)
        .error (.valueError (lit "Unknown DNS provider type: " ++ provider ++
          lit ". Available providers: " ++
          (if available = [] then lit "none" else available) ++ lit "."))
  | some plugin =>
      plugin.fields.foldlM
        (fun cfg field => do .ok (setKey cfg field.name (← fieldValue form ex field)))
        [(lit "dns_provider_type", .str provider)]

/-! ## what is built -/

section Built

variable (form : Form) (ex : Dict)

/-- The value that is stored of a field, over a configuration that is a
dictionary. -/
def storedValue (field : PluginField) : Json :=
  if field.preserveOnBlank then
    blankPreserveSecret (submittedValue form field) (ex.getD field.name (.str []))
  else if submittedValue form field = [] ∧ field.default ≠ [] ∧ (ex.get field.name).truthy = false then
    .str field.default
  else .str (submittedValue form field)

/-- The configuration that is built for a plugin. -/
def configOf (plugin : DnsProviderPlugin) : Dict :=
  (lit "dns_provider_type", .str plugin.key) ::
    plugin.fields.map fun field => (field.name, storedValue form ex field)

/-- What a field of the form is stored as. -/
theorem fieldValue_obj (field : PluginField) :
    fieldValue form (.obj ex) field = .ok (storedValue form ex field) := by
  unfold fieldValue storedValue
  split
  · rfl
  · by_cases hblank : submittedValue form field = [] ∧ field.default ≠ []
    · cases htruthy : (ex.get field.name).truthy <;> simp [hblank, asDict, htruthy]
    · rw [if_neg hblank, if_neg fun h => hblank ⟨h.1, h.2.1⟩]

/-- Setting a new name adds it at the end. -/
theorem setKey_of_not_mem {d : Dict} {name : Str} (h : name ∉ d.names) (value : Json) :
    setKey d name value = d ++ [(name, value)] := by
  have hhas : d.has name = false := by
    rw [Dict.has, List.any_eq_false]
    intro field hfield hname
    exact h (List.mem_map.mpr ⟨field, hfield, by simpa using hname⟩)
  rw [setKey, hhas]
  rfl

/-- The fields are stored one by one. -/
theorem foldlM_fields (fields : List PluginField) (start : Dict)
    (h : (start.names ++ fields.map PluginField.name).Nodup) :
    fields.foldlM
        (fun cfg field => do .ok (setKey cfg field.name (← fieldValue form (.obj ex) field))) start =
      (.ok (start ++ fields.map fun field => (field.name, storedValue form ex field)) :
        Except Exc Dict) := by
  induction fields generalizing start with
  | nil => simp [pure, Except.pure]
  | cons field fields ih =>
      have hnot : field.name ∉ start.names := by
        intro hmem
        exact (List.nodup_append.mp h).2.2 _ hmem field.name (by simp) rfl
      have hrest : ((start ++ [(field.name, storedValue form ex field)]).names ++
          fields.map PluginField.name).Nodup := by
        simpa [Dict.names] using h
      rw [List.foldlM_cons, fieldValue_obj]
      simp only [bind, Except.bind, setKey_of_not_mem hnot]
      have hih := ih _ hrest
      simp only [bind, Except.bind] at hih
      rw [hih]
      simp

end Built

/-- A configuration that is not a dictionary is not edited. -/
theorem fieldValue_not_obj (form : Form) {ex : Json} {field : PluginField}
    (hblank : field.preserveOnBlank = true) (h : ∀ d, ex ≠ .obj d) :
    fieldValue form ex field = .error attributeError := by
  unfold fieldValue
  rw [if_pos hblank]
  cases ex with
  | obj d => exact absurd rfl (h d)
  | _ => rfl

/-- A field that raises stops the form. -/
theorem not_foldlM_of_error {form : Form} {ex : Json} {fields : List PluginField}
    {field : PluginField} (hfield : field ∈ fields) {exc : Exc}
    (h : fieldValue form ex field = .error exc) (start cfg : Dict) :
    fields.foldlM (fun cfg field => do .ok (setKey cfg field.name (← fieldValue form ex field)))
      start ≠ (.ok cfg : Except Exc Dict) := by
  induction fields generalizing start with
  | nil => simp at hfield
  | cons first fields ih =>
      rw [List.foldlM_cons]
      rcases List.mem_cons.mp hfield with heq | hrest
      · rw [← heq, h]
        simp [bind, Except.bind]
      · cases hfirst : fieldValue form ex first with
        | error exc => simp [bind, Except.bind]
        | ok value => exact ih hrest _

/-- Plugins differ in their keys. -/
theorem eq_of_key {p q : DnsProviderPlugin} (hp : p ∈ getDnsProviderOptions)
    (hq : q ∈ getDnsProviderOptions) (h : p.key = q.key) : p = q := by
  have hall : ∀ p ∈ getDnsProviderOptions, ∀ q ∈ getDnsProviderOptions, p.key = q.key → p = q := by
    decide
  exact hall p hp q hq h

/-- The key of a plugin is as it is compared. -/
theorem lower_strip_key (U : Ucd) {key : Str} (h : key ∈ getKnownDnsProviderKeys) :
    U.lower (strip key) = key := by
  have hall : ∀ key ∈ getKnownDnsProviderKeys,
      strip key = key ∧ (∀ c ∈ key, isAscii c = true) ∧ foldAscii key = key := by
    decide
  obtain ⟨hstrip, hascii, hfold⟩ := hall key h
  rw [hstrip, U.lower_ascii hascii, hfold]

/-- The key of a plugin is known. -/
theorem key_mem {plugin : DnsProviderPlugin} (h : plugin ∈ getDnsProviderOptions) :
    plugin.key ∈ getKnownDnsProviderKeys := List.mem_map_of_mem h

/-- Plugins that are there, in some order. -/
def Known (plugins : List DnsProviderPlugin) : Prop := ∀ p ∈ plugins, p ∈ getDnsProviderOptions

/-- A plugin is found by its key. -/
theorem find?_key_iff {plugins : List DnsProviderPlugin} (hplugins : Known plugins)
    {provider : Str} {plugin : DnsProviderPlugin} :
    plugins.find? (fun p => p.key = provider) = some plugin ↔
      plugin ∈ plugins ∧ plugin.key = provider := by
  constructor
  · intro h
    exact ⟨List.mem_of_find?_eq_some h, by simpa using List.find?_some h⟩
  · intro h
    obtain ⟨hmem, hkey⟩ := h
    cases hfind : plugins.find? fun p => p.key = provider with
    | none => simpa [hkey] using List.find?_eq_none.mp hfind plugin hmem
    | some found =>
        have hfound := List.mem_of_find?_eq_some hfind
        have hkey' : found.key = provider := by simpa using List.find?_some hfind
        rw [eq_of_key (hplugins _ hfound) (hplugins _ hmem) (hkey'.trans hkey.symm)]

/-- A form is accepted exactly if it asks for a plugin that may be used, and the
configuration there is is a dictionary. -/
theorem buildZoneConfigFromForm_eq_ok_iff {plugins : List DnsProviderPlugin}
    (hplugins : Known plugins) {form : Form} {existing : Json} {cfg : Dict} :
    buildZoneConfigFromForm U form existing plugins = .ok cfg ↔
      ∃ ex plugin, existing.orElse (.obj []) = .obj ex ∧
        formProvider U form (.obj ex) = .ok plugin.key ∧ plugin ∈ plugins ∧
        cfg = configOf form ex plugin := by
  unfold buildZoneConfigFromForm
  dsimp only
  constructor
  · intro h
    obtain ⟨provider, hprovider, h⟩ := bind_eq_ok h
    cases hfind : plugins.find? fun p => p.key = provider with
    | none =>
        rw [hfind] at h
        dsimp only at h
        split at h <;> contradiction
    | some plugin =>
        rw [hfind] at h
        dsimp only at h
        obtain ⟨hmem, hkey⟩ := (find?_key_iff hplugins).mp hfind
        obtain ⟨hnames, -, secret, hsecret, hpreserve⟩ := plugin_fields (hplugins _ hmem)
        by_cases hdict : ∃ ex, existing.orElse (.obj []) = .obj ex
        · obtain ⟨ex, hex⟩ := hdict
          rw [hex] at hprovider h
          have hfold := foldlM_fields form ex plugin.fields
            [(lit "dns_provider_type", .str provider)] hnames
          rw [hfold] at h
          refine ⟨ex, plugin, hex, hkey ▸ hprovider, hmem, ?_⟩
          rw [← Except.ok.inj h, configOf, hkey]
          rfl
        · have herror := fieldValue_not_obj form hpreserve fun d hd => hdict ⟨d, hd⟩
          exact absurd h (not_foldlM_of_error hsecret herror _ _)
  · intro h
    obtain ⟨ex, plugin, hex, hprovider, hmem, hcfg⟩ := h
    obtain ⟨hnames, -⟩ := plugin_fields (hplugins _ hmem)
    have hfind := (find?_key_iff hplugins).mpr ⟨hmem, rfl⟩
    rw [hex, hprovider]
    simp only [bind, Except.bind]
    rw [hfind]
    have hfold := foldlM_fields form ex plugin.fields
      [(lit "dns_provider_type", .str plugin.key)] hnames
    simp only [bind, Except.bind] at hfold
    dsimp only
    rw [hfold, hcfg]
    rfl

/-! ## what the configuration says -/

/-- A name that is there once has the value that is next to it. -/
theorem get_of_mem {d : Dict} (hnames : d.names.Nodup) {name : Str} {value : Json}
    (h : (name, value) ∈ d) : d.get name = value := by
  induction d with
  | nil => simp at h
  | cons field d ih =>
      obtain ⟨hfield, hd⟩ := List.nodup_cons.mp hnames
      rcases List.mem_cons.mp h with heq | hrest
      · simp [Dict.get, ← heq]
      · have hne : field.1 ≠ name := by
          intro heq
          exact hfield (List.mem_map.mpr ⟨_, hrest, heq.symm⟩)
        rw [Dict.get, List.find?_cons, beq_false_of_ne hne]
        exact ih hd hrest

variable {form : Form} {ex : Dict} {plugin : DnsProviderPlugin}

/-- The names of the fields of a configuration. -/
theorem names_configOf :
    (configOf form ex plugin).names = lit "dns_provider_type" :: plugin.fields.map PluginField.name := by
  simp [configOf, Dict.names]

/-- The provider of a configuration. -/
theorem get_provider : (configOf form ex plugin).get (lit "dns_provider_type") = .str plugin.key := by
  simp [configOf, Dict.get]

/-- A field of a configuration. -/
theorem get_field (hplugin : plugin ∈ getDnsProviderOptions) {field : PluginField}
    (h : field ∈ plugin.fields) :
    (configOf form ex plugin).get field.name = storedValue form ex field := by
  refine get_of_mem ?_ ?_
  · rw [names_configOf]
    exact (plugin_fields hplugin).1
  · exact List.mem_cons_of_mem _ (List.mem_map.mpr ⟨field, h, rfl⟩)

/-- The zone that a form asks for. -/
def formZone (form : Form) : Str := normalizeZoneName U (strip ((form (lit "dns_zone")).getD []))

/-- The zone of a configuration is the one that was submitted, without a check. -/
theorem providerDnsZone_configOf (hplugin : plugin ∈ getDnsProviderOptions) :
    providerDnsZone U (configOf form ex plugin) =
      if formZone U form = [] then
        .error (.valueError (lit "DNS zone (domain) is required in the zone configuration."))
      else .ok (formZone U form) := by
  have hget : (configOf form ex plugin).get dnsZoneDomainField.name =
      storedValue form ex dnsZoneDomainField := get_field hplugin (plugin_fields hplugin).2.1
  have hstored : storedValue form ex dnsZoneDomainField =
      .str (strip ((form (lit "dns_zone")).getD [])) := by
    simp [storedValue, dnsZoneDomainField, submittedValue]
  have htext : (Json.orElse (.str (strip ((form (lit "dns_zone")).getD []))) (.str [])).pyStr U =
      strip ((form (lit "dns_zone")).getD []) := by
    cases strip ((form (lit "dns_zone")).getD []) <;> simp [Json.orElse, Json.truthy]
  rw [hstored] at hget
  rw [providerDnsZone, show lit "dns_zone" = dnsZoneDomainField.name from rfl, hget, htext]
  rfl

/-- A stored configuration is read back as it was built, if what it keeps was
read before. -/
theorem readBack_configOf {P : Platform} {dumps : Json → Str} (hjson : JsonLaws P dumps)
    (hplugin : plugin ∈ getDnsProviderOptions) (hex : ReadBack P dumps (.obj ex)) :
    ReadBack P dumps (.obj (configOf form ex plugin)) := by
  have hvalues := ((hjson.obj ex).mp hex).2
  have hget : ∀ name, ReadBack P dumps (ex.getD name (.str [])) := by
    intro name
    unfold Dict.getD Dict.get
    split
    · split
      · next field hfield => exact hvalues field (List.mem_of_find?_eq_some hfield)
      · exact hjson.null
    · exact hjson.str []
  rw [hjson.obj, names_configOf]
  refine ⟨(plugin_fields hplugin).1, fun field hfield => ?_⟩
  rcases List.mem_cons.mp hfield with heq | hmem
  · rw [heq]
    exact hjson.str _
  · obtain ⟨pluginField, -, heq⟩ := List.mem_map.mp hmem
    rw [← heq]
    dsimp only
    unfold storedValue blankPreserveSecret
    split
    · split
      · exact hget _
      · exact hjson.str _
    · split <;> exact hjson.str _

end ApiToDns.Zones
