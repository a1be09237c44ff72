import ApiToDns.Zones.Forms

/-!
# Zones.Clients

The client that the settings of a zone make (`create_client` of the plugins,
`zone_service.create_dns_client_from_settings`), and the form that shows these
settings to an editor (`templates/zone_form.html`).

* `createDnsClient` — the client, or what is missing;
* `editForm` — the form as the page sends it back;
* `save_unchanged` — saving it unchanged makes the same client.
-/

namespace ApiToDns.Zones

open Py

/-- What a client is made from; the names and the key of BIND as texts. -/
inductive DnsClient where
  | azure (tenantId clientId clientSecret subscriptionId resourceGroup : Json)
  | bind (tsigKeyName : Str) (secret : List UInt8) (tsigAlgorithm : Str)
  | cloudflare (apiToken : Json) (zoneId : Option Str) (proxied : Bool)
  | microsoft (username password : Json) (useSsl insecureTls : Bool)

/-- `settings.get(name) or ""`. -/
def textSetting (settings : Dict) (name : Str) : Json := (settings.get name).orElse (.str [])

variable (U : Ucd)

def truthySettingTexts : List Str := [lit "1", lit "true", lit "yes", lit "on"]

/-- `_truthy_setting` of the Microsoft plugin, for `value or ""`. -/
def truthySetting (value : Json) : Except Exc Bool := do
  let text ← asText value
  .ok (U.lower (strip text) ∈ truthySettingTexts)

/-- `_truthy` of the Cloudflare plugin. -/
def truthy (value : Json) : Bool :=
  match value with
  | .null => false
  | value => U.lower (strip (value.pyStr U)) ∈ truthySettingTexts

/-- `azure.create_client`. -/
def createAzureClient (settings : Dict) : Except Exc DnsClient :=
  let tenantId := textSetting settings (lit "azure_tenant_id")
  let clientId := textSetting settings (lit "azure_client_id")
  let clientSecret := textSetting settings (lit "azure_client_secret")
  let subscriptionId := textSetting settings (lit "azure_subscription_id")
  let resourceGroup := textSetting settings (lit "azure_resource_group")
  if ¬(tenantId.truthy ∧ clientId.truthy ∧ clientSecret.truthy) then
    .error (.valueError
      (lit "Azure DNS requires tenant id, client id, and client secret in application settings."))
  else if ¬subscriptionId.truthy then
    .error (.valueError (lit "Azure DNS requires subscription id in zone settings."))
  else if ¬resourceGroup.truthy then
    .error (.valueError (lit "Azure DNS requires resource group in zone settings."))
  else .ok (.azure tenantId clientId clientSecret subscriptionId resourceGroup)

/-- A name with the dot of the root. -/
def absolute (name : Str) : Str := if endsWith name ['.'] then name else name ++ ['.']

/-- `base64.b64decode(tsig_secret_b64.strip())`, whatever raises in it. -/
def tsigSecret (secret : Json) : Option (List UInt8) :=
  match secret with
  | .str text => Base64.b64decode false (strip text)
  | _ => none

/-- `bind.create_client`. -/
def createBindClient (settings : Dict) : Except Exc DnsClient := do
  let keyName := textSetting settings (lit "dns_username")
  let secret := textSetting settings (lit "dns_password")
  let algorithm := (settings.get (lit "dns_tsig_algorithm")).orElse (.str (lit "hmac-sha256"))
  if ¬(keyName.truthy ∧ secret.truthy) then
    .error (.valueError
      (lit "BIND DNS requires a TSIG key name and secret (base64) in the credentials fields."))
  else
    match tsigSecret secret with
    | none =>
        .error (.valueError (lit "TSIG secret must be valid base64 (as in BIND named.conf)."))
    | some secret => do
        let keyName ← asText keyName
        let algorithm ← asText algorithm
        .ok (.bind (absolute keyName) secret (absolute algorithm))

/-- `cloudflare.create_client`. -/
def createCloudflareClient (settings : Dict) : Except Exc DnsClient := do
  let apiToken := textSetting settings (lit "cloudflare_api_token")
  let zoneId := textSetting settings (lit "cloudflare_zone_id")
  let proxied := truthy U (settings.get (lit "cloudflare_proxied"))
  if ¬apiToken.truthy then
    .error (.valueError (lit "Cloudflare DNS requires an API token (zone DNS Edit/Read)."))
  else do
    let zoneId ← asText zoneId
    .ok (.cloudflare apiToken (if strip zoneId = [] then none else some (strip zoneId)) proxied)

/-- `microsoft.create_client`. -/
def createMicrosoftClient (settings : Dict) : Except Exc DnsClient := do
  let useSsl ← truthySetting U (textSetting settings (lit "dns_winrm_ssl"))
  let insecureTls ← truthySetting U (textSetting settings (lit "dns_winrm_insecure_tls"))
  let username := textSetting settings (lit "dns_username")
  let password := textSetting settings (lit "dns_password")
  if ¬(username.truthy ∧ password.truthy) then
    .error (.valueError (lit "Microsoft DNS (WinRM) requires username and password in settings."))
  else .ok (.microsoft username password useSsl insecureTls)

/-- `get_plugin(key).create_client(settings)`. -/
def createClientOf (key : Str) (settings : Dict) : Except Exc DnsClient :=
  if key = lit "azure" then createAzureClient settings
  else if key = lit "bind" then createBindClient settings
  else if key = lit "cloudflare" then createCloudflareClient U settings
  else if key = lit "microsoft" then createMicrosoftClient U settings
  else
    .error (.valueError (lit "Unknown DNS provider type: " ++ key ++ lit ". Available providers: " ++
      join (lit ", ") getKnownDnsProviderKeys ++ lit "."))

/-- `create_dns_client`. -/
def createDnsClient (settings : Dict) : Except Exc DnsClient := do
  createClientOf U (← storedProvider U (.obj settings)) settings

/-- `create_dns_client_from_settings` with the plugins that are disabled. -/
def createDnsClientFromSettings (settings : Dict) (disabled : List Str) : Except Exc DnsClient := do
  let provider ← storedProvider U (.obj settings)
  if provider ∈ disabled then
    .error (.providerDisabled (dnsProviderDisplayName U provider ++
      lit " is disabled. Enable it in Settings before using it for DNS operations."))
  else createDnsClient U settings

/-! ## settings that make the same client -/

/-- The settings for which the clients take a missing one for an empty text. -/
def clientTexts : List Str :=
  [lit "azure_tenant_id", lit "azure_client_id", lit "azure_client_secret",
    lit "azure_subscription_id", lit "azure_resource_group", lit "dns_username", lit "dns_password",
    lit "dns_winrm_ssl", lit "dns_winrm_insecure_tls", lit "cloudflare_api_token",
    lit "cloudflare_zone_id"]

/-- Two settings that no client tells apart. -/
structure SameClient (settings settings' : Dict) : Prop where
  provider : storedProvider U (.obj settings') = storedProvider U (.obj settings)
  texts : ∀ name ∈ clientTexts, textSetting settings' name = textSetting settings name
  algorithm : (settings'.get (lit "dns_tsig_algorithm")).orElse (.str (lit "hmac-sha256")) =
    (settings.get (lit "dns_tsig_algorithm")).orElse (.str (lit "hmac-sha256"))
  proxied : settings'.get (lit "cloudflare_proxied") = settings.get (lit "cloudflare_proxied")

variable {U}

/-- The client depends on the settings it reads only. -/
theorem createClientOf_congr {settings settings' : Dict} (h : SameClient U settings settings')
    (key : Str) : createClientOf U key settings' = createClientOf U key settings := by
  have htexts := h.texts
  simp only [clientTexts, List.forall_mem_cons, List.not_mem_nil, false_implies, implies_true,
    and_true] at htexts
  obtain ⟨htenant, hclient, hsecret, hsubscription, hgroup, huser, hpassword, hssl, htls, htoken,
    hzone⟩ := htexts
  have hazure : createAzureClient settings' = createAzureClient settings := by
    simp only [createAzureClient, htenant, hclient, hsecret, hsubscription, hgroup]
  have hbind : createBindClient settings' = createBindClient settings := by
    simp only [createBindClient, huser, hpassword, h.algorithm]
  have hcloudflare : createCloudflareClient U settings' = createCloudflareClient U settings := by
    simp only [createCloudflareClient, htoken, hzone, h.proxied]
  have hmicrosoft : createMicrosoftClient U settings' = createMicrosoftClient U settings := by
    simp only [createMicrosoftClient, hssl, htls, huser, hpassword]
  simp only [createClientOf, hazure, hbind, hcloudflare, hmicrosoft]

/-- The same client is made from both, whatever is disabled. -/
theorem SameClient.client_eq {settings settings' : Dict} (h : SameClient U settings settings')
    (disabled : List Str) :
    createDnsClientFromSettings U settings' disabled =
      createDnsClientFromSettings U settings disabled := by
  simp only [createDnsClientFromSettings, createDnsClient, h.provider, createClientOf_congr h]

/-! ## the form of a zone -/

variable (U) in
/-- What the form of a zone sends for the plugin's fields when it is not touched:
passwords are not shown, a flag is checked if there is a value, and an empty text
shows the default. -/
def editForm (settings : Dict) (plugin : DnsProviderPlugin) : Form := fun name =>
  if name = lit "dns_provider_type" then some plugin.key
  else
    match plugin.fields.find? fun field => field.name = name with
    | none => none
    | some field =>
        let value := settings.getD field.name (.str field.default)
        match field.type with
        | .checkbox => if value.truthy then some (lit "true") else none
        | .password => some []
        | .text => some ((value.orElse (.str field.default)).pyStr U)

/-- What the form relies on in a field. -/
theorem field_shape {plugin : DnsProviderPlugin} (hplugin : plugin ∈ getDnsProviderOptions)
    {field : PluginField} (hfield : field ∈ plugin.fields) :
    field.name ≠ lit "dns_provider_type" ∧ strip field.default = field.default ∧
      (field.type = .password ↔ field.preserveOnBlank = true) ∧
      (field.name ≠ lit "dns_tsig_algorithm" → field.default = []) ∧
      (field.name = lit "dns_tsig_algorithm" → field.default = lit "hmac-sha256") ∧
      (field.type = .checkbox → field.default = []) := by
  have hall : ∀ plugin ∈ getDnsProviderOptions, ∀ field ∈ plugin.fields,
      field.name ≠ lit "dns_provider_type" ∧ strip field.default = field.default ∧
        (field.type = .password ↔ field.preserveOnBlank = true) ∧
        (field.name ≠ lit "dns_tsig_algorithm" → field.default = []) ∧
        (field.name = lit "dns_tsig_algorithm" → field.default = lit "hmac-sha256") ∧
        (field.type = .checkbox → field.default = []) := by
    decide
  exact hall plugin hplugin field hfield

/-- A field of a plugin is found by its name. -/
theorem find?_field {plugin : DnsProviderPlugin} (hplugin : plugin ∈ getDnsProviderOptions)
    {field : PluginField} (hfield : field ∈ plugin.fields) :
    plugin.fields.find? (fun f => f.name = field.name) = some field := by
  have hall : ∀ plugin ∈ getDnsProviderOptions, ∀ field ∈ plugin.fields,
      plugin.fields.find? (fun f => f.name = field.name) = some field := by
    decide
  exact hall plugin hplugin field hfield

section Saved

variable {form : Form} {ex : Dict} {plugin : DnsProviderPlugin}

/-- A text or its default. -/
theorem orElse_str (s default : Str) :
    (Json.str s).orElse (.str default) = .str (if s = [] then default else s) := by
  cases s <;> simp [Json.orElse, Json.truthy]

/-- A default counts once. -/
theorem orElse_orElse (x y : Json) : (x.orElse y).orElse y = x.orElse y := by
  cases hx : x.truthy <;> simp [Json.orElse, hx]

/-- What is stored of a field that is no secret is a stripped text. -/
theorem storedValue_text (form : Form) (ex : Dict) (hplugin : plugin ∈ getDnsProviderOptions) {field : PluginField}
    (hfield : field ∈ plugin.fields) (hpreserve : field.preserveOnBlank = false) :
    ∃ s, storedValue form ex field = .str s ∧ strip s = s ∧
      (field.type = .checkbox → s = [] ∨ s = lit "true") := by
  obtain ⟨-, hdefault, -, -, -, hcheckbox⟩ := field_shape hplugin hfield
  have hsubmitted : strip (submittedValue form field) = submittedValue form field ∧
      (field.type = .checkbox → submittedValue form field = [] ∨
        submittedValue form field = lit "true") := by
    unfold submittedValue
    split
    · split
      · exact ⟨by decide, fun _ => .inr rfl⟩
      · exact ⟨rfl, fun _ => .inl rfl⟩
    · next htype => exact ⟨strip_strip _, fun h => absurd h htype⟩
  unfold storedValue
  rw [hpreserve, if_neg (by simp)]
  split
  · exact ⟨field.default, rfl, hdefault, fun h => .inl (hcheckbox h)⟩
  · exact ⟨_, rfl, hsubmitted⟩

/-- A field of the configuration is what is stored for it. -/
theorem getD_field (hplugin : plugin ∈ getDnsProviderOptions) {field : PluginField}
    (hfield : field ∈ plugin.fields) (default : Json) :
    (configOf form ex plugin).getD field.name default = storedValue form ex field := by
  have hhas : (configOf form ex plugin).has field.name = true := by
    rw [Dict.has, List.any_eq_true]
    exact ⟨(field.name, storedValue form ex field),
      List.mem_cons_of_mem _ (List.mem_map.mpr ⟨field, hfield, rfl⟩), by simp⟩
  rw [Dict.getD, hhas, if_pos rfl, get_field hplugin hfield]

/-- A field of a form that was not touched: a secret stays, and an empty text is
the default. -/
theorem storedValue_edit (hplugin : plugin ∈ getDnsProviderOptions) {field : PluginField}
    (hfield : field ∈ plugin.fields) :
    storedValue (editForm U (configOf form ex plugin) plugin) (configOf form ex plugin) field =
      if field.preserveOnBlank then storedValue form ex field
      else (storedValue form ex field).orElse (.str field.default) := by
  obtain ⟨hname, hdefault, hpassword, -, -, hcheckbox⟩ := field_shape hplugin hfield
  have hsent : editForm U (configOf form ex plugin) plugin field.name =
      match field.type with
      | .checkbox => if (storedValue form ex field).truthy then some (lit "true") else none
      | .password => some []
      | .text => some (((storedValue form ex field).orElse (.str field.default)).pyStr U) := by
    rw [editForm, if_neg hname, find?_field hplugin hfield]
    dsimp only
    rw [getD_field hplugin hfield]
  cases hpreserve : field.preserveOnBlank with
  | true =>
      have htype : field.type = .password := hpassword.mpr hpreserve
      have hblank : submittedValue (editForm U (configOf form ex plugin) plugin) field = [] := by
        rw [submittedValue, hsent, htype]
        rfl
      conv_lhs => rw [storedValue]
      rw [hpreserve, if_pos rfl, if_pos rfl, hblank, blankPreserveSecret, if_pos (by rfl),
        getD_field hplugin hfield]
  | false =>
      obtain ⟨s, hs, hstrip, hflag⟩ := storedValue_text form ex hplugin hfield hpreserve
      have hsubmitted : submittedValue (editForm U (configOf form ex plugin) plugin) field =
          if s = [] then field.default else s := by
        rw [submittedValue, hsent, hs]
        cases htype : field.type with
        | text =>
            rw [if_neg (by simp), orElse_str]
            dsimp only
            rw [Option.getD_some, Json.pyStr_str]
            split
            · exact hdefault
            · exact hstrip
        | password => simp [hpassword.mp htype] at hpreserve
        | checkbox =>
            rw [if_pos rfl]
            rcases hflag htype with hoff | hon
            · simp [hoff, hcheckbox htype, Json.truthy]
            · simp [hon, hcheckbox htype, Json.truthy]
      have hkept : ¬((if s = [] then field.default else s) = [] ∧ field.default ≠ [] ∧
          ((configOf form ex plugin).get field.name).truthy = false) := by
        intro h
        split at h
        · exact h.2.1 h.1
        · next hne => exact hne h.1
      have hstored : storedValue (editForm U (configOf form ex plugin) plugin)
          (configOf form ex plugin) field = .str (if s = [] then field.default else s) := by
        rw [storedValue, hpreserve, hsubmitted, if_neg Bool.false_ne_true, if_neg hkept]
      rw [hstored, if_neg Bool.false_ne_true, hs, orElse_str]

/-- The configuration after a save that touched nothing. -/
def savedConfig (U : Ucd) (form : Form) (ex : Dict) (plugin : DnsProviderPlugin) : Dict :=
  configOf (editForm U (configOf form ex plugin) plugin) (configOf form ex plugin) plugin

/-- A field that is not there is null. -/
theorem get_of_not_mem {d : Dict} {name : Str} (h : name ∉ d.names) : d.get name = .null := by
  rw [Dict.get]
  cases hfind : d.find? fun field => field.1 == name with
  | none => rfl
  | some field =>
      have hname : field.1 = name := by simpa using List.find?_some hfind
      exact absurd (List.mem_map.mpr ⟨field, List.mem_of_find?_eq_some hfind, hname⟩) h

/-- Each setting is as it was, but that an empty algorithm is the default. -/
theorem get_savedConfig (hplugin : plugin ∈ getDnsProviderOptions) (name : Str) :
    (savedConfig U form ex plugin).get name = (configOf form ex plugin).get name ∨
      name = lit "dns_tsig_algorithm" ∧
        (savedConfig U form ex plugin).get name =
          ((configOf form ex plugin).get name).orElse (.str (lit "hmac-sha256")) := by
  by_cases hprovider : name = lit "dns_provider_type"
  · left
    rw [hprovider, savedConfig, get_provider, get_provider]
  · by_cases hfield : ∃ field ∈ plugin.fields, field.name = name
    · obtain ⟨field, hfield, hname⟩ := hfield
      obtain ⟨-, -, -, hother, halgorithm, -⟩ := field_shape hplugin hfield
      rw [← hname, savedConfig, get_field hplugin hfield, get_field hplugin hfield,
        storedValue_edit hplugin hfield]
      cases hpreserve : field.preserveOnBlank with
      | true => exact .inl rfl
      | false =>
          obtain ⟨s, hs, -⟩ := storedValue_text form ex hplugin hfield hpreserve
          rw [if_neg (by simp), hs, orElse_str]
          by_cases hname' : field.name = lit "dns_tsig_algorithm"
          · right
            exact ⟨hname', by rw [halgorithm hname', orElse_str]⟩
          · left
            rw [hother hname']
            split
            · next hblank => rw [hblank]
            · rfl
    · have hnot : name ∉ (configOf form ex plugin).names := by
        rw [names_configOf]
        simp only [List.mem_cons, List.mem_map, not_or]
        exact ⟨hprovider, fun h => hfield h⟩
      have hnot' : name ∉ (savedConfig U form ex plugin).names := by
        rw [savedConfig, names_configOf]
        rw [names_configOf] at hnot
        exact hnot
      left
      rw [get_of_not_mem hnot, get_of_not_mem hnot']

/-- Only the TSIG algorithm is saved differently. -/
theorem get_savedConfig_of_ne (hplugin : plugin ∈ getDnsProviderOptions) {name : Str}
    (h : name ≠ lit "dns_tsig_algorithm") :
    (savedConfig U form ex plugin).get name = (configOf form ex plugin).get name := by
  rcases get_savedConfig hplugin name with hsame | halgorithm
  · exact hsame
  · exact absurd halgorithm.1 h

/-- Saving a form that was not touched makes the same client. -/
theorem sameClient_savedConfig (hplugin : plugin ∈ getDnsProviderOptions) :
    SameClient U (configOf form ex plugin) (savedConfig U form ex plugin) where
  provider := by
    simp only [storedProvider, asDict, ok_bind]
    rw [get_savedConfig_of_ne hplugin (by decide)]
  texts name hname := by
    have hne : ∀ name ∈ clientTexts, name ≠ lit "dns_tsig_algorithm" := by decide
    rw [textSetting, textSetting, get_savedConfig_of_ne hplugin (hne name hname)]
  algorithm := by
    rcases get_savedConfig hplugin (lit "dns_tsig_algorithm") with hsame | halgorithm
    · rw [hsame]
    · rw [halgorithm.2, orElse_orElse]
  proxied := get_savedConfig_of_ne hplugin (by decide)

/-- The form asks for the plugin it shows. -/
theorem formProvider_editForm (hplugin : plugin ∈ getDnsProviderOptions) (settings : Dict)
    (ex : Json) : formProvider U (editForm U settings plugin) ex = .ok plugin.key := by
  have hkey : editForm U settings plugin (lit "dns_provider_type") = some plugin.key := if_pos rfl
  have hne : ∀ plugin ∈ getDnsProviderOptions, plugin.key ≠ [] := by decide
  rw [formProvider, hkey]
  cases hcs : plugin.key with
  | nil => exact absurd hcs (hne plugin hplugin)
  | cons c cs =>
      dsimp only
      rw [← hcs, lower_strip_key U (List.mem_map_of_mem hplugin)]

end Saved

end ApiToDns.Zones
