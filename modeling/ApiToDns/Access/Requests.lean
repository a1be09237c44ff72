import ApiToDns.RateLimit
import ApiToDns.RecordApi
import ApiToDns.Zones.Clients
import ApiToDns.Zones.Usable

/-!
# Access.Requests

A `/dns-record` request from its headers to the client that serves it
(`dns_api_service.py`, `routes/dns_api.py`): the key, the zone, the grant, the
access mode and the plugin are checked, and the program that calls the client is
what the request then asks for.  The entries of the activity log are left out,
but that writing one may raise.

* `resolveDnsApiZone` — the key and the configuration of a request;
* `mutateDnsRecord`, `getDnsRecord` — a change and a lookup;
* `atZone_of_issues` — where the calls of a change go.
-/

namespace ApiToDns.Access

open Py Backup KeyMigration Zones

/-- How a request ends before a client is called. -/
inductive Refusal where
  | answered (reply : Reply)
  /-- 500 -/
  | raised (exc : Exc)

/-- What a request is resolved to. -/
structure Resolved where
  key : Row ApiKey
  zone : Row DnsZoneConfig
  settings : Dict
  provider : Str

/-- What a request asks of a client. -/
structure Asked (α : Type) where
  resolved : Resolved
  client : DnsClient
  program : Prog providerSig α

/-- The headers that carry a key. -/
structure KeyHeaders where
  xApiKey : Option Str
  authorization : Option Str

/-- The key of the headers. -/
def KeyHeaders.apiKey (headers : KeyHeaders) : Option Str :=
  apiKeyFromHeaders headers.xApiKey headers.authorization

/-- `ACCESS_DENIED_DETAIL`. -/
def accessDeniedDetail : Detail :=
  .error (lit "access_denied") (lit "You do not have access or an invalid key was provided.")

def invalidRequest (message : Str) : HttpError := ⟨400, .error (lit "invalid_request") message⟩

section Authorize

variable (P : Platform) (H : Hashing) (processKey : Str) (db : Db)

/-- An entry in the activity log, and an error. -/
def refuse {α : Type} (e : HttpError) : Except Refusal α :=
  match emitActivityEvent P processKey db with
  | .ok _ => .error (.answered (.error e))
  | .error exc => .error (.raised exc)

/-- What raises outside of a `try`. -/
def raising {α : Type} (x : Except Exc α) : Except Refusal α :=
  match x with
  | .ok a => .ok a
  | .error exc => .error (.raised exc)

/-- `_resolve_dns_api_zone`. -/
def resolveDnsApiZone (apiKey zoneName : Str) : Except Refusal Resolved :=
  match getApiKey H db.apiKeys apiKey with
  | none => refuse P processKey db ⟨401, .text (lit "Invalid API key")⟩
  | some key =>
      if strip zoneName = [] then
        refuse P processKey db (invalidRequest (lit "zone_name is required on every request."))
      else
        match db.zones.byKey (normalizeZoneName P.ucd zoneName) with
        | none => refuse P processKey db ⟨403, accessDeniedDetail⟩
        | some zone =>
            match db.allowedZones.byKey (key.id, zone.id) with
            | none => refuse P processKey db ⟨403, accessDeniedDetail⟩
            | some _ => do
                let settings ← raising (decodeZoneConfig P processKey zone.val >>= asDict)
                let provider ← raising (storedProvider P.ucd (.obj settings))
                if provider = lit "azure" ∧
                    (settings.get (lit "azure_subscription_id")).truthy = false then
                  refuse P processKey db (invalidRequest
                    (lit "Azure subscription ID is required on the zone configuration."))
                else if provider = lit "azure" ∧
                    (settings.get (lit "azure_resource_group")).truthy = false then
                  refuse P processKey db (invalidRequest
                    (lit "Azure resource group is required on the zone configuration."))
                else .ok ⟨key, zone, settings, provider⟩

/-- `_require_dns_api_key_write_access`. -/
def requireDnsApiKeyWriteAccess (key : Row ApiKey) : Except Refusal Unit :=
  if key.val.accessMode = apiKeyAccessReadWrite then .ok ()
  else refuse P processKey db ⟨403, accessDeniedDetail⟩

/-- The client of a configuration, unless its plugin is disabled. -/
def clientFor (settings : Dict) : Except Exc DnsClient := do
  createDnsClientFromSettings P.ucd settings (← getDisabledDnsPlugins P processKey db)

/-- `_apply_dns_mutation`. -/
def applyDnsMutation (apiKey : Option Str) (c : MutationCall) : Except Refusal (Asked Reply) :=
  match apiKey with
  | none | some [] => .error (.answered (.error ⟨401, .text (lit "API key is required")⟩))
  | some apiKey => do
      let resolved ← resolveDnsApiZone P H processKey db apiKey (c.zoneName.getD [])
      requireDnsApiKeyWriteAccess P processKey db resolved.key
      match clientFor P processKey db resolved.settings with
      | .error exc => refuse P processKey db (httpExceptionFromDnsError exc)
      | .ok client =>
          .ok ⟨resolved, client,
            (c.run P.ucd resolved.settings resolved.zone.val.zoneName).prog >>= fun result =>
              .ret (replyOf result)⟩

/-- POST, PUT, PATCH and DELETE of `/dns-record`. -/
def mutateDnsRecord (headers : KeyHeaders) (r : RecordRequest) : Except Refusal (Asked Reply) :=
  match r.call P.ucd with
  | .error reply => .error (.answered reply)
  | .ok c => applyDnsMutation P H processKey db headers.apiKey c

/-- A lookup: `GET /dns-record`. -/
structure Lookup where
  zoneName : Option Str
  recordName : Option Str
  recordType : Option Str

/-- `DnsRecordGetResponse`. -/
structure DnsRecordGetResponse where
  status : Str
  zoneName : Str
  dnsZone : Str
  recordName : Str
  records : List DnsRecordInfo

/-- An error of a lookup. -/
def lookupError (exc : Exc) : HttpError :=
  match valueErrorText? exc with
  | some msg => invalidRequest msg
  | none => httpExceptionFromDnsError exc

/-- The answer to what the client found. -/
def lookupReply (zoneName dnsZone recordName : Str) :
    Except Exc (List DnsRecordInfo) → Except HttpError DnsRecordGetResponse
  | .error exc => .error (lookupError exc)
  | .ok records =>
      .ok ⟨if records = [] then lit "not_found" else lit "success", zoneName, dnsZone, recordName,
        records⟩

/-- `get_dns_record`. -/
def getDnsRecord (headers : KeyHeaders) (q : Lookup) :
    Except Refusal (Asked (Except HttpError DnsRecordGetResponse)) :=
  match q.zoneName, q.recordName with
  | some zoneName, some recordName =>
      match headers.apiKey with
      | none | some [] => .error (.answered (.error ⟨401, .text (lit "API key is required")⟩))
      | some apiKey => do
          let resolved ← resolveDnsApiZone P H processKey db apiKey zoneName
          let providerDomain ← raising (providerDnsZone P.ucd resolved.settings)
          let client := do
            let lookupType ← normalizeLookupRecordType P.ucd q.recordType
            let client ← clientFor P processKey db resolved.settings
            .ok (lookupType, client)
          match client with
          | .error exc => refuse P processKey db (lookupError exc)
          | .ok (lookupType, client) =>
              .ok ⟨resolved, client,
                (getRecord recordName (lookupType.map RecordType.text)
                    (dnsServer resolved.settings) providerDomain).prog >>= fun records =>
                  .ret (lookupReply resolved.zone.val.zoneName providerDomain recordName records)⟩
  | zoneName, recordName =>
      .error (.answered (.unprocessable
        (missingParam (lit "zone_name") zoneName ++ missingParam (lit "record_name") recordName)))

end Authorize

/-! ## where the calls go -/

/-- A call for the zone of a configuration, at its server. -/
def AtZone (U : Ucd) (settings : Dict) : ProviderOp → Prop
  | .getRecord _ _ server zone | .createOrUpdateRecord _ server zone =>
      server = dnsServer settings ∧ providerDnsZone U settings = .ok zone

variable {U : Ucd} {settings : Dict}

/-- `get_record` makes one call of the provider. -/
theorem issues_getRecord_iff {n : Str} {t : Option Str} {server : Json} {zone : Str}
    {o : ProviderOp} :
    (getRecord n t server zone).prog.Issues o ↔ ProviderOp.getRecord n t server zone = o := by
  rw [prog_getRecord, Prog.issues_call_iff]
  simp

/-- `create_or_update_record` makes one call of the provider. -/
theorem issues_createOrUpdateRecord_iff {payload : DnsRecordRequest} {server : Json} {zone : Str}
    {o : ProviderOp} :
    (createOrUpdateRecord payload server zone).prog.Issues o ↔
      ProviderOp.createOrUpdateRecord payload server zone = o := by
  rw [prog_createOrUpdateRecord, Prog.issues_call_iff]
  simp

/-- The look before a mutation is at the zone. -/
theorem atZone_recordExistsAtType {recordName : Str} {rt : RecordType} {o : ProviderOp}
    (h : (recordExistsAtType U settings recordName rt).prog.Issues o) : AtZone U settings o := by
  simp only [recordExistsAtType, Code.issues_bind_iff, Code.not_issues_lift, Code.returns_lift_iff,
    issues_getRecord_iff, Code.not_issues_pure, false_or, and_false, exists_false, or_false] at h
  obtain ⟨zone, hzone, heq⟩ := h
  rw [← heq]
  exact ⟨rfl, hzone.symm⟩

/-- A write, after the payload has been checked. -/
theorem atZone_write {x : Except Exc DnsRecordRequest} {zone : Str}
    (hzone : providerDnsZone U settings = .ok zone) {a : DnsMutationOutcome} {o : ProviderOp}
    (h : (do
      let internal ← Code.lift x
      let _ ← createOrUpdateRecord internal (dnsServer settings) zone
      return a : ProviderCode DnsMutationOutcome).prog.Issues o) : AtZone U settings o := by
  simp only [Code.issues_bind_iff, Code.not_issues_lift, Code.returns_lift_iff,
    issues_createOrUpdateRecord_iff, Code.not_issues_pure, false_or, and_false, exists_false,
    or_false] at h
  obtain ⟨internal, -, heq⟩ := h
  rw [← heq]
  exact ⟨rfl, hzone⟩

/-- A mutation is at the zone. -/
theorem atZone_applyRrsetMutation {zoneName recordName : Str} {rt : RecordType} {ttl : Option Int}
    {values : List Str} {mode : Mode} {o : ProviderOp}
    (h : (applyRrsetMutation U settings zoneName recordName rt ttl values mode).prog.Issues o) :
    AtZone U settings o := by
  rw [applyRrsetMutation, Code.issues_bind_iff] at h
  rcases h with hlift | hrest
  · exact absurd hlift (Code.not_issues_lift _)
  · obtain ⟨zone, hzone, h⟩ := hrest
    rw [Code.returns_lift_iff] at hzone
    rw [Code.issues_bind_iff] at h
    rcases h with hexists | hrest
    · exact atZone_recordExistsAtType hexists
    · obtain ⟨found, -, h⟩ := hrest
      dsimp only at h
      split at h
      · exact absurd h (Code.not_issues_pure _)
      · split at h
        · exact absurd h (Code.not_issues_pure _)
        · split at h
          · exact atZone_write hzone.symm h
          · exact atZone_write hzone.symm h

/-- So is a patch. -/
theorem atZone_applyPatchMutation {zoneName recordName : Str} {rt : RecordType}
    {patchTtl : Option Int} {patchValues : Option (List Str)} {o : ProviderOp}
    (h : (applyPatchMutation U settings zoneName recordName rt patchTtl patchValues).prog.Issues o) :
    AtZone U settings o := by
  rw [applyPatchMutation, Code.issues_bind_iff] at h
  rcases h with hlift | hrest
  · exact absurd hlift (Code.not_issues_lift _)
  · obtain ⟨zone, hzone, h⟩ := hrest
    rw [Code.returns_lift_iff] at hzone
    rw [Code.issues_bind_iff] at h
    rcases h with hlookup | hrest
    · rw [issues_getRecord_iff] at hlookup
      rw [← hlookup]
      exact ⟨rfl, hzone.symm⟩
    · obtain ⟨records, -, h⟩ := hrest
      cases records with
      | nil => exact absurd h (Code.not_issues_pure _)
      | cons existing records =>
          rw [Code.issues_bind_iff] at h
          rcases h with hlift | hrest
          · exact absurd hlift (Code.not_issues_lift _)
          · obtain ⟨merged, -, h⟩ := hrest
            exact atZone_write hzone.symm h

/-- Every call of a change is for the zone of its configuration. -/
theorem atZone_of_issues {zoneName : Str} {c : MutationCall} {o : ProviderOp}
    (h : (c.run U settings zoneName).prog.Issues o) : AtZone U settings o := by
  rw [MutationCall.run, Code.issues_bind_iff] at h
  rcases h with hlift | hrest
  · exact absurd hlift (Code.not_issues_lift _)
  · obtain ⟨zone, -, h⟩ := hrest
    rw [Code.issues_bind_iff] at h
    rcases h with hlift | hrest
    · exact absurd hlift (Code.not_issues_lift _)
    · obtain ⟨prepared, -, h⟩ := hrest
      split at h
      · rw [Code.issues_tryCatch_iff] at h
        rcases h with hpatch | hcatch
        · rw [Code.issues_bind_iff] at hpatch
          rcases hpatch with hpatch | hdone
          · exact atZone_applyPatchMutation hpatch
          · obtain ⟨outcome, -, h⟩ := hdone
            exact absurd h (Code.not_issues_pure _)
        · obtain ⟨exc, -, h⟩ := hcatch
          split at h
          · exact absurd h (Code.not_issues_pure _)
          · exact absurd h (Code.not_issues_throw _)
      · rw [Code.issues_bind_iff] at h
        rcases h with hrrset | hdone
        · exact atZone_applyRrsetMutation hrrset
        · obtain ⟨outcome, -, h⟩ := hdone
          exact absurd h (Code.not_issues_pure _)

/-! ## what was checked -/

section Checked

variable {P : Platform} {H : Hashing} {processKey : Str} {db : Db}

/-- A refusal is no answer. -/
theorem refuse_ne_ok {α : Type} {e : HttpError} {a : α} :
    (refuse P processKey db e : Except Refusal α) ≠ .ok a := by
  unfold refuse
  split <;> simp

/-- What may raise answers what it returns. -/
theorem raising_eq_ok_iff {α : Type} {x : Except Exc α} {a : α} :
    raising x = .ok a ↔ x = .ok a := by
  cases x <;> simp [raising]

/-- A request that is resolved has a key that is active, a zone that is
configured, and a grant for it. -/
structure ResolvesTo (P : Platform) (H : Hashing) (processKey : Str) (db : Db)
    (apiKey zoneName : Str) (r : Resolved) : Prop where
  key : r.key ∈ db.apiKeys.rows ∧ r.key.val.key = hashApiKey H apiKey ∧ r.key.val.active = true
  zone : r.zone ∈ db.zones.rows ∧ r.zone.val.zoneName = normalizeZoneName P.ucd zoneName
  granted : ApiKeys.Allowed db r.key.id r.zone.id
  settings : decodeZoneConfig P processKey r.zone.val = .ok (.obj r.settings)
  provider : storedProvider P.ucd (.obj r.settings) = .ok r.provider

/-- A request that is let through has a key and a zone that the key may use. -/
theorem resolvesTo_of_ok {apiKey zoneName : Str} {r : Resolved}
    (h : resolveDnsApiZone P H processKey db apiKey zoneName = .ok r) :
    ResolvesTo P H processKey db apiKey zoneName r := by
  unfold resolveDnsApiZone at h
  cases hkey : getApiKey H db.apiKeys apiKey with
  | none =>
      rw [hkey] at h
      exact absurd h refuse_ne_ok
  | some key =>
      rw [hkey] at h
      dsimp only at h
      split at h
      · exact absurd h refuse_ne_ok
      · cases hzone : db.zones.byKey (normalizeZoneName P.ucd zoneName) with
        | none =>
            rw [hzone] at h
            exact absurd h refuse_ne_ok
        | some zone =>
            rw [hzone] at h
            dsimp only at h
            cases hlink : db.allowedZones.byKey (key.id, zone.id) with
            | none =>
                rw [hlink] at h
                exact absurd h refuse_ne_ok
            | some link =>
                rw [hlink] at h
                dsimp only at h
                obtain ⟨settings, hsettings, h⟩ := bind_eq_ok h
                obtain ⟨provider, hprovider, h⟩ := bind_eq_ok h
                rw [raising_eq_ok_iff] at hsettings hprovider
                split at h
                · exact absurd h refuse_ne_ok
                · split at h
                  · exact absurd h refuse_ne_ok
                  · rw [← Except.ok.inj h]
                    obtain ⟨cfg, hcfg, hdict⟩ := bind_eq_ok hsettings
                    have hdigest := List.find?_some hkey
                    rw [Bool.and_eq_true, decide_eq_true_eq] at hdigest
                    obtain ⟨hzoneMem, hname⟩ := Table.byKey_eq_some_iff.mp hzone
                    obtain ⟨hlinkMem, hpair⟩ := Table.byKey_eq_some_iff.mp hlink
                    have hpair : (link.val.apiKeyId, link.val.dnsZoneConfigId) = (key.id, zone.id) :=
                      Option.some.inj hpair
                    have hobj : cfg = .obj settings := by
                      cases cfg with
                      | obj fields => rw [Except.ok.inj hdict]
                      | _ => contradiction
                    refine ⟨⟨List.mem_of_find?_eq_some hkey, hdigest⟩,
                      ⟨hzoneMem, Option.some.inj hname⟩, ⟨link, hlinkMem, ?_⟩, by rw [← hobj, hcfg],
                      hprovider⟩
                    obtain ⟨linkId, keyId, zoneId⟩ := link
                    obtain ⟨hkeyId, hzoneId⟩ := Prod.mk.inj hpair
                    dsimp only at hkeyId hzoneId
                    rw [hkeyId, hzoneId]

/-- A client is made of a configuration whose plugin is enabled. -/
theorem clientFor_eq_ok {settings : Dict} {client : DnsClient}
    (h : clientFor P processKey db settings = .ok client) {provider : Str}
    (hprovider : storedProvider P.ucd (.obj settings) = .ok provider) :
    ∃ disabled, getDisabledDnsPlugins P processKey db = .ok disabled ∧ provider ∉ disabled ∧
      createDnsClient P.ucd settings = .ok client := by
  obtain ⟨disabled, hdisabled, h⟩ := bind_eq_ok h
  rw [createDnsClientFromSettings, hprovider, ok_bind] at h
  split at h
  · contradiction
  · next hnot => exact ⟨disabled, hdisabled, hnot, h⟩

/-- What is known of a request that calls a client. -/
structure Checked (P : Platform) (H : Hashing) (processKey : Str) (db : Db) (headers : KeyHeaders)
    (r : Resolved) (client : DnsClient) : Prop where
  resolved : ∃ apiKey zoneName, headers.apiKey = some apiKey ∧ apiKey ≠ [] ∧
    ResolvesTo P H processKey db apiKey zoneName r
  enabled : ∃ disabled, getDisabledDnsPlugins P processKey db = .ok disabled ∧ r.provider ∉ disabled
  client : createDnsClient P.ucd r.settings = .ok client

/-- A change calls the client of a checked configuration with a key that may
write, for the zone of that configuration. -/
theorem mutate_spec {headers : KeyHeaders} {r : RecordRequest} {asked : Asked Reply}
    (h : mutateDnsRecord P H processKey db headers r = .ok asked) :
    Checked P H processKey db headers asked.resolved asked.client ∧
      asked.resolved.key.val.accessMode = apiKeyAccessReadWrite ∧
      ∀ o, asked.program.Issues o → AtZone P.ucd asked.resolved.settings o := by
  unfold mutateDnsRecord at h
  split at h
  · contradiction
  · next c hc =>
      unfold applyDnsMutation at h
      split at h
      · contradiction
      · contradiction
      · next apiKey hne hheaders =>
          obtain ⟨resolved, hresolved, h⟩ := bind_eq_ok h
          obtain ⟨_, hmode, h⟩ := bind_eq_ok h
          have hto := resolvesTo_of_ok hresolved
          split at h
          · exact absurd h refuse_ne_ok
          · next client hclient =>
              rw [← Except.ok.inj h]
              obtain ⟨disabled, hdisabled, hnot, hmade⟩ := clientFor_eq_ok hclient hto.provider
              refine ⟨⟨⟨apiKey, _, hheaders, fun hnil => hne hnil, hto⟩, ⟨disabled, hdisabled, hnot⟩,
                hmade⟩, ?_, fun o ho => ?_⟩
              · by_contra hread
                rw [requireDnsApiKeyWriteAccess, if_neg hread] at hmode
                exact refuse_ne_ok hmode
              · rw [Prog.issues_bind_iff] at ho
                rcases ho with hrun | hdone
                · exact atZone_of_issues hrun
                · obtain ⟨result, -, hret⟩ := hdone
                  exact absurd hret (Prog.not_issues_ret _ _)

/-- A lookup calls the client of a checked configuration, for its zone. -/
theorem lookup_spec {headers : KeyHeaders} {q : Lookup}
    {asked : Asked (Except HttpError DnsRecordGetResponse)}
    (h : getDnsRecord P H processKey db headers q = .ok asked) :
    Checked P H processKey db headers asked.resolved asked.client ∧
      ∀ o, asked.program.Issues o → AtZone P.ucd asked.resolved.settings o := by
  unfold getDnsRecord at h
  split at h
  · split at h
    · contradiction
    · contradiction
    · next apiKey hne hheaders =>
        obtain ⟨resolved, hresolved, h⟩ := bind_eq_ok h
        obtain ⟨zone, hzone, h⟩ := bind_eq_ok h
        rw [raising_eq_ok_iff] at hzone
        have hto := resolvesTo_of_ok hresolved
        dsimp only at h
        split at h
        · exact absurd h refuse_ne_ok
        · next lookupType client hclient =>
            obtain ⟨lookupType', -, hclient⟩ := bind_eq_ok hclient
            obtain ⟨client', hmake, heq⟩ := bind_eq_ok hclient
            have hsame : client' = client := congrArg Prod.snd (Except.ok.inj heq)
            rw [hsame] at hmake
            rw [← Except.ok.inj h]
            obtain ⟨disabled, hdisabled, hnot, hmade⟩ := clientFor_eq_ok hmake hto.provider
            refine ⟨⟨⟨apiKey, _, hheaders, fun hnil => hne hnil, hto⟩, ⟨disabled, hdisabled, hnot⟩,
              hmade⟩, fun o ho => ?_⟩
            rw [Prog.issues_bind_iff] at ho
            rcases ho with hrun | hdone
            · rw [issues_getRecord_iff] at hrun
              rw [← hrun]
              exact ⟨rfl, hzone⟩
            · obtain ⟨result, -, hret⟩ := hdone
              exact absurd hret (Prog.not_issues_ret _ _)
  · contradiction

end Checked

end ApiToDns.Access
