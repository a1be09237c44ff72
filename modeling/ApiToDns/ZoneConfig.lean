import ApiToDns.SettingsStore
import ApiToDns.ZoneService

/-!
# ZoneConfig

Reading the configuration of a zone from its row (`zone_service.py`).
-/

namespace ApiToDns

open Py

variable (P : Platform) (processKey : Str)

/-- `decode_zone_config` under the process's `ENCRYPTION_KEY`. -/
def decodeZoneConfig (row : DnsZoneConfig) : Except Exc Json := do
  let raw ← decryptValue P processKey row.encryptedConfig
  match P.loads raw with
  | some cfg => .ok cfg
  | none => .error (.valueError (lit "JSONDecodeError"))

/-- What the admin pages list of a zone, without the label of its provider. -/
structure DnsZonePublic where
  id : Nat
  zoneName : Str
  dnsZone : Str
  dnsProviderType : Str
  dnsServer : Json

/-- `dns_zone_public_dict`. -/
def dnsZonePublicDict (z : Row DnsZoneConfig) : Except Exc DnsZonePublic := do
  let cfg ← asDict (← decodeZoneConfig P processKey z.val)
  let dnsZone ← stripped (cfg.get (lit "dns_zone"))
  let dnsProviderType ← asText
    ((cfg.getD (lit "dns_provider_type") (.str [])).orElse (.str (lit "azure")))
  .ok { id := z.id, zoneName := z.val.zoneName, dnsZone, dnsProviderType
        dnsServer := (cfg.getD (lit "dns_server") (.str [])).orElse (.str []) }

/-- What `GET /zones` lists of a zone. -/
structure DnsZoneSummary where
  id : Nat
  zoneName : Str
  dnsZone : Str
deriving DecidableEq

/-- `dns_zone_summary_dict`. -/
def dnsZoneSummaryDict (z : Row DnsZoneConfig) : Except Exc DnsZoneSummary := do
  let cfg ← asDict (← decodeZoneConfig P processKey z.val)
  .ok ⟨z.id, z.val.zoneName, ← providerDnsZone P.ucd cfg⟩

end ApiToDns
