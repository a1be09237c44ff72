import ApiToDns.Exceptions
import ApiToDns.Py.Json

/-!
# ZoneService

What a zone configuration says about the zone it manages
(`zone_service.py`).  A configuration is the dictionary that was stored
encrypted in its row.
-/

namespace ApiToDns

open Py

variable (U : Ucd)

/-- `normalize_zone_name`. -/
def normalizeZoneName (zone : Str) : Str := U.lower (rstripDots (strip zone))

/-- `provider_dns_zone`. -/
def providerDnsZone (settings : Dict) : Except Exc Str :=
  let zone :=
    normalizeZoneName U (((settings.get (lit "dns_zone")).orElse (.str [])).pyStr U)
  if zone = [] then
    .error (.valueError (lit "DNS zone (domain) is required in the zone configuration."))
  else .ok zone

/-- `settings.get("dns_server")`. -/
def dnsServer (settings : Dict) : Json := settings.get (lit "dns_server")

end ApiToDns
