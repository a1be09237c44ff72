import ApiToDns.Lib.Prog
import ApiToDns.Schemas
import ApiToDns.ZoneService

/-!
# Plugins.Base

The interface every provider client implements (`DnsProviderClient`), as a
signature: one lookup and one write, each answering or raising.
-/

namespace ApiToDns

open Py

/-- `ttl or 300`, as every plugin reads the TTL it is given. -/
def ttlOrDefault (ttl : Option Int) : Int := if ttl.getD 0 = 0 then 300 else ttl.getD 0

/-- `ttl or 300`. -/
theorem ttlOrDefault_some (t : Int) : ttlOrDefault (some t) = if t = 0 then 300 else t := rfl

/-- Every TTL but 0 is kept. -/
theorem ttlOrDefault_eq_iff {t : Int} : ttlOrDefault (some t) = t ↔ t ≠ 0 := by
  rw [ttlOrDefault_some]
  split <;> omega

/-- A default that was applied is not applied again. -/
@[simp] theorem ttlOrDefault_twice (ttl : Option Int) :
    ttlOrDefault (some (ttlOrDefault ttl)) = ttlOrDefault ttl := by
  simp only [ttlOrDefault, Option.getD_some]
  split <;> simp_all

/-- A call of a provider client. -/
inductive ProviderOp where
  | getRecord (recordName : Str) (recordType : Option Str) (dnsServer : Json) (dnsZone : Str)
  | createOrUpdateRecord (payload : DnsRecordRequest) (dnsServer : Json) (dnsZone : Str)

/-- The reply to a call. -/
abbrev ProviderOp.Reply : ProviderOp → Type
  | getRecord .. => Except Exc (List DnsRecordInfo)
  | createOrUpdateRecord .. => Except Exc Bool

/-- The calls of a provider client. -/
abbrev providerSig : Sig := ⟨ProviderOp, ProviderOp.Reply⟩

/-- Code that calls a provider client. -/
abbrev ProviderCode (α : Type) := Code Exc providerSig α

/-- `client.get_record(…)`. -/
def getRecord (recordName : Str) (recordType : Option Str) (dnsServer : Json) (dnsZone : Str) :
    ProviderCode (List DnsRecordInfo) :=
  ExceptT.mk (Prog.op (S := providerSig) (.getRecord recordName recordType dnsServer dnsZone))

/-- `client.create_or_update_record(…)`. -/
def createOrUpdateRecord (payload : DnsRecordRequest) (dnsServer : Json) (dnsZone : Str) :
    ProviderCode Bool :=
  ExceptT.mk (Prog.op (S := providerSig) (.createOrUpdateRecord payload dnsServer dnsZone))

@[simp] theorem prog_getRecord (n : Str) (t : Option Str) (server : Json) (zone : Str) :
    (getRecord n t server zone).prog = .call (.getRecord n t server zone) .ret := rfl

@[simp] theorem prog_createOrUpdateRecord (p : DnsRecordRequest) (server : Json) (zone : Str) :
    (createOrUpdateRecord p server zone).prog = .call (.createOrUpdateRecord p server zone) .ret :=
  rfl

@[simp] theorem run_getRecord (h : Handler providerSig σ) (n : Str) (t : Option Str)
    (server : Json) (zone : Str) (s : σ) :
    (getRecord n t server zone).run h s = h (.getRecord n t server zone) s := rfl

@[simp] theorem run_createOrUpdateRecord (h : Handler providerSig σ) (p : DnsRecordRequest)
    (server : Json) (zone : Str) (s : σ) :
    (createOrUpdateRecord p server zone).run h s = h (.createOrUpdateRecord p server zone) s := rfl

end ApiToDns
