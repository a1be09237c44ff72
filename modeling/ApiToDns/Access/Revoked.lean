import ApiToDns.Access.Runs

/-!
# Access.Revoked

A key that was revoked.  Its row stays, and no request makes it active again; only a
restore of keys replaces the rows.

* `LeavesKeys` — the steps that restore no keys;
* `later_afterAll` — the row of a key over a run of them;
* `revoked_calls_nothing` — the requests with a key that was revoked.
-/

namespace ApiToDns.Access

open Py Backup KeyMigration Zones

variable {P : Platform} {dumps : Json → Str} {host : Host}

/-- The step restores no keys. -/
def LeavesKeys (P : Platform) (host : Host) : Step → Prop
  | .zones (.restore m payload categories) _ =>
      Commits P m payload categories host → .apiKeys ∉ normalizeCategories categories
  | _ => True

/-- Every step of the run restores no keys. -/
def LeavesKeysRun (P : Platform) (dumps : Json → Str) (host : Host) : List Step → Prop
  | [] => True
  | step :: steps => LeavesKeys P host step ∧ LeavesKeysRun P dumps (step.after P dumps host) steps

/-- A later row of a later row. -/
theorem Later.trans {key key' key'' : Row ApiKey} (h : Later key key') (h' : Later key' key'') :
    Later key key'' where
  id := h'.id.trans h.id
  digest := h'.digest.trans h.digest
  active hactive := h.active (h'.active hactive)

/-- The row of a key after a step. -/
theorem later_after {step : Step} (h : LeavesKeys P host step) {key : Row ApiKey}
    (hkey : key ∈ host.db.apiKeys.rows) :
    ∃ key' ∈ (step.after P dumps host).db.apiKeys.rows, Later key key' := by
  cases step with
  | key request => exact (keyEffect_serve P host.processKey host.db request).kept key hkey
  | revoke keyId => exact (passes_revoke host.db keyId).keys key hkey
  | mutate headers request => exact ⟨key, hkey, .refl key⟩
  | lookup headers query => exact ⟨key, hkey, .refl key⟩
  | zones request hmigrate =>
      cases request with
      | restore m payload categories =>
          have hafter : (Step.zones (.restore m payload categories) hmigrate).after P dumps host =
            (restorePayload P m payload categories host).2 := rfl
          rw [hafter]
          by_cases hcommits : Commits P m payload categories host
          · obtain ⟨db, hrestored⟩ := restored_of_commits hcommits
            obtain ⟨-, hkeys⟩ := apiKeysAfter_of_restored hrestored
            rw [apiKeysAfter, if_neg (h hcommits)] at hkeys
            rw [← (Prod.mk.inj (Except.ok.inj hkeys)).1]
            exact ⟨key, hkey, .refl key⟩
          · rw [unchanged_of_not_commits hcommits]
            exact ⟨key, hkey, .refl key⟩
      | _ =>
          have hpasses : Passes host.db ((Step.zones _ hmigrate).after P dumps host).db :=
            passes_zones hmigrate (by simp)
          exact hpasses.keys key hkey

/-- A run takes its first step, then the others. -/
theorem afterAll_cons (step : Step) (steps : List Step) :
    afterAll P dumps host (step :: steps) = afterAll P dumps (step.after P dumps host) steps := rfl

/-- The row of a key after a run. -/
theorem later_afterAll {steps : List Step} (h : LeavesKeysRun P dumps host steps) {key : Row ApiKey}
    (hkey : key ∈ host.db.apiKeys.rows) :
    ∃ key' ∈ (afterAll P dumps host steps).db.apiKeys.rows, Later key key' := by
  induction steps generalizing host key with
  | nil => exact ⟨key, hkey, .refl key⟩
  | cons step steps ih =>
      obtain ⟨mid, hmid, hfirst⟩ := later_after h.1 hkey
      obtain ⟨key', hkey', hrest⟩ := ih h.2 hmid
      exact ⟨key', hkey', hfirst.trans hrest⟩

variable (P dumps) in
/-- A revoked key is not active. -/
theorem inactive_revoked {key : Row ApiKey} (hkey : key ∈ host.db.apiKeys.rows)
    (hfits : fitsColumn key.id = true) :
    ∃ key' ∈ ((Step.revoke key.id).after P dumps host).db.apiKeys.rows,
      key'.val.key = key.val.key ∧ key'.val.active = false := by
  dsimp only [Step.after, revokeApiKey]
  rw [if_pos hfits, Int.toNat_natCast]
  refine ⟨_, mem_deactivate.mpr ⟨key, hkey, rfl⟩, ?_⟩
  simp

/-- The row of the key of a request that is resolved is active. -/
theorem Checked.active {H : Hashing} {processKey : Str} {db : Db} {headers : KeyHeaders}
    {r : Resolved} {client : DnsClient} (h : Checked P H processKey db headers r client)
    {apiKey : Str} (hheaders : headers.apiKey = some apiKey) {key : Row ApiKey}
    (hkey : key ∈ db.apiKeys.rows) (hdigest : key.val.key = hashApiKey H apiKey) :
    key.val.active = true := by
  obtain ⟨apiKey', zoneName, hheaders', -, hto⟩ := h.resolved
  obtain ⟨hmem, hsame, hactive⟩ := hto.key
  rw [hheaders] at hheaders'
  rw [← Option.some.inj hheaders'] at hsame
  have heq : key = r.key :=
    db.apiKeys.eq_of_key hkey hmem (congrArg some (hdigest.trans hsame.symm)) rfl
  rw [heq]
  exact hactive

variable (P dumps) in
/-- Once a key is revoked, no request with it calls a client, whatever is done
before and after, unless keys are restored. -/
theorem revoked_calls_nothing (H : Hashing) {key : Row ApiKey} (hkey : key ∈ host.db.apiKeys.rows)
    (hfits : fitsColumn key.id = true) {steps : List Step}
    (hsteps : LeavesKeysRun P dumps ((Step.revoke key.id).after P dumps host) steps)
    {headers : KeyHeaders} {apiKey : Str} (hheaders : headers.apiKey = some apiKey)
    (hdigest : key.val.key = hashApiKey H apiKey) :
    ∀ now, afterAll P dumps host (.revoke key.id :: steps) = now →
      (∀ request asked, mutateDnsRecord P H now.processKey now.db headers request ≠ .ok asked) ∧
        ∀ query asked, getDnsRecord P H now.processKey now.db headers query ≠ .ok asked := by
  intro now hnow
  obtain ⟨revoked, hmem, hsame, hinactive⟩ := inactive_revoked P dumps hkey hfits
  obtain ⟨last, hlast, hlater⟩ := later_afterAll hsteps hmem
  have hdigestLast : last.val.key = hashApiKey H apiKey := (hlater.digest.trans hsame).trans hdigest
  have hlast : last ∈ now.db.apiKeys.rows := by
    rw [← hnow, afterAll_cons]
    exact hlast
  have hnot {r : Resolved} {client : DnsClient}
      (hchecked : Checked P H now.processKey now.db headers r client) : False := by
    have hactive := hchecked.active hheaders hlast hdigestLast
    exact Bool.false_ne_true (hinactive.symm.trans (hlater.active hactive))
  refine ⟨fun request asked hasked => ?_, fun query asked hasked => ?_⟩
  · exact hnot (mutate_spec hasked).1
  · exact hnot (lookup_spec hasked).1

/-! ## a key that is revoked and then edited -/

/-- The key of `grantingRun`. -/
def grantedKey : Row ApiKey :=
  ⟨1, ⟨lit "new", hashedDigest, some (lit "ICEiIyQlJico"), lit "read_write", true,
    ⟨lit "2025-01-01T00:00:00"⟩⟩⟩

/-- The granted key is in the table. -/
theorem grantedKey_mem : grantedKey ∈ grantedHost.db.apiKeys.rows := by
  decide +kernel

/-- The form of the key is saved once more. -/
def savingRun : List Step := [.key (.update 1 ⟨lit "new", [1], some (lit "read_write")⟩)]

/-- The host after the key is revoked and its form is saved. -/
def revokedHost : Host :=
  afterAll Compact.platform Compact.dumps grantedHost (.revoke grantedKey.id :: savingRun)

theorem revoked_calls_nothing_edited :
    (∃ asked, mutateDnsRecord Compact.platform twoKeys grantedHost.processKey grantedHost.db
      ⟨some hashedKey, none⟩ deleteAddress = .ok asked) ∧
    ¬∃ asked, mutateDnsRecord Compact.platform twoKeys revokedHost.processKey revokedHost.db
      ⟨some hashedKey, none⟩ deleteAddress = .ok asked := by
  have hleaves : LeavesKeysRun Compact.platform Compact.dumps
      ((Step.revoke grantedKey.id).after Compact.platform Compact.dumps grantedHost) savingRun :=
    ⟨trivial, trivial⟩
  have hnothing := revoked_calls_nothing Compact.platform Compact.dumps twoKeys grantedKey_mem
    (by decide) hleaves (show KeyHeaders.apiKey ⟨some hashedKey, none⟩ = some hashedKey by decide)
    (by decide +kernel) revokedHost (by rw [revokedHost])
  refine ⟨deleteAddress_asked, fun hasked => ?_⟩
  obtain ⟨asked, hasked⟩ := hasked
  exact hnothing.1 deleteAddress asked hasked

end ApiToDns.Access
