import ApiToDns.Backup.Checked

/-!
# Backup.Boot

The `ENCRYPTION_KEY` a process starts with (`env_bootstrap.py`, `security.py`),
and that no restore changes it (`booted_restorePayload`).
-/

namespace ApiToDns.Backup

open Py

variable (P : Platform)

/-- The `ENCRYPTION_KEY` that `apply_persisted_secrets` overlays. -/
def persistedEncryptionKey (durable : Option Secrets) : Option Str :=
  durable.bind fun secrets =>
    if secrets.encryptionKey = [] then none
    else (validatePersistedSecret P (lit "ENCRYPTION_KEY") secrets.encryptionKey).toOption

/-- `_require_encryption_key` of the next process, `none` where it refuses to
start. -/
def nextEncryptionKey (host : Host) : Option Str :=
  let candidate :=
    strip ((persistedEncryptionKey P host.durable).getD host.container.encryptionKey)
  if candidate = [] ∨ candidate = lit "change-me-before-production" then none
  else if P.fernet.valid candidate then some candidate
  else none

/-- The running process has read the key that the next one will read. -/
def Host.Booted (host : Host) : Prop := nextEncryptionKey P host = some host.processKey

variable {P}

/-- The encryption key of a process that came up. -/
theorem Host.Booted.key {host : Host} (h : host.Booted P) :
    P.fernet.valid host.processKey = true ∧ strip host.processKey = host.processKey ∧
      host.processKey ≠ [] ∧ host.processKey ≠ lit "change-me-before-production" := by
  unfold Host.Booted nextEncryptionKey at h
  dsimp only at h
  split at h
  · contradiction
  · next hne =>
      split at h
      · next hvalid =>
          rw [Option.some.injEq] at h
          rw [← h]
          exact ⟨hvalid, strip_strip _, not_or.mp hne⟩
      · contradiction

/-- It is a Fernet key. -/
theorem Host.Booted.valid {host : Host} (h : host.Booted P) :
    P.fernet.valid host.processKey = true :=
  h.key.1

/-- It has no whitespace around it. -/
@[simp] theorem Host.Booted.strip {host : Host} (h : host.Booted P) :
    Py.strip host.processKey = host.processKey :=
  h.key.2.1

/-- A secret is persisted without the whitespace around it. -/
theorem validatePersistedSecret_eq_ok {name value s : Str}
    (h : validatePersistedSecret P name value = .ok s) : s = strip value := by
  unfold validatePersistedSecret at h
  dsimp only at h
  split_ifs at h
  exact (Except.ok.inj h).symm

/-- A key that a process has read passes the check of a persisted one. -/
theorem persistedEncryptionKey_eq {key : Str} {durable : Secrets} (hne : durable.encryptionKey ≠ [])
    (h : validatePersistedSecret P (lit "ENCRYPTION_KEY") durable.encryptionKey = .ok key) :
    persistedEncryptionKey P (some durable) = some key := by
  rw [persistedEncryptionKey, Option.bind_some, if_neg hne, h]
  rfl

/-- A persisted secret is written as it is read. -/
theorem validatePersistedSecret_strip {name value s : Str}
    (h : validatePersistedSecret P name value = .ok s) :
    validatePersistedSecret P name s = .ok s := by
  have hs := validatePersistedSecret_eq_ok h
  unfold validatePersistedSecret at h ⊢
  rw [hs, strip_strip]
  rw [hs] at h
  exact h

/-- The key that a restore writes for later processes is the one of the
process that restores. -/
theorem FilesEffect.adopted_key {m : Moment} {cats : List Category} {payload : Dict}
    {host host' : Host} (h : FilesEffect P m cats payload host host')
    (hvalid : validateRestoreRecords P host.processKey cats payload = .ok ()) :
    host'.durable = host.durable ∨
      ∃ secretKey, host'.durable = some ⟨secretKey, strip host.processKey⟩ ∧
        validatePersistedSecret P (lit "ENCRYPTION_KEY") (strip host.processKey) =
          .ok (strip host.processKey) := by
  by_cases hcat : .applicationSecrets ∈ cats
  · rcases h.durable with hsame | hnew
    · exact .inl hsame
    · obtain ⟨secrets, secretKey, encryptionKey, heq, hadopt, hpersisted, hdurable⟩ := hnew
      obtain ⟨checked, hchecked⟩ := secretsChecked hvalid hcat
      have hsecrets : checked = secrets := Except.ok.inj (hchecked.eq.symm.trans heq)
      -- the archive has the key of this process, by the check or by the adoption
      have hown : secrets.encryptionKey = strip host.processKey := by
        simp only [adoptsArchiveKeys, decide_eq_true_eq] at hadopt
        cases hadopt with
        | inl hnone => rw [← hsecrets]; exact hchecked.own hnone
        | inr hkey => exact hkey
      have hkey : encryptionKey = strip host.processKey := by
        rw [validatePersistedSecret_eq_ok hpersisted, hown, strip_strip]
      rw [hkey] at hpersisted hdurable
      exact .inr ⟨secretKey, hdurable, validatePersistedSecret_strip hpersisted⟩
  · exact .inl (h.secrets hcat).2.1

/-- The process that starts after a restore reads the key of the one that
restored. -/
theorem booted_restored {m : Moment} {cats : List Category} {payload : Dict} {host host' : Host}
    {db : Db} (h : Restored P m cats payload host host' db) (hboot : host.Booted P) :
    host'.Booted P := by
  have hkey : host'.processKey = host.processKey := h.files.processKey
  have hcontainer : host'.container = host.container := h.files.container
  have hstrip := hboot.strip
  rcases h.files.adopted_key h.valid with hsame | hnew
  · have hsame' : host'.durable = host.durable := hsame
    unfold Host.Booted nextEncryptionKey at hboot ⊢
    rw [hsame', hcontainer, hkey]
    exact hboot
  · obtain ⟨secretKey, hdurable, hpersisted⟩ := hnew
    change host'.durable = some ⟨secretKey, Py.strip host.processKey⟩ at hdurable
    change validatePersistedSecret P _ (Py.strip host.processKey) = .ok (Py.strip host.processKey)
      at hpersisted
    rw [hstrip] at hdurable hpersisted
    have hread : persistedEncryptionKey P host'.durable = some host.processKey := by
      rw [hdurable]
      exact persistedEncryptionKey_eq hboot.key.2.2.1 hpersisted
    unfold Host.Booted nextEncryptionKey
    dsimp only
    rw [hread, Option.getD_some, hstrip, hkey, if_neg (not_or.mpr hboot.key.2.2),
      if_pos hboot.valid]

/-- Whether it returns or raises, a restore leaves the next process the key of
this one. -/
theorem booted_restorePayload {m : Moment} {payload : Dict} {categories : List Str} {host : Host}
    (hboot : host.Booted P) : (restorePayload P m payload categories host).2.Booted P := by
  generalize hr : restorePayload P m payload categories host = r
  rcases restored_or_same P m r.1 r.2 hr with hsame | hnew
  · rw [hsame.2]
    exact hboot
  · obtain ⟨db, hrestored⟩ := hnew
    exact booted_restored hrestored hboot

end ApiToDns.Backup
