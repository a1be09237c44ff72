import ApiToDns.Backup.Restore

/-!
# Backup.Effects

What a restore does to each part of an installation, whether it returns or
raises: one lemma for each part it can touch, `restored_or_same` for a whole
restore, and `restored_of_ok` for one that returns.
-/

namespace ApiToDns.Backup

open Py

variable (P : Platform) (m : Moment)

/-! ## rows -/

/-- Rows, some of them skipped, go in when each can be built and no two keys
clash. -/
theorem foldlM_addRow?_eq_ok_iff [Record α] {build : β → Except Exc (Option α)} {t u : Table α}
    {items : List β} :
    items.foldlM (fun t item => do addRow? t (← build item)) t = .ok u ↔
      ∃ vs, items.mapM build = .ok vs ∧ t.insertAll (vs.filterMap id) = some u := by
  induction items generalizing t with
  | nil =>
      constructor
      · intro h
        exact ⟨[], rfl, congrArg some (Except.ok.inj h)⟩
      · intro h
        obtain ⟨vs, hvs, hu⟩ := h
        rw [← Except.ok.inj hvs] at hu
        exact congrArg Except.ok (Option.some.inj hu)
  | cons item items ih =>
      rw [List.foldlM_cons, bind_eq_ok_iff]
      simp only [ih, mapM_cons_eq_ok_iff]
      cases hv : build item with
      | error exc => simp
      | ok v =>
          cases v with
          | none => simp [addRow?]
          | some v =>
              simp only [ok_bind, addRow?, addRow_eq_ok_iff]
              constructor
              · intro h
                obtain ⟨t', ht', vs, hvs, hu⟩ := h
                refine ⟨some v :: vs, ⟨some v, vs, rfl, hvs, rfl⟩, ?_⟩
                show t.insertAll (v :: vs.filterMap id) = some u
                rw [Table.insertAll_cons, ht']
                exact hu
              · intro h
                obtain ⟨_, ⟨w, vs, hw, hvs, rfl⟩, hu⟩ := h
                rw [← Except.ok.inj hw] at hu
                change t.insertAll (v :: vs.filterMap id) = some u at hu
                rw [Table.insertAll_cons] at hu
                obtain ⟨t', ht', hu⟩ := Option.bind_eq_some_iff.mp hu
                exact ⟨t', ht', vs, hvs, hu⟩

/-- Rows go in when each can be built and no two keys clash. -/
theorem foldlM_addRow_eq_ok_iff [Record α] {build : β → Except Exc α} {t u : Table α}
    {items : List β} :
    items.foldlM (fun t item => do addRow t (← build item)) t = .ok u ↔
      ∃ vs, items.mapM build = .ok vs ∧ t.insertAll vs = some u := by
  have hstep : (fun (t : Table α) (item : β) => build item >>= addRow t) =
      fun (t : Table α) (item : β) => (some <$> build item) >>= addRow? t := by
    funext t item
    cases build item <;> rfl
  rw [hstep, foldlM_addRow?_eq_ok_iff]
  constructor
  · intro h
    obtain ⟨vs, hvs, hu⟩ := h
    rw [mapM_map_eq, map_eq_ok_iff] at hvs
    obtain ⟨ws, hws, heq⟩ := hvs
    refine ⟨ws, hws, ?_⟩
    rw [← hu, ← heq]
    simp
  · intro h
    obtain ⟨vs, hvs, hu⟩ := h
    refine ⟨vs.map some, ?_, by simpa using hu⟩
    rw [mapM_map_eq, hvs]
    rfl

/-- When rows are restored. -/
theorem restoreRows_eq_ok_iff [Record α] {build : Json → Except Exc α} {t u : Table α}
    {items : List Json} :
    restoreRows build t items = .ok u ↔
      ∃ vs, items.mapM build = .ok vs ∧ t.insertAll vs = some u :=
  foldlM_addRow_eq_ok_iff

/-- When settings are restored. -/
theorem restoreSettings_eq_ok_iff {destKey sourceKey : Str} {t u : Table Setting}
    {items : List Json} :
    restoreSettings P destKey sourceKey t items = .ok u ↔
      ∃ vs, items.mapM (settingOf P destKey sourceKey) = .ok vs ∧
        t.insertAll (vs.filterMap id) = some u :=
  foldlM_addRow?_eq_ok_iff

/-- When accounts are restored. -/
theorem restoreUsers_eq_ok_iff {u : Table User} {items : List Json} :
    restoreUsers P m items = .ok u ↔
      ∃ vs, items.zipIdx.mapM (userOf P m) = .ok vs ∧ Table.empty.insertAll vs = some u :=
  foldlM_addRow_eq_ok_iff

/-! ## the parts after the transaction -/

/-- What the parts after the transaction may have done to an installation. -/
structure FilesEffect (cats : List Category) (payload : Dict) (host host' : Host) : Prop where
  tables : host'.db = { host.db with users := host'.db.users }
  users : host'.db.users = host.db.users ∨
    .applicationSecrets ∈ cats ∧ .users ∉ cats ∧
      host'.db.users = freshSessionVersions m host.db.users
  ssl : .sslFiles ∉ cats → host'.ssl = host.ssl
  secrets : .applicationSecrets ∉ cats →
    host'.environ = host.environ ∧ host'.durable = host.durable ∧
      host'.projectEnv = host.projectEnv
  durable : host'.durable = host.durable ∨
    ∃ secrets secretKey encryptionKey, secretsOf payload = .ok secrets ∧
      adoptsArchiveKeys host.processKey cats secrets = true ∧
      validatePersistedSecret P (lit "ENCRYPTION_KEY") secrets.encryptionKey = .ok encryptionKey ∧
      host'.durable = some ⟨secretKey, encryptionKey⟩
  container : host'.container = host.container
  processKey : host'.processKey = host.processKey

section Files

variable (cats : List Category) (payload : Dict) (host : Host)

/-- Changing nothing is such an effect. -/
theorem FilesEffect.refl : FilesEffect P m cats payload host host where
  tables := rfl
  users := .inl rfl
  ssl _ := rfl
  secrets _ := ⟨rfl, rfl, rfl⟩
  durable := .inl rfl
  container := rfl
  processKey := rfl

/-- What ending the sessions does. -/
theorem filesEffect_endSessions (h : .applicationSecrets ∈ cats) :
    FilesEffect P m cats payload host (endSessions m cats host) := by
  unfold endSessions
  split
  · exact .refl P m cats payload host
  · next husers =>
      exact { tables := rfl, users := .inr ⟨h, husers, rfl⟩, ssl := fun _ => rfl
              secrets := fun _ => ⟨rfl, rfl, rfl⟩, durable := .inl rfl, container := rfl
              processKey := rfl }

/-- What writing the secrets does. -/
theorem filesEffect_writeApplicationSecrets {host' : Host} (h : .applicationSecrets ∈ cats)
    (heff : FilesEffect P m cats payload host host') {secrets : Secrets}
    (hsecrets : secretsOf payload = .ok secrets)
    (hadopt : adoptsArchiveKeys host.processKey cats secrets = true) :
    FilesEffect P m cats payload host (writeApplicationSecrets P m secrets host').2 := by
  unfold writeApplicationSecrets
  split
  · exact heff
  · exact heff
  · next hkey =>
      split
      · exact { heff with
                secrets := fun hn => absurd h hn
                durable := .inr ⟨secrets, _, _, hsecrets, hadopt, hkey, rfl⟩ }
      · exact heff

/-- What restoring the secrets does. -/
theorem filesEffect_restoreApplicationSecrets (h : .applicationSecrets ∈ cats) :
    FilesEffect P m cats payload host (restoreApplicationSecrets P m cats payload host).2 := by
  have hend := filesEffect_endSessions P m cats payload host h
  unfold restoreApplicationSecrets
  split
  · exact .refl P m cats payload host
  · next secrets hsecrets =>
      split
      · exact .refl P m cats payload host
      · split
        · next hadopt =>
            exact filesEffect_writeApplicationSecrets P m cats payload host h hend hsecrets hadopt
        · exact .refl P m cats payload host

/-- What restoring the certificate files does. -/
theorem FilesEffect.of_ssl {files : Files} {host' : Host} (hfiles : .sslFiles ∉ cats → files = host.ssl)
    (h : FilesEffect P m cats payload { host with ssl := files } host') : FilesEffect P m cats payload host host' where
  tables := h.tables
  users := h.users
  ssl hn := (h.ssl hn).trans (hfiles hn)
  secrets := h.secrets
  durable := h.durable
  container := h.container
  processKey := h.processKey

/-- What restoring the files does. -/
theorem filesEffect_restoreFiles (sourceKey : Str) :
    FilesEffect P m cats payload host (restoreFiles P m sourceKey cats payload host).2 := by
  have hssl : .sslFiles ∉ cats → (sslAfter P m sourceKey cats payload host).2 = host.ssl := by
    intro hn
    rw [sslAfter, if_neg hn]
  refine .of_ssl P m cats payload host hssl ?_
  unfold restoreFiles
  dsimp only
  split
  · exact .refl P m cats payload _
  · show FilesEffect P m cats payload _ (secretsAfter P m cats payload _).2
    unfold secretsAfter
    split
    · next h => exact filesEffect_restoreApplicationSecrets P m cats payload _ h
    · exact .refl P m cats payload _

end Files

/-! ## the whole restore -/

section Restore

variable (payload : Dict) (categories : List Str) (host : Host)

/-- A restore leaves everything as it was, or it commits the transaction and
goes on with the files. -/
theorem restorePayload_cases :
    ((∃ exc, (restorePayload P m payload categories host).1 = .error exc) ∧
      (restorePayload P m payload categories host).2 = host) ∨
    ∃ db, validateRestoreRecords P host.processKey (normalizeCategories categories) payload = .ok () ∧
      restoreDatabase P m host.processKey (archiveKey P (normalizeCategories categories) payload)
        (normalizeCategories categories) payload host.db = .ok db ∧
      restorePayload P m payload categories host =
        restoreFiles P m (archiveKey P (normalizeCategories categories) payload)
          (normalizeCategories categories) payload { host with db := db } := by
  unfold restorePayload
  dsimp only
  split
  · exact .inl ⟨⟨_, rfl⟩, rfl⟩
  · split
    · exact .inl ⟨⟨_, rfl⟩, rfl⟩
    · next hvalid =>
        split
        · exact .inl ⟨⟨_, rfl⟩, rfl⟩
        · next db hdb => exact .inr ⟨db, hvalid, hdb, rfl⟩

/-- A restore whose transaction was committed. -/
structure Restored (cats : List Category) (payload : Dict) (host host' : Host) (db : Db) : Prop where
  valid : validateRestoreRecords P host.processKey cats payload = .ok ()
  database : restoreDatabase P m host.processKey (archiveKey P cats payload) cats payload host.db =
    .ok db
  files : FilesEffect P m cats payload { host with db := db } host'

variable {payload categories host}

/-- A restore raises and leaves everything as it was, or commits. -/
theorem restored_or_same (r : Except Exc RestoreResult) (host' : Host)
    (h : restorePayload P m payload categories host = (r, host')) :
    (∃ exc, r = .error exc) ∧ host' = host ∨
      ∃ db, Restored P m (normalizeCategories categories) payload host host' db := by
  rcases restorePayload_cases P m payload categories host with hcase | hcase
  · rw [h] at hcase
    exact .inl hcase
  · obtain ⟨db, hvalid, hdb, heq⟩ := hcase
    refine .inr ⟨db, hvalid, hdb, ?_⟩
    have hfiles := filesEffect_restoreFiles P m (normalizeCategories categories) payload
      { host with db := db } (archiveKey P (normalizeCategories categories) payload)
    rw [← heq, h] at hfiles
    exact hfiles

/-- A restore that succeeds has committed. -/
theorem restored_of_ok {result : RestoreResult} {host' : Host}
    (h : restorePayload P m payload categories host = (.ok result, host')) :
    ∃ db, Restored P m (normalizeCategories categories) payload host host' db := by
  rcases restored_or_same P m (.ok result) host' h with hraised | hrestored
  · obtain ⟨⟨exc, hexc⟩, -⟩ := hraised
    contradiction
  · exact hrestored

end Restore

end ApiToDns.Backup
