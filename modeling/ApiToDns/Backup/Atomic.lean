import ApiToDns.Backup.Checked

/-!
# Backup.Atomic

A restore that raises has changed nothing, if it raises before the database
is committed.  What comes after cannot be undone: `allOrNothing_iff` says that
a restore is all-or-nothing exactly when it is refused before, or none of the
files can fail.
-/

namespace ApiToDns.Backup

open Py

variable (P : Platform) (m : Moment)

/-- The restore returns, or it leaves the installation as it was. -/
def AllOrNothing (payload : Dict) (categories : List Str) (host : Host) : Prop :=
  (∃ exc, (restorePayload P m payload categories host).1 = .error exc) →
    (restorePayload P m payload categories host).2 = host

/-- The restore gets past its checks and its transaction. -/
def Commits (payload : Dict) (categories : List Str) (host : Host) : Prop :=
  let cats := normalizeCategories categories
  cats ≠ [] ∧ validateRestoreRecords P host.processKey cats payload = .ok () ∧
    ∃ db, restoreDatabase P m host.processKey (archiveKey P cats payload) cats payload host.db = .ok db

/-- An account key can be restored: it is plain, or its token is empty, of
this installation, or readable with the key of the archive. -/
def AcmeKeyRestorable (destKey sourceKey : Str) (raw : List UInt8) : Prop :=
  looksLikePemPrivateKey raw = true ∨
    ∃ token, Utf8.decodeStrict raw = some token ∧
      (token = [] ∨ sourceKey = strip destKey ∨
        P.fernet.valid sourceKey = true ∧ ∃ data, P.fernet.decrypt sourceKey token = some data)

/-- The `.env` of the project is not edited, or is text. -/
def EnvEditable (file : Option (List UInt8)) : Prop :=
  m.mayEditEnv = true → ∀ raw ∈ file, ∃ text, Utf8.decodeStrict raw = some text

/-- None of the files that the restore writes can fail, `file` being the `.env`
of the project. -/
structure FilesRestorable (destKey : Str) (file : Option (List UInt8)) (cats : List Category)
    (payload : Dict) : Prop where
  writable : .sslFiles ∈ cats → ∀ file ∈ filesOf payload, file.1 ∈ sslFileNames →
    m.writes file.1 = true
  acmeAccountKey : .sslFiles ∈ cats → ∀ text raw,
    (acmeAccountKeyFilename, Json.str text) ∈ filesOf payload →
      Base64.b64decode false text = some raw →
        AcmeKeyRestorable P destKey (archiveKey P cats payload) raw
  secretsWritable : .applicationSecrets ∈ cats → ∀ secrets, secretsOf payload = .ok secrets →
    adoptsArchiveKeys destKey cats secrets = true →
      m.writes appSecretsFilename = true ∧ EnvEditable m file

variable {P m}

/-! ## the SSL directory -/

/-- When a token can be sealed again. -/
theorem rewrapFernetToken_isOk_iff {destKey sourceKey label token : Str} :
    (∃ t, rewrapFernetToken P destKey sourceKey label token = .ok t) ↔
      token = [] ∨ sourceKey = strip destKey ∨
        P.fernet.valid sourceKey = true ∧ ∃ data, P.fernet.decrypt sourceKey token = some data := by
  unfold rewrapFernetToken
  by_cases hnil : token = []
  · simp [hnil]
  · by_cases hkey : sourceKey = strip destKey
    · simp [hnil, hkey]
    · cases hvalid : P.fernet.valid sourceKey with
      | false => simp [hnil, hkey, backupError]
      | true => cases hdata : P.fernet.decrypt sourceKey token <;> simp [hnil, hkey, backupError]

/-- A file that passed the check can be written unless it is an account key
that cannot be rewrapped. -/
theorem sslFileContent_isOk_iff {destKey sourceKey : Str} {file : Str × Json} {text : Str}
    {raw : List UInt8} (htext : file.2 = .str text) (hraw : Base64.b64decode false text = some raw)
    (hsource : sourceKey ≠ []) :
    (∃ content, sslFileContent P destKey sourceKey file = .ok content) ↔
      (file.1 = acmeAccountKeyFilename → AcmeKeyRestorable P destKey sourceKey raw) := by
  have hdecoded : asText file.2 = .ok text := by rw [htext, asText]
  unfold sslFileContent
  rw [hdecoded, ok_bind, hraw]
  dsimp only
  by_cases hname : file.1 = acmeAccountKeyFilename
  · cases hpem : looksLikePemPrivateKey raw with
    | true => simp [AcmeKeyRestorable, hpem]
    | false =>
        simp only [hname, hsource, ne_eq, not_false_eq_true, true_and, if_true, forall_const,
          AcmeKeyRestorable, hpem, Bool.false_eq_true, false_or]
        cases htoken : Utf8.decodeStrict raw with
        | none => simp
        | some token =>
            have hrewraps : (∃ t,
                rewrapFernetToken P destKey sourceKey (lit "ACME account key") token = .ok t) ↔ _ :=
              rewrapFernetToken_isOk_iff
            simp only [Option.some.injEq, exists_eq_left', ← hrewraps, bind_eq_ok_iff,
              Except.ok.injEq]
            constructor
            · intro h
              obtain ⟨content, t, ht, -⟩ := h
              exact ⟨t, ht⟩
            · intro h
              obtain ⟨t, ht⟩ := h
              exact ⟨_, t, ht, rfl⟩
  · simp [hname]

section Ssl

variable {destKey sourceKey : Str}

/-- Every file is written when each has a content and can be written. -/
theorem writeSslFiles_isOk_iff {files : Dict} {count : Nat} {dir : Files} :
    (∃ n, (writeSslFiles P m destKey sourceKey files count dir).1 = .ok n) ↔
      ∀ file ∈ files, file.1 ∈ sslFileNames →
        (∃ raw, sslFileContent P destKey sourceKey file = .ok raw) ∧ m.writes file.1 = true := by
  induction files generalizing count dir with
  | nil => simp [writeSslFiles]
  | cons file files ih =>
      rw [List.forall_mem_cons, writeSslFiles]
      by_cases hname : file.1 ∈ sslFileNames
      · rw [if_neg (not_not.mpr hname)]
        cases hraw : sslFileContent P destKey sourceKey file with
        | error exc => simp [hname]
        | ok raw =>
            cases hwrites : m.writes file.1 with
            | false => simp [hname]
            | true => simp [hname, ih]
      · rw [if_pos hname, ih]
        simp [hname]

/-- What is written does not depend on what was there. -/
theorem writeSslFiles_congr {files : Dict} {count : Nat} {dir dir' : Files} {name : Str}
    (h : dir name = dir' name) :
    (writeSslFiles P m destKey sourceKey files count dir).2 name =
      (writeSslFiles P m destKey sourceKey files count dir').2 name := by
  induction files generalizing count dir dir' with
  | nil => exact h
  | cons file files ih =>
      rw [writeSslFiles, writeSslFiles]
      split
      · exact ih h
      · split
        · exact h
        · split
          · refine ih ?_
            by_cases hname : name = file.1
            · rw [hname, Function.update_self, Function.update_self]
            · rw [Function.update_of_ne hname, Function.update_of_ne hname, h]
          · exact h

/-- A file that passed the check has a content in base64. -/
theorem exists_of_validateSslFile {file : Str × Json} (hname : file.1 ∈ sslFileNames)
    (h : validateSslFile file = .ok ()) :
    ∃ text raw, file.2 = .str text ∧ Base64.b64decode false text = some raw := by
  unfold validateSslFile at h
  rw [if_neg (not_not.mpr hname)] at h
  split at h
  · next text htext =>
      split at h
      · contradiction
      · split at h
        · next raw hraw => exact ⟨text, raw, htext, Base64.decode_of_strict hraw⟩
        · contradiction
  · contradiction

end Ssl

section Checked

variable {destKey : Str} {cats : List Category} {payload : Dict}

/-- The certificate files of a validated payload are sound. -/
theorem validateSslFile_of_mem (h : validateRestoreRecords P destKey cats payload = .ok ())
    (hcat : .sslFiles ∈ cats) : ∀ file ∈ filesOf payload, validateSslFile file = .ok () := by
  have hssl := (validateRestoreRecords_eq_ok_iff.mp h).2.2.2.2.2.2.1 hcat
  obtain ⟨files, hfiles, hlist⟩ := bind_eq_ok hssl
  have hobj := objectCategory_eq_ok hfiles
  have hcheck := forM_eq_ok_iff.mp hlist
  unfold filesOf
  split
  · next fields hfields =>
      rw [hfields] at hobj
      cases fields with
      | nil => simp
      | cons field fields =>
          have heq : field :: fields = files := Json.obj.inj hobj
          rw [heq]
          exact hcheck
  · simp

/-- The SSL part cannot fail when its files are restorable. -/
theorem sslAfter_isOk_iff (h : validateRestoreRecords P destKey cats payload = .ok ()) {host : Host}
    (hkey : host.processKey = destKey) :
    (∃ n, (sslAfter P m (archiveKey P cats payload) cats payload host).1 = .ok n) ↔
      (.sslFiles ∈ cats → ∀ file ∈ filesOf payload, file.1 ∈ sslFileNames →
        m.writes file.1 = true) ∧
      (.sslFiles ∈ cats → ∀ text raw, (acmeAccountKeyFilename, Json.str text) ∈ filesOf payload →
        Base64.b64decode false text = some raw →
          AcmeKeyRestorable P destKey (archiveKey P cats payload) raw) := by
  unfold sslAfter
  by_cases hcat : .sslFiles ∈ cats
  · have hsource := archiveKey_ne_nil h (c := .sslFiles) (by simp [fernetBackedCategories]) hcat
    have hvalid := validateSslFile_of_mem h hcat
    rw [if_pos hcat, restoreSslFiles, writeSslFiles_isOk_iff, hkey]
    constructor
    · intro hfiles
      refine ⟨fun _ file hfile hname => (hfiles file hfile hname).2, fun _ text raw hfile hraw => ?_⟩
      have hname : acmeAccountKeyFilename ∈ sslFileNames := by simp [sslFileNames]
      exact (sslFileContent_isOk_iff rfl hraw hsource).mp (hfiles _ hfile hname).1 rfl
    · intro hfiles file hfile hname
      obtain ⟨text, raw, htext, hraw⟩ := exists_of_validateSslFile hname (hvalid file hfile)
      refine ⟨(sslFileContent_isOk_iff htext hraw hsource).mpr fun hacme => ?_,
        hfiles.1 hcat file hfile hname⟩
      exact hfiles.2 hcat text raw (by rw [← hacme, ← htext]; exact hfile) hraw
  · simp [hcat]

end Checked

/-! ## the application secrets -/

section Secrets

variable {destKey : Str} {cats : List Category} {payload : Dict} {host : Host} {secrets : Secrets}

/-- The `.env` of the project is edited if it may be and is text. -/
theorem editProjectEnv_isOk_iff (secrets : Secrets) {file : Option (List UInt8)} :
    (editProjectEnv m secrets file).1 = .ok () ↔ EnvEditable m file := by
  unfold editProjectEnv EnvEditable
  cases file with
  | none => simp
  | some raw =>
      dsimp only
      cases m.mayEditEnv with
      | false => simp
      | true =>
          rw [if_pos rfl]
          cases htext : Utf8.decodeStrict raw with
          | none => simp [htext]
          | some text =>
              dsimp only
              refine iff_of_true (by split <;> rfl) fun _ raw' hraw => ⟨text, ?_⟩
              rwa [← Option.some.inj hraw]

/-- The accounts that end their sessions do not hang on the files. -/
theorem projectEnv_endSessions : (endSessions m cats host).projectEnv = host.projectEnv := by
  unfold endSessions
  split <;> rfl

/-- The secrets of an archive that passed the checks are written, if they are
adopted and the files can be written; the sessions end before. -/
theorem restoreApplicationSecrets_of_checked (h : SecretsChecked P destKey cats payload secrets)
    (hkey : host.processKey = destKey) :
    ((∃ b, (restoreApplicationSecrets P m cats payload host).1 = .ok b) ↔
        (adoptsArchiveKeys destKey cats secrets = true →
          m.writes appSecretsFilename = true ∧ EnvEditable m host.projectEnv)) ∧
      ((¬∃ b, (restoreApplicationSecrets P m cats payload host).1 = .ok b) →
        (restoreApplicationSecrets P m cats payload host).2.db = (endSessions m cats host).db) := by
  obtain ⟨secretKey, hsecret⟩ := h.validSecretKey
  obtain ⟨encryptionKey, hencryption⟩ := h.validEncryptionKey
  have hcomplete : ¬(secrets.secretKey = [] ∨ secrets.encryptionKey = []) :=
    not_or.mpr ⟨h.secretKey, h.encryptionKey⟩
  rw [restoreApplicationSecrets, h.eq]
  dsimp only
  rw [if_neg hcomplete, hkey]
  cases hadopt : adoptsArchiveKeys destKey cats secrets with
  | false => simp
  | true =>
      simp only [if_true, writeApplicationSecrets, hsecret, hencryption]
      cases m.writes appSecretsFilename with
      | false => simp
      | true =>
          simp only [if_true, true_and, forall_const, projectEnv_endSessions]
          refine ⟨?_, fun _ => trivial⟩
          rw [← editProjectEnv_isOk_iff ⟨secretKey, encryptionKey⟩]
          cases (editProjectEnv m ⟨secretKey, encryptionKey⟩ host.projectEnv).1 <;> simp

/-- When the secrets are restored. -/
theorem secretsAfter_isOk_iff (h : validateRestoreRecords P destKey cats payload = .ok ())
    (hkey : host.processKey = destKey) :
    (∃ b, (secretsAfter P m cats payload host).1 = .ok b) ↔
      (.applicationSecrets ∈ cats → ∀ secrets, secretsOf payload = .ok secrets →
        adoptsArchiveKeys destKey cats secrets = true →
          m.writes appSecretsFilename = true ∧ EnvEditable m host.projectEnv) := by
  unfold secretsAfter
  by_cases hcat : .applicationSecrets ∈ cats
  · obtain ⟨secrets, hchecked⟩ := secretsChecked h hcat
    rw [if_pos hcat, (restoreApplicationSecrets_of_checked hchecked hkey).1, hchecked.eq]
    simp [hcat]
  · simp [hcat]

/-- Where the secrets cannot be written the sessions have ended and no other row
has changed. -/
theorem secretsAfter_failed (h : validateRestoreRecords P destKey cats payload = .ok ())
    (hkey : host.processKey = destKey)
    (hfailed : ¬∃ b, (secretsAfter P m cats payload host).1 = .ok b) :
    (secretsAfter P m cats payload host).2.db = (endSessions m cats host).db := by
  unfold secretsAfter at hfailed ⊢
  by_cases hcat : .applicationSecrets ∈ cats
  · obtain ⟨secrets, hchecked⟩ := secretsChecked h hcat
    rw [if_pos hcat] at hfailed ⊢
    exact (restoreApplicationSecrets_of_checked hchecked hkey).2 hfailed
  · rw [if_neg hcat] at hfailed
    exact absurd ⟨false, rfl⟩ hfailed

end Secrets

/-! ## the whole restore -/

section Whole

variable {payload : Dict} {categories : List Str} {host : Host}

/-- When the files are restored. -/
theorem restoreFiles_isOk_iff {cats : List Category} {sourceKey : Str} :
    (∃ r, (restoreFiles P m sourceKey cats payload host).1 = .ok r) ↔
      (∃ n, (sslAfter P m sourceKey cats payload host).1 = .ok n) ∧
        ∃ b, (secretsAfter P m cats payload
          { host with ssl := (sslAfter P m sourceKey cats payload host).2 }).1 = .ok b := by
  unfold restoreFiles
  dsimp only
  cases (sslAfter P m sourceKey cats payload host).1 with
  | error exc => simp
  | ok n =>
      cases (secretsAfter P m cats payload
        { host with ssl := (sslAfter P m sourceKey cats payload host).2 }).1 <;> simp

/-- A restore that commits goes on with the files. -/
theorem restorePayload_of_commits {db : Db} (hcats : normalizeCategories categories ≠ [])
    (hvalid : validateRestoreRecords P host.processKey (normalizeCategories categories) payload =
      .ok ())
    (hdb : restoreDatabase P m host.processKey
      (archiveKey P (normalizeCategories categories) payload) (normalizeCategories categories)
        payload host.db = .ok db) :
    restorePayload P m payload categories host =
      restoreFiles P m (archiveKey P (normalizeCategories categories) payload)
        (normalizeCategories categories) payload { host with db := db } := by
  rw [restorePayload]
  dsimp only
  rw [if_neg hcats, hvalid]
  dsimp only
  rw [hdb]

/-- What a committed restore does to the parts of an installation. -/
theorem restored_of_commits (h : Commits P m payload categories host) :
    ∃ db, Restored P m (normalizeCategories categories) payload host
      (restorePayload P m payload categories host).2 db := by
  obtain ⟨hcats, hvalid, db, hdb⟩ := h
  refine ⟨db, hvalid, hdb, ?_⟩
  rw [restorePayload_of_commits hcats hvalid hdb]
  exact filesEffect_restoreFiles P m _ _ { host with db := db } _

/-- A committed restore returns exactly when none of its files can fail. -/
theorem Commits.returns_iff (h : Commits P m payload categories host) :
    (∃ r, (restorePayload P m payload categories host).1 = .ok r) ↔
      FilesRestorable P m host.processKey host.projectEnv (normalizeCategories categories)
        payload := by
  obtain ⟨hcats, hvalid, db, hdb⟩ := h
  rw [restorePayload_of_commits hcats hvalid hdb, restoreFiles_isOk_iff]
  refine Iff.trans (and_congr (sslAfter_isOk_iff hvalid rfl) (secretsAfter_isOk_iff hvalid rfl)) ?_
  constructor
  · intro hfiles
    exact ⟨hfiles.1.1, hfiles.1.2, hfiles.2⟩
  · intro hfiles
    exact ⟨⟨hfiles.writable, hfiles.acmeAccountKey⟩, hfiles.secretsWritable⟩

/-- A restore that does not commit changes nothing. -/
theorem unchanged_of_not_commits (h : ¬Commits P m payload categories host) :
    (restorePayload P m payload categories host).2 = host := by
  by_cases hcats : normalizeCategories categories = []
  · rw [restorePayload]
    dsimp only
    rw [if_pos hcats]
  · rcases restorePayload_cases P m payload categories host with hsame | hcommitted
    · exact hsame.2
    · obtain ⟨db, hvalid, hdb, -⟩ := hcommitted
      exact absurd ⟨hcats, hvalid, db, hdb⟩ h

/-- The installation with other SSL files and other accounts. -/
def Host.having (host : Host) (ssl : Files) (users : Table User) : Host :=
  { host with ssl := ssl, db := { host.db with users := users } }

/-- The transaction does not read the accounts it replaces or keeps. -/
theorem restoreDatabase_having {cats : List Category} {key sourceKey : Str} {db db' : Db}
    (h : restoreDatabase P m key sourceKey cats payload db = .ok db') (users : Table User) :
    restoreDatabase P m key sourceKey cats payload { db with users := users } =
      .ok { db' with users := if .users ∈ cats then db'.users else users } := by
  obtain ⟨hs, hu, hz, hk, hr, hl⟩ := (restoreDatabase_eq_ok_iff P m _ _ _ _ _).mp h
  refine (restoreDatabase_eq_ok_iff P m _ _ _ _ _).mpr ⟨hs, ?_, hz, hk, hr, hl⟩
  unfold usersAfter at hu ⊢
  split
  · next hcat =>
      rw [if_pos hcat] at hu
      exact hu
  · rfl

/-- Whether a restore commits does not depend on the files and the accounts. -/
theorem commits_having (h : Commits P m payload categories host) (ssl : Files)
    (users : Table User) : Commits P m payload categories (host.having ssl users) := by
  obtain ⟨hcats, hvalid, db, hdb⟩ := h
  exact ⟨hcats, hvalid, _, restoreDatabase_having hdb users⟩

/-- An account whose session version is not the next one drawn. -/
def someUser (version : Int) : User where
  username := lit "admin"
  passwordHash := []
  roles := []
  disabled := false
  sessionVersion := version

/-- What the SSL part leaves in the place of a file it restores does not depend
on what was there. -/
theorem sslAfter_congr {cats : List Category} {sourceKey : Str} {host host' : Host}
    (hcat : .sslFiles ∈ cats) (hkey : host.processKey = host'.processKey) {name : Str}
    (hname : name ∈ sslFileNames) :
    (sslAfter P m sourceKey cats payload host).2 name =
      (sslAfter P m sourceKey cats payload host').2 name := by
  rw [sslAfter, sslAfter, if_pos hcat, if_pos hcat, restoreSslFiles, restoreSslFiles, hkey]
  refine writeSslFiles_congr ?_
  rw [removeSslFiles, removeSslFiles, if_pos hname, if_pos hname]

/-- After the certificate files fail, the secrets are not touched. -/
theorem restoreFiles_of_ssl_failed {cats : List Category} {sourceKey : Str}
    (h : ¬∃ n, (sslAfter P m sourceKey cats payload host).1 = .ok n) :
    (restoreFiles P m sourceKey cats payload host).2 =
      { host with ssl := (sslAfter P m sourceKey cats payload host).2 } := by
  unfold restoreFiles
  dsimp only
  split
  · rfl
  · next n hn => exact absurd ⟨n, hn⟩ h

/-- After the certificate files the secrets follow. -/
theorem restoreFiles_of_ssl_ok {cats : List Category} {sourceKey : Str} {n : Nat}
    (h : (sslAfter P m sourceKey cats payload host).1 = .ok n) :
    (restoreFiles P m sourceKey cats payload host).2 =
      (secretsAfter P m cats payload
        { host with ssl := (sslAfter P m sourceKey cats payload host).2 }).2 := by
  unfold restoreFiles
  dsimp only
  rw [h]

/-- A committed restore that raises has changed the files or the accounts of
some installation. -/
theorem Commits.changes (h : Commits P m payload categories host)
    (hfiles : ¬FilesRestorable P m host.processKey host.projectEnv (normalizeCategories categories)
      payload) :
    ∃ ssl users, (restorePayload P m payload categories (host.having ssl users)).2 ≠
      host.having ssl users := by
  obtain ⟨hcats, hvalid, db, hdb⟩ := h
  have hrestore : ∀ ssl users, restorePayload P m payload categories (host.having ssl users) =
      restoreFiles P m (archiveKey P (normalizeCategories categories) payload)
        (normalizeCategories categories) payload
        { host.having ssl users with
          db := { db with users :=
            if .users ∈ normalizeCategories categories then db.users else users } } :=
    fun ssl users => restorePayload_of_commits hcats hvalid (restoreDatabase_having hdb users)
  by_contra hsame
  push Not at hsame
  by_cases hssl : ∃ n, (sslAfter P m (archiveKey P (normalizeCategories categories) payload)
      (normalizeCategories categories) payload host).1 = .ok n
  · have hssl' := (sslAfter_isOk_iff hvalid rfl).mp hssl
    -- the SSL part returns, so it is the secrets that cannot be written
    have hsecrets : ∀ host' : Host, host'.processKey = host.processKey →
        host'.projectEnv = host.projectEnv →
        ¬∃ b, (secretsAfter P m (normalizeCategories categories) payload host').1 = .ok b := by
      intro host' hkey henv hok
      have hwritable := (secretsAfter_isOk_iff hvalid hkey).mp hok
      rw [henv] at hwritable
      exact hfiles ⟨hssl'.1, hssl'.2, hwritable⟩
    have hended : ∀ users, (endSessions m (normalizeCategories categories)
        { host.having host.ssl users with
          db := { db with users :=
            if .users ∈ normalizeCategories categories then db.users else users } }).db.users =
          users := by
      intro users
      have hs := congrArg (fun host : Host => host.db.users) (hsame host.ssl users)
      rw [hrestore] at hs
      generalize hafter : ({ host.having host.ssl users with
          db := { db with users :=
            if .users ∈ normalizeCategories categories then db.users else users } } : Host) =
          after at hs ⊢
      have hkey : after.processKey = host.processKey := by
        rw [← hafter]
        rfl
      have henv : after.projectEnv = host.projectEnv := by
        rw [← hafter]
        rfl
      obtain ⟨n, hn⟩ := (sslAfter_isOk_iff (m := m) hvalid hkey).mpr hssl'
      have hlast : ∀ host' : Host, host'.processKey = host.processKey →
          host'.projectEnv = host.projectEnv →
          (secretsAfter P m (normalizeCategories categories) payload host').2.db =
            (endSessions m (normalizeCategories categories) host').db := fun host' hkey' henv' =>
        secretsAfter_failed hvalid hkey' (hsecrets host' hkey' henv')
      rw [restoreFiles_of_ssl_ok hn, hlast _ (by exact hkey) (by exact henv)] at hs
      unfold endSessions at hs ⊢
      split at hs
      · next hcat => rw [if_pos hcat]; exact hs
      · next hcat => rw [if_neg hcat]; exact hs
    unfold endSessions at hended
    by_cases hcat : .users ∈ normalizeCategories categories
    · simp only [if_pos hcat] at hended
      have := (hended .empty).symm.trans (hended (.ofList [someUser 0]))
      exact absurd this (by decide)
    · simp only [if_neg hcat] at hended
      have hversion := congrArg (fun users => users.rows.map fun row => row.val.sessionVersion)
        (hended (.ofList [someUser (m.draw 1 + 1)]))
      have hfresh : m.draw 1 = m.draw 1 + 1 := List.head_eq_of_cons_eq hversion
      omega
  · have hcat : .sslFiles ∈ normalizeCategories categories := by
      by_contra hn
      exact hssl ⟨0, by rw [sslAfter, if_neg hn]⟩
    have hfailed := fun (host' : Host) (hkey : host'.processKey = host.processKey) =>
      restoreFiles_of_ssl_failed (mt (sslAfter_isOk_iff (m := m) hvalid hkey).mp
        (mt (sslAfter_isOk_iff hvalid rfl).mpr hssl))
    have hkept : ∀ ssl : Files, (sslAfter P m (archiveKey P (normalizeCategories categories) payload)
        (normalizeCategories categories) payload host).2 acmeAccountKeyFilename =
          ssl acmeAccountKeyFilename := by
      intro ssl
      have hs := congrArg (fun host : Host => host.ssl acmeAccountKeyFilename)
        (hsame ssl host.db.users)
      rw [hrestore] at hs
      generalize hafter : ({ host.having ssl host.db.users with
          db := { db with users :=
            if .users ∈ normalizeCategories categories then db.users else host.db.users } } : Host) =
          after at hs
      have hkey : after.processKey = host.processKey := by
        rw [← hafter]
        rfl
      rw [hfailed after hkey] at hs
      rw [sslAfter_congr hcat hkey.symm (by simp [sslFileNames])]
      exact hs
    exact absurd ((hkept fun _ => none).symm.trans (hkept fun _ => some [])) (by simp)

/-- A restore is all-or-nothing, whatever the accounts and SSL files are,
exactly when none of its files can fail once it commits. -/
theorem allOrNothing_iff (payload : Dict) (categories : List Str) (host : Host) :
    (∀ ssl users, AllOrNothing P m payload categories (host.having ssl users)) ↔
      (Commits P m payload categories host →
        FilesRestorable P m host.processKey host.projectEnv (normalizeCategories categories)
          payload) := by
  constructor
  · intro hall hcommits
    by_contra hfiles
    obtain ⟨ssl, users, hchanged⟩ := hcommits.changes hfiles
    refine hchanged (hall ssl users ?_)
    have hraises := mt (commits_having hcommits ssl users).returns_iff.mp hfiles
    cases hr : (restorePayload P m payload categories (host.having ssl users)).1 with
    | ok r => exact absurd ⟨r, hr⟩ hraises
    | error exc => exact ⟨exc, rfl⟩
  · intro hfiles ssl users hraised
    by_cases hcommits : Commits P m payload categories (host.having ssl users)
    · obtain ⟨exc, hexc⟩ := hraised
      obtain ⟨r, hr⟩ := hcommits.returns_iff.mpr (hfiles (commits_having hcommits host.ssl host.db.users))
      rw [hr] at hexc
      contradiction
    · exact unchanged_of_not_commits hcommits

end Whole

/-- Another Fernet key. -/
def otherKey : Str := lit "BBBBBBBBBBBBBBBBBBBBBBBBBBBBBBBBBBBBBBBBBBA="

/-- An archive of another installation, whose account key is `garbage`. -/
def acmeArchive : Dict :=
  [(lit "manifest", .obj [(lit "envelope_encrypted", .bool true)]),
    (lit "ssl_files", .obj [(lit "acme_account.key", .str (lit "Z2FyYmFnZQ=="))]),
    (lit "application_secrets", .obj [(lit "SECRET_KEY", .str (lit "secret")),
      (lit "ENCRYPTION_KEY", .str otherKey)])]

/-- An installation with a certificate. -/
def certifiedHost : Host :=
  { newHost with ssl := fun name => if name = lit "server.crt" then some [1] else none }

/-- An account key that is no token of the archive's installation raises when
the certificate is already gone. -/
theorem not_allOrNothing_acme :
    (restorePayload .plain calm acmeArchive [lit "ssl_files", lit "application_secrets"]
        certifiedHost).1 =
        .error (.runtimeError (lit "ACME account key could not be decrypted with the backup ENCRYPTION_KEY. The archive secrets do not match the encrypted data.")) ∧
      ¬AllOrNothing .plain calm acmeArchive [lit "ssl_files", lit "application_secrets"]
        certifiedHost := by
  have hraises : (restorePayload .plain calm acmeArchive
      [lit "ssl_files", lit "application_secrets"] certifiedHost).1 =
      .error (.runtimeError (lit "ACME account key could not be decrypted with the backup ENCRYPTION_KEY. The archive secrets do not match the encrypted data.")) := by
    decide +kernel
  refine ⟨hraises, fun hall => ?_⟩
  have hcrt := congrArg (fun host : Host => host.ssl (lit "server.crt")) (hall ⟨_, hraises⟩)
  exact absurd hcrt (by decide)

end ApiToDns.Backup
