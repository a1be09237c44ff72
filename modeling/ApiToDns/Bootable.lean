import ApiToDns.Backup.Atomic
import ApiToDns.Backup.Readable
import ApiToDns.SslCerts

/-!
# Bootable

HTTPS that is enabled needs a key and a certificate that belong to each other
at the next start.  They are two files written one after the other, and the
setting is a row of the database, so that a step which fails half way, or
restores one without the other, can lose them.  `KeepsPair` says what each
step needs; where every step has it HTTPS stays bootable
(`https_stays_bootable`).
-/

namespace ApiToDns

open Py Backup

variable (S : Site)

/-- The setting `ssl_enabled` is stored as true. -/
def SslEnabled (host : Host) : Prop := isSslEnabled S host = .ok true

/-- Key and certificate exist and belong to each other. -/
def Paired (L : CertLib) (files : Files) : Prop :=
  ∃ key cert, files keyFilename = some key ∧ files certFilename = some cert ∧ L.Belong key cert

/-- HTTPS has its pair where it is enabled. -/
def Bootable (host : Host) : Prop := SslEnabled S host → Paired S.L host.ssl

/-! ## what the steps need -/

/-- A key is written over `files` with its certificate, or it is for the
certificate that is there. -/
def WrittenWhole (L : CertLib) (writes : Nat → Bool) (key : List UInt8) (files : Files) : Prop :=
  writes 0 = true → writes 1 = true ∨ ∃ cert, files certFilename = some cert ∧ L.Belong key cert

/-- The settings of an archive enable HTTPS, as the key of the archive reads
them. -/
def ArchiveEnables (sourceKey : Str) (payload : Dict) : Prop :=
  ∃ item ∈ itemsOf payload .settings, ∃ token, SettingItem item sslEnabledSpec.key token ∧
    truthValue (decryptValue S.P sourceKey token >>= parseTypedText S.P sslEnabledSpec) = .ok true

/-- The content of a file of an archive. -/
def Supplies (destKey sourceKey : Str) (files : Dict) (name : Str) (content : List UInt8) : Prop :=
  (∃ file ∈ files, file.1 = name) ∧
    ∀ file ∈ files, file.1 = name → sslFileContent S.P destKey sourceKey file = .ok content

/-- The files of an archive that are written whatever the others are. -/
def Writable (m : Moment) (destKey sourceKey : Str) (files : Dict) : Prop :=
  ∀ file ∈ files, file.1 ∈ sslFileNames →
    (∃ raw, sslFileContent S.P destKey sourceKey file = .ok raw) ∧ m.writes file.1 = true

/-- An archive has a pair, and no file up to it fails. -/
def RestoresPair (m : Moment) (destKey sourceKey : Str) (payload : Dict) : Prop :=
  ∃ front rest key cert, filesOf payload = front ++ rest ∧
    Writable S m destKey sourceKey front ∧
    (∀ file ∈ rest, file.1 ≠ keyFilename ∧ file.1 ≠ certFilename) ∧
    Supplies S destKey sourceKey front keyFilename key ∧
    Supplies S destKey sourceKey front certFilename cert ∧ S.L.Belong key cert

/-- HTTPS is enabled after a restore. -/
def EnabledAfter (cats : List Category) (payload : Dict) (host : Host) : Prop :=
  if .settings ∈ cats then ArchiveEnables S (archiveKey S.P cats payload) payload
  else SslEnabled S host

/-- There is a pair after a restore. -/
def PairedAfter (m : Moment) (cats : List Category) (payload : Dict) (host : Host) : Prop :=
  if .sslFiles ∈ cats then
    RestoresPair S m host.processKey (archiveKey S.P cats payload) payload
  else Paired S.L host.ssl

/-- What a step needs in order to leave HTTPS its pair. -/
def KeepsPair (host : Host) : SslStep S.L → Prop
  | .toggle desired => desired = true → certExists host.ssl = true → Paired S.L host.ssl
  | .selfSigned openssl writes => SslEnabled S host →
      (∃ name, checkedAppName S host = .ok name) ∧ (∃ pair, openssl = .made pair) ∧
        writes 0 = true ∧ writes 1 = true
  | .upload key cert now writes | .letsencrypt key cert now writes => SslEnabled S host →
      checkUpload S.L key cert now = .ok () → WrittenWhole S.L writes (S.L.pkcs8 key) host.ssl
  | .restore m payload categories => Commits S.P m payload categories host →
      EnabledAfter S (normalizeCategories categories) payload host →
        PairedAfter S m (normalizeCategories categories) payload host

/-- Every step of a run has what it needs. -/
def KeepsRun : Host → List (SslStep S.L) → Prop
  | _, [] => True
  | host, step :: steps => KeepsPair S host step ∧ KeepsRun (sslStep S host step) steps

/-! ## writing files -/

section Writing

variable {writes : Nat → Bool} {files : Files}

/-- A file that is not among those written stays as it is. -/
theorem writeFiles_of_other {name : Str} {list : List (Str × List UInt8)} {n : Nat}
    (h : ∀ file ∈ list, file.1 ≠ name) : (writeFiles writes n list files).2 name = files name := by
  induction list generalizing n files with
  | nil => rfl
  | cons file list ih =>
      obtain ⟨hfile, hlist⟩ := List.forall_mem_cons.mp h
      rw [writeFiles]
      split
      · rw [ih hlist, Function.update_of_ne hfile.symm]
      · rfl

/-- The key and the certificate are different files. -/
theorem keyFilename_ne_certFilename : keyFilename ≠ certFilename := by decide

/-- So is the note about their source. -/
theorem sourceFilename_ne :
    sourceFilename ≠ keyFilename ∧ sourceFilename ≠ certFilename := by decide

variable (writes files) in
/-- What is in the place of a pair after it is written. -/
theorem writeFiles_pair (key cert : List UInt8) {more : List (Str × List UInt8)}
    (hmore : ∀ file ∈ more, file.1 = sourceFilename) :
    (writeFiles writes 0 ([(keyFilename, key), (certFilename, cert)] ++ more) files).2 keyFilename =
        (if writes 0 then some key else files keyFilename) ∧
      (writeFiles writes 0 ([(keyFilename, key), (certFilename, cert)] ++ more) files).2
          certFilename =
        if writes 0 && writes 1 then some cert else files certFilename := by
  have hkey : ∀ dir, (writeFiles writes 2 more dir).2 keyFilename = dir keyFilename := fun dir =>
    writeFiles_of_other fun file hfile => by rw [hmore file hfile]; exact sourceFilename_ne.1
  have hcert : ∀ dir, (writeFiles writes 2 more dir).2 certFilename = dir certFilename := fun dir =>
    writeFiles_of_other fun file hfile => by rw [hmore file hfile]; exact sourceFilename_ne.2
  have hne := keyFilename_ne_certFilename
  cases h0 : writes 0 <;> cases h1 : writes 1 <;>
    simp [writeFiles, h0, h1, hkey, hcert, hne, hne.symm]

/-- A pair is kept exactly when the new one is written whole. -/
theorem paired_writeFiles {L : CertLib} {key cert : List UInt8} {more : List (Str × List UInt8)}
    (hmore : ∀ file ∈ more, file.1 = sourceFilename) (hnew : L.Belong key cert)
    (hold : Paired L files) :
    Paired L (writeFiles writes 0 ([(keyFilename, key), (certFilename, cert)] ++ more) files).2 ↔
      WrittenWhole L writes key files := by
  obtain ⟨hkey, hcert⟩ := writeFiles_pair writes files key cert hmore
  rw [Paired, WrittenWhole, hkey, hcert]
  cases h0 : writes 0 with
  | false => simpa [Paired] using hold
  | true => cases h1 : writes 1 <;> simp [hnew]

/-- A pair is there exactly when both of its files were written, if there was
none. -/
theorem paired_writeFiles_withoutPair {L : CertLib} {key cert : List UInt8}
    {more : List (Str × List UInt8)} (hmore : ∀ file ∈ more, file.1 = sourceFilename)
    (hnew : L.Belong key cert) :
    Paired L (writeFiles writes 0 ([(keyFilename, key), (certFilename, cert)] ++ more)
        (withoutPair files)).2 ↔ writes 0 = true ∧ writes 1 = true := by
  obtain ⟨hkey, hcert⟩ := writeFiles_pair writes (withoutPair files) key cert hmore
  rw [Paired, hkey, hcert]
  cases h0 : writes 0 <;> cases h1 : writes 1 <;> simp [withoutPair, hnew]

end Writing

/-! ## the setting -/

section Enabled

variable {S}

/-- HTTPS is off by default. -/
theorem sslEnabledSpec_default : truthValue (parseTyped S.P sslEnabledSpec none) = .ok false := by
  have hlower : S.P.ucd.lower (strip (lit "false")) = lit "false" := by
    rw [S.P.ucd.lower_ascii (forall_mem_of_all (by decide))]
    decide
  have htruthy : lit "false" ∉ truthyTexts := by decide
  have hfalsy : lit "false" ∈ falsyTexts := by decide
  simp [parseTyped, parseTypedText, sslEnabledSpec, hlower, htruthy, hfalsy, truthValue, Json.truthy]

/-- HTTPS is enabled by a row that reads as true. -/
theorem sslEnabled_iff {host : Host} :
    SslEnabled S host ↔ ∃ row ∈ host.db.settings.rows, row.val.name = sslEnabledSpec.key ∧
      truthValue (decryptValue S.P host.processKey row.val.value >>=
        parseTypedText S.P sslEnabledSpec) = .ok true := by
  rw [SslEnabled, isSslEnabled, getTypedSetting, getSetting]
  cases hrow : host.db.settings.byKey sslEnabledSpec.key with
  | none =>
      have hnone := Table.byKey_eq_none_iff.mp hrow
      simp only [ok_bind, sslEnabledSpec_default, Except.ok.injEq, Bool.false_eq_true, false_iff]
      rintro ⟨row, hmem, hname, -⟩
      exact hnone row hmem (congrArg some hname)
  | some row =>
      obtain ⟨hmem, hname⟩ := Table.byKey_eq_some_iff.mp hrow
      have hread : (some <$> decryptValue S.P host.processKey row.val.value >>=
          parseTyped S.P sslEnabledSpec) =
          decryptValue S.P host.processKey row.val.value >>= parseTypedText S.P sslEnabledSpec := by
        cases decryptValue S.P host.processKey row.val.value <;> rfl
      show truthValue (some <$> decryptValue S.P host.processKey row.val.value >>=
        parseTyped S.P sslEnabledSpec) = .ok true ↔ _
      rw [hread]
      constructor
      · intro htrue
        exact ⟨row, hmem, Option.some.inj hname, htrue⟩
      · rintro ⟨row', hmem', hname', htrue⟩
        have heq := host.db.settings.eq_of_key hmem hmem' hname (congrArg some hname')
        rw [heq]
        exact htrue

/-- HTTPS is read from the settings. -/
theorem sslEnabled_congr {host host' : Host} (hkey : host.processKey = host'.processKey)
    (hsettings : host.db.settings = host'.db.settings) : SslEnabled S host ↔ SslEnabled S host' := by
  rw [sslEnabled_iff, sslEnabled_iff, hkey, hsettings]

end Enabled

/-! ## the steps -/

section Steps

variable {S}

/-- Disabled, HTTPS is not enabled. -/
theorem not_sslEnabled_setSslEnabled (hF : S.P.fernet.Laws) {host : Host}
    (hvalid : S.P.fernet.valid host.processKey = true) :
    ¬SslEnabled S (setSslEnabled S false host) := by
  obtain ⟨row, hmem, hval⟩ :=
    exists_row_setSetting S.P host.processKey host.db sslEnabledSpec.key (encodeBool false)
  have hname : row.val.name = sslEnabledSpec.key := by rw [hval]
  have hdefault := sslEnabledSpec_default (S := S)
  intro henabled
  obtain ⟨row', hmem', hname', htrue⟩ := sslEnabled_iff.mp henabled
  have heq := (setSslEnabled S false host).db.settings.eq_of_key hmem' hmem
    (congrArg some hname') (congrArg some hname)
  have hread : decryptValue S.P (setSslEnabled S false host).processKey row.val.value =
      .ok (encodeBool false) := by
    rw [hval]
    exact decryptValue_encryptValue S.P hF hvalid _
  rw [heq, hread] at htrue
  have hfalse : truthValue (parseTypedText S.P sslEnabledSpec (encodeBool false)) = .ok false :=
    hdefault
  rw [ok_bind, hfalse] at htrue
  contradiction

/-- Switching HTTPS keeps the site bootable. -/
theorem bootable_settingsUpdateSsl (hF : S.P.fernet.Laws) {host : Host} {desired : Bool}
    (hvalid : S.P.fernet.valid host.processKey = true) (hold : Bootable S host)
    (hkeep : KeepsPair S host (.toggle desired)) :
    Bootable S (settingsUpdateSsl S desired host).2 := by
  unfold settingsUpdateSsl
  split
  · exact hold
  · next hguard =>
      split
      · exact hold
      · intro henabled
        cases desired with
        | false => exact absurd henabled (not_sslEnabled_setSslEnabled hF hvalid)
        | true => exact hkeep rfl (by simpa using hguard)

/-- What a self-signed certificate is made for is checked before `openssl` is
run. -/
theorem signedPair_eq_ok_iff {openssl : Openssl S.L} {host : Host} {pair : CertPair S.L} :
    signedPair S openssl host = .ok pair ↔
      (∃ name, checkedAppName S host = .ok name) ∧ openssl = .made pair := by
  unfold signedPair
  cases checkedAppName S host <;> cases openssl <;> simp [Openssl.found, Openssl.run]

/-- From an enabled state a new self-signed pair is there exactly when nothing
fails. -/
theorem paired_settingsRegenerateSsl {openssl : Openssl S.L} {writes : Nat → Bool} {host : Host}
    (hold : Paired S.L host.ssl) :
    Paired S.L (settingsRegenerateSsl S openssl writes host).2 ↔
      (∃ name, checkedAppName S host = .ok name) ∧ (∃ pair, openssl = .made pair) ∧
        writes 0 = true ∧ writes 1 = true := by
  have hexists : certExists host.ssl = true := by
    obtain ⟨key, cert, hkey, hcert, -⟩ := hold
    simp [certExists, hkey, hcert]
  have hmade : ∀ pair, signedPair S openssl { host with ssl := withoutPair host.ssl } = .ok pair ↔
      (∃ name, checkedAppName S host = .ok name) ∧ openssl = .made pair := fun pair =>
    signedPair_eq_ok_iff
  rw [settingsRegenerateSsl, if_pos hexists, regenerateSelfSignedCert, createSelfSignedCert]
  split
  · next exc herror =>
      have hnone : ¬Paired S.L (withoutPair host.ssl) := by
        rintro ⟨key, cert, hkey, -⟩
        simp [withoutPair] at hkey
      constructor
      · intro hpaired
        exact absurd hpaired hnone
      · rintro ⟨hchecked, ⟨pair, hpair⟩, -⟩
        rw [(hmade pair).mpr ⟨hchecked, hpair⟩] at herror
        contradiction
  · next pair hpair =>
      obtain ⟨hchecked, hopenssl⟩ := (hmade pair).mp hpair
      have hsource : ∀ file ∈ [(sourceFilename, Utf8.encode (lit "self_signed\n"))],
          file.1 = sourceFilename := by simp
      simp only [hchecked, hopenssl, Openssl.made.injEq, exists_eq', true_and]
      exact paired_writeFiles_withoutPair hsource pair.belong

/-- A pair that passed the checks belongs together, also as it is written. -/
theorem belong_of_checkUpload (hL : S.L.Laws) {key cert : List UInt8} {now : Nat}
    (h : checkUpload S.L key cert now = .ok ()) : S.L.Belong (S.L.pkcs8 key) cert := by
  unfold checkUpload at h
  split_ifs at h
  obtain ⟨keyPub, hkey, h⟩ := bind_eq_ok h
  obtain ⟨⟨certPub, notAfter⟩, hcert, h⟩ := bind_eq_ok h
  dsimp only at h
  split_ifs at h with hne
  have heq : certPub = keyPub := not_not.mp hne
  exact ⟨keyPub, notAfter, hL.loadKey_pkcs8 hkey, by rw [hcert, heq]⟩

/-- When an installation leaves a pair. -/
theorem paired_installCert (hL : S.L.Laws) {more : List (Str × List UInt8)}
    (hmore : ∀ file ∈ more, file.1 = sourceFilename) {key cert : List UInt8} {now : Nat}
    {writes : Nat → Bool} {files : Files} (hold : Paired S.L files) :
    Paired S.L (installCert S more key cert now writes files).2 ↔
      (checkUpload S.L key cert now = .ok () → WrittenWhole S.L writes (S.L.pkcs8 key) files) := by
  unfold installCert
  split
  · next herror => simp [herror, hold]
  · next hok =>
      have hbelong := belong_of_checkUpload hL hok
      have hsource : ∀ file ∈ (sourceFilename, Utf8.encode (lit "uploaded\n")) :: more,
          file.1 = sourceFilename := by simpa using hmore
      simp only [hok, forall_const]
      exact paired_writeFiles hsource hbelong hold

end Steps

/-! ## a restore -/

section Restore

variable {S} {m : Moment} {destKey sourceKey : Str}

/-- Files of an archive that cannot fail are written before the rest. -/
theorem writeSslFiles_append {front : Dict} (rest : Dict) (count : Nat) (files : Files)
    (h : Writable S m destKey sourceKey front) :
    ∃ n, writeSslFiles S.P m destKey sourceKey (front ++ rest) count files =
      writeSslFiles S.P m destKey sourceKey rest n
        (writeSslFiles S.P m destKey sourceKey front count files).2 := by
  induction front generalizing count files with
  | nil => exact ⟨count, rfl⟩
  | cons file front ih =>
      obtain ⟨hfile, hfront⟩ := List.forall_mem_cons.mp h
      rw [List.cons_append, writeSslFiles, writeSslFiles]
      by_cases hname : file.1 ∈ sslFileNames
      · obtain ⟨⟨raw, hraw⟩, hwrites⟩ := hfile hname
        simp only [hname, not_true_eq_false, if_false, hraw, hwrites, if_true]
        exact ih _ _ hfront
      · simp only [hname, not_false_eq_true, if_true]
        exact ih _ _ hfront

/-- A file that the archive does not name stays as it is. -/
theorem writeSslFiles_of_other {name : Str} {list : Dict} {count : Nat} {files : Files}
    (h : ∀ file ∈ list, file.1 ≠ name) :
    (writeSslFiles S.P m destKey sourceKey list count files).2 name = files name := by
  induction list generalizing count files with
  | nil => rfl
  | cons file list ih =>
      obtain ⟨hfile, hlist⟩ := List.forall_mem_cons.mp h
      rw [writeSslFiles]
      split
      · exact ih hlist
      · split
        · rfl
        · split
          · rw [ih hlist, Function.update_of_ne hfile.symm]
          · rfl

/-- A file that the archive supplies is in its place, or it was. -/
theorem writeSslFiles_of_content {name : Str} {content : List UInt8} {list : Dict} {count : Nat}
    {files : Files} (hname : name ∈ sslFileNames) (h : Writable S m destKey sourceKey list)
    (hcontent : ∀ file ∈ list, file.1 = name → sslFileContent S.P destKey sourceKey file = .ok content)
    (hthere : (∃ file ∈ list, file.1 = name) ∨ files name = some content) :
    (writeSslFiles S.P m destKey sourceKey list count files).2 name = some content := by
  induction list generalizing count files with
  | nil => simpa [writeSslFiles] using hthere
  | cons file list ih =>
      obtain ⟨hfile, hlist⟩ := List.forall_mem_cons.mp h
      obtain ⟨hhead, htail⟩ := List.forall_mem_cons.mp hcontent
      rw [writeSslFiles]
      by_cases hssl : file.1 ∈ sslFileNames
      · obtain ⟨⟨raw, hraw⟩, hwrites⟩ := hfile hssl
        simp only [hssl, not_true_eq_false, if_false, hraw, hwrites, if_true]
        refine ih hlist htail ?_
        by_cases heq : file.1 = name
        · have hcontent' := hhead heq
          rw [hraw] at hcontent'
          exact .inr (by rw [heq, Function.update_self, Except.ok.inj hcontent'])
        · rw [Function.update_of_ne (Ne.symm heq)]
          simpa [heq] using hthere
      · have hne : file.1 ≠ name := fun heq => hssl (heq ▸ hname)
        simp only [hssl, not_false_eq_true, if_true]
        exact ih hlist htail (by simpa [hne] using hthere)

/-- A restore that brings a pair leaves a pair. -/
theorem paired_restoreSslFiles {payload : Dict} {files : Files}
    (h : RestoresPair S m destKey sourceKey payload) :
    Paired S.L (restoreSslFiles S.P m destKey sourceKey payload files).2 := by
  obtain ⟨front, rest, key, cert, hfiles, hwritable, hrest, hkey, hcert, hbelong⟩ := h
  obtain ⟨n, hsplit⟩ := writeSslFiles_append rest 0 (removeSslFiles files) hwritable
  rw [restoreSslFiles, hfiles, hsplit]
  refine ⟨key, cert, ?_, ?_, hbelong⟩
  · rw [writeSslFiles_of_other fun file hfile => (hrest file hfile).1]
    exact writeSslFiles_of_content (by decide) hwritable hkey.2 (.inl hkey.1)
  · rw [writeSslFiles_of_other fun file hfile => (hrest file hfile).2]
    exact writeSslFiles_of_content (by decide) hwritable hcert.2 (.inl hcert.1)

/-- The secrets are no certificate files. -/
theorem ssl_secretsAfter {cats : List Category} {payload : Dict} {host : Host} :
    (secretsAfter S.P m cats payload host).2.ssl = host.ssl := by
  have hended : (endSessions m cats host).ssl = host.ssl := by
    unfold endSessions
    split <;> rfl
  unfold secretsAfter restoreApplicationSecrets writeApplicationSecrets
  split
  · split
    · rfl
    · split
      · rfl
      · split
        · split
          · exact hended
          · exact hended
          · split <;> exact hended
        · rfl
  · rfl

/-- The SSL directory is what the SSL part leaves. -/
theorem ssl_restoreFiles {cats : List Category} {payload : Dict} {host : Host} :
    (restoreFiles S.P m sourceKey cats payload host).2.ssl =
      (sslAfter S.P m sourceKey cats payload host).2 := by
  unfold restoreFiles
  dsimp only
  split
  · rfl
  · exact ssl_secretsAfter

/-- The settings of the archive are those that are read. -/
theorem enabledAfter_of_sslEnabled (hF : S.P.fernet.Laws) {cats : List Category} {payload : Dict}
    {host host' : Host} {db : Db} (hboot : host.Booted S.P)
    (h : Restored S.P m cats payload host host' db) (henabled : SslEnabled S host') :
    EnabledAfter S cats payload host := by
  have hkey : host'.processKey = host.processKey := h.files.processKey
  have hsettings : host'.db.settings = db.settings := by rw [h.files.tables]
  have hset := ((restoreDatabase_eq_ok_iff S.P m _ _ _ _ _).mp h.database).1
  unfold EnabledAfter
  by_cases hcat : .settings ∈ cats
  · rw [if_pos hcat]
    obtain ⟨row, hrow, hname, htrue⟩ := sslEnabled_iff.mp henabled
    rw [hsettings] at hrow
    have hval : row.val = ⟨sslEnabledSpec.key, row.val.value⟩ := by rw [← hname]
    rcases (mem_settingsAfter_iff h.valid hcat hset _ _).mp ⟨row, hrow, hval⟩ with hkept | harchived
    · exact absurd hkept.1 (by decide)
    · obtain ⟨item, hitem, token, hs, hvalue⟩ := harchived
      have hfernet : .settings ∈ fernetBackedCategories := by simp [fernetBackedCategories]
      have hread := h.decryptValue_eq hF hboot hfernet hcat hvalue
      rw [hkey, hread] at htrue
      exact ⟨item, hitem, token, hs, htrue⟩
  · rw [if_neg hcat]
    rw [settingsAfter, if_neg hcat] at hset
    refine (sslEnabled_congr hkey ?_).mp henabled
    rw [hsettings]
    exact (Except.ok.inj hset).symm

/-- A restore keeps the site bootable. -/
theorem bootable_restorePayload (hF : S.P.fernet.Laws) {payload : Dict} {categories : List Str}
    {host : Host} (hboot : host.Booted S.P) (hold : Bootable S host)
    (hkeep : KeepsPair S host (.restore m payload categories)) :
    Bootable S (restorePayload S.P m payload categories host).2 := by
  by_cases hcommits : Commits S.P m payload categories host
  · intro henabled
    obtain ⟨hcats, hvalid, db, hdb⟩ := hcommits
    have hrestore := restorePayload_of_commits hcats hvalid hdb
    have hrestored : Restored S.P m (normalizeCategories categories) payload host
        (restorePayload S.P m payload categories host).2 db := by
      refine ⟨hvalid, hdb, ?_⟩
      rw [hrestore]
      exact filesEffect_restoreFiles _ _ _ _ _ _
    have hpaired := hkeep ⟨hcats, hvalid, db, hdb⟩
      (enabledAfter_of_sslEnabled hF hboot hrestored henabled)
    rw [hrestore, ssl_restoreFiles, sslAfter]
    unfold PairedAfter at hpaired
    split
    · next hcat =>
        rw [if_pos hcat] at hpaired
        exact paired_restoreSslFiles hpaired
    · next hcat =>
        rw [if_neg hcat] at hpaired
        exact hpaired
  · rw [unchanged_of_not_commits hcommits]
    exact hold

end Restore

/-! ## runs -/

section Runs

variable {S}

/-- After a step the process can come up again. -/
theorem booted_sslStep {host : Host} (hboot : host.Booted S.P) (step : SslStep S.L) :
    (sslStep S host step).Booted S.P := by
  cases step with
  | toggle desired =>
      unfold sslStep settingsUpdateSsl
      dsimp only
      split
      · exact hboot
      · split <;> exact hboot
  | selfSigned openssl writes => exact hboot
  | upload key cert now writes => exact hboot
  | letsencrypt key cert now writes => exact hboot
  | restore m payload categories => exact booted_restorePayload hboot

/-- A step that has what it needs leaves HTTPS its pair. -/
theorem bootable_sslStep (hF : S.P.fernet.Laws) (hL : S.L.Laws) {host : Host}
    (hboot : host.Booted S.P) (hold : Bootable S host) {step : SslStep S.L}
    (hkeep : KeepsPair S host step) : Bootable S (sslStep S host step) := by
  cases step with
  | toggle desired => exact bootable_settingsUpdateSsl hF hboot.valid hold hkeep
  | selfSigned openssl writes =>
      intro henabled
      have henabled : SslEnabled S host := henabled
      exact (paired_settingsRegenerateSsl (hold henabled)).mpr (hkeep henabled)
  | upload key cert now writes =>
      intro henabled
      have henabled : SslEnabled S host := henabled
      exact (paired_installCert hL (by simp) (hold henabled)).mpr (hkeep henabled)
  | letsencrypt key cert now writes =>
      intro henabled
      have henabled : SslEnabled S host := henabled
      exact (paired_installCert hL (by simp) (hold henabled)).mpr (hkeep henabled)
  | restore m payload categories => exact bootable_restorePayload hF hboot hold hkeep

/-- What a run keeps, its beginning keeps. -/
theorem keepsRun_take {host : Host} {steps : List (SslStep S.L)} (h : KeepsRun S host steps)
    (n : Nat) : KeepsRun S host (steps.take n) := by
  induction steps generalizing host n with
  | nil => simp [KeepsRun]
  | cons step steps ih =>
      cases n with
      | zero => simp [KeepsRun]
      | succ n => exact ⟨h.1, ih h.2 n⟩

/-- A run keeps the site bootable. -/
theorem bootable_sslRun (hF : S.P.fernet.Laws) (hL : S.L.Laws) {host : Host}
    (hboot : host.Booted S.P) (hold : Bootable S host) {steps : List (SslStep S.L)}
    (hkeep : KeepsRun S host steps) :
    (sslRun S host steps).Booted S.P ∧ Bootable S (sslRun S host steps) := by
  induction steps generalizing host with
  | nil => exact ⟨hboot, hold⟩
  | cons step steps ih =>
      exact ih (booted_sslStep hboot step) (bootable_sslStep hF hL hboot hold hkeep.1) hkeep.2

/-- A bootable site comes up with HTTPS. -/
theorem bootstrap_of_bootable {host : Host} (h : Bootable S host) (henabled : SslEnabled S host) :
    bootstrap S none host = .ok (lit "https") := by
  obtain ⟨key, cert, hkey, hcert, -⟩ := h henabled
  have henabled : isSslEnabled S host = .ok true := henabled
  simp [bootstrap, henabled, certExists, hkey, hcert]

/-- In a run whose steps have what they need, HTTPS that is enabled has its
pair in every state, and the process that starts then listens on HTTPS. -/
theorem https_stays_bootable (hF : S.P.fernet.Laws) (hL : S.L.Laws) {host : Host}
    (hboot : host.Booted S.P) (hold : Bootable S host) {steps : List (SslStep S.L)}
    (hkeep : KeepsRun S host steps) (n : Nat) (henabled : SslEnabled S (sslRun S host (steps.take n))) :
    Paired S.L (sslRun S host (steps.take n)).ssl ∧
      nextEncryptionKey S.P (sslRun S host (steps.take n)) =
        some (sslRun S host (steps.take n)).processKey ∧
      bootstrap S none (sslRun S host (steps.take n)) = .ok (lit "https") := by
  obtain ⟨hbooted, hbootable⟩ := bootable_sslRun hF hL hboot hold (keepsRun_take hkeep n)
  exact ⟨hbootable henabled, hbooted, bootstrap_of_bootable hbootable henabled⟩

end Runs

/-! ## an installation that loses its pair -/

/-- Keys and certificates that are their public keys. -/
def CertLib.plain : CertLib where
  loadKey pem := .ok pem
  loadCerts pem := .ok (pem, 1)
  pkcs8 pem := pem

/-- The plain library is lawful. -/
theorem CertLib.plain_laws : CertLib.plain.Laws where
  loadKey_pkcs8 h := h

/-- Its keys belong to themselves. -/
theorem CertLib.plain_belong (pem : List UInt8) : CertLib.plain.Belong pem pem :=
  ⟨pem, 1, rfl, rfl⟩

def plainSite : Site := ⟨.plain, .plain, lit "apitodns.local"⟩

/-- A pair is uploaded and HTTPS is enabled. -/
def enablingRun : List (SslStep plainSite.L) :=
  [.upload [65] [65] 0 fun _ => true, .toggle true]

/-- Then another pair is uploaded. -/
def replacingRun : List (SslStep plainSite.L) :=
  enablingRun ++ [SslStep.upload [66] [66] 0 fun _ => true]

/-- Then the certificate is regenerated where `openssl` is missing. -/
def losingRun : List (SslStep plainSite.L) :=
  enablingRun ++ [SslStep.selfSigned .notOnPath fun _ => true]

theorem https_stays_bootable_replaced :
    bootstrap plainSite none (sslRun plainSite newHost (replacingRun.take 3)) =
      .ok (lit "https") := by
  have hboot : newHost.Booted plainSite.P := by
    show nextEncryptionKey _ _ = _
    decide
  have hdisabled : ¬SslEnabled plainSite newHost := by
    show ¬isSslEnabled _ _ = _
    decide
  have hkeep : KeepsRun plainSite newHost replacingRun := by
    refine ⟨fun henabled => absurd henabled hdisabled, fun _ _ => ?_, fun _ _ _ => .inl rfl, trivial⟩
    exact ⟨[65], [65], by decide, by decide, CertLib.plain_belong _⟩
  have henabled : SslEnabled plainSite (sslRun plainSite newHost (replacingRun.take 3)) := by
    show isSslEnabled _ _ = _
    decide
  exact (https_stays_bootable Fernet.plain_laws CertLib.plain_laws hboot
    (fun henabled => absurd henabled hdisabled) hkeep 3 henabled).2.2

/-- The files are gone and HTTPS is enabled: the next start exits. -/
theorem regenerated_not_bootable :
    SslEnabled plainSite (sslRun plainSite newHost losingRun) ∧
      ¬Paired plainSite.L (sslRun plainSite newHost losingRun).ssl ∧
      bootstrap plainSite none (sslRun plainSite newHost losingRun) = .error systemExit := by
  have henabled : isSslEnabled plainSite (sslRun plainSite newHost losingRun) = .ok true := by
    decide
  have hgone : (sslRun plainSite newHost losingRun).ssl keyFilename = none := by decide
  have hexits : bootstrap plainSite none (sslRun plainSite newHost losingRun) =
      .error systemExit := by decide
  refine ⟨henabled, ?_, hexits⟩
  rintro ⟨key, cert, hkey, -⟩
  rw [hgone] at hkey
  contradiction

end ApiToDns
