import ApiToDns.Backup.Faults

/-!
# Backup.Untrusted

What the import route does with an archive that nobody vouches for: it is
opened (`load_backup_bytes`) and checked (`validate_restore_records`), and only
a `BackupError` is answered as a bad archive.

* `openFault_iff` — the faults of opening an archive (`OpenFault`);
* `clean_iff` — an archive is rejected cleanly exactly if it has neither such
  a fault nor, once opened, one of those of its payload (`RecordFault`).
-/

namespace ApiToDns.Backup

open Py Checks

section Definitions

variable (P : Platform)

/-! ## opening -/

/-- The JSON document in a text. -/
def Loads (text : Str) (document : Json) : Prop :=
  P.loadsFault text = none ∧ P.loads text = some document

/-- The envelope in a file. -/
def Envelope (raw : List UInt8) (envelope : Dict) : Prop :=
  ∃ text, Utf8.decodeStrict raw = some text ∧ Loads P text (.obj envelope) ∧
    envelope.get (lit "format") = .str backupFormat

/-- The envelope of an encrypted archive that the password is tried on. -/
structure Sealed (raw : List UInt8) (password : Str) (envelope : Dict) : Prop where
  read : Envelope P raw envelope
  encrypted : (envelope.get (lit "encrypted")).truthy = true
  given : password ≠ []
  kdf : (envelope.get (lit "kdf")).orElse (.str []) = .str backupKdf

/-- The bytes of a field of the envelope. -/
def FieldBytes (envelope : Dict) (key : Str) (bs : List UInt8) : Prop :=
  ∃ text, envelope.get key = .str text ∧ Base64.b64decode false text = some bs

/-- `envelope.get("iterations") or DEFAULT_PBKDF2_ITERATIONS`. -/
def iterationsOf (envelope : Dict) : Json :=
  (envelope.get (lit "iterations")).orElse (.int defaultPbkdf2Iterations)

/-- An iteration count that is accepted. -/
def Iterations (envelope : Dict) (n : Int) : Prop :=
  pyInt P (iterationsOf envelope) = .ok n ∧ minPbkdf2Iterations ≤ n ∧ n ≤ maxPbkdf2Iterations

/-- What an encrypted archive is decrypted to. -/
def Decrypted (raw : List UInt8) (password : Str) (bytes : List UInt8) : Prop :=
  ∃ envelope salt n token, Sealed P raw password envelope ∧
    FieldBytes envelope (lit "salt") salt ∧ Iterations P envelope n ∧
    FieldBytes envelope (lit "ciphertext") token ∧
    P.fernet.decrypt (P.pbkdf2 password salt n.toNat) (tokenOf token) = some bytes

/-- The payload of an archive, and whether it was encrypted. -/
inductive Opens (raw : List UInt8) (password : Str) : Dict → Bool → Prop
  | plain {envelope payload : Dict} (henvelope : Envelope P raw envelope)
      (hencrypted : (envelope.get (lit "encrypted")).truthy = false)
      (hpayload : envelope.get (lit "payload") = .obj payload) : Opens raw password payload false
  | decrypted {bytes : List UInt8} {text : Str} {payload : Dict}
      (hbytes : Decrypted P raw password bytes) (htext : Utf8.decodeStrict bytes = some text)
      (hpayload : Loads P text (.obj payload)) : Opens raw password payload true

/-- What is wrong with an archive where nothing looks for it. -/
inductive OpenFault (raw : List UInt8) (password : Str) : Prop
  | file {text : Str} {fault : LoadsFault} (htext : Utf8.decodeStrict raw = some text)
      (hfault : P.loadsFault text = some fault)
  | document {text : Str} {document : Json} (htext : Utf8.decodeStrict raw = some text)
      (hloads : Loads P text document) (hshape : ∀ fields, document ≠ .obj fields)
  | salt {envelope : Dict} (hsealed : Sealed P raw password envelope)
      (hshape : ∀ text, envelope.get (lit "salt") ≠ .str text)
  | iterations {envelope : Dict} {salt : List UInt8} (hsealed : Sealed P raw password envelope)
      (hsalt : FieldBytes envelope (lit "salt") salt)
      (hfault : Overflows P (iterationsOf envelope))
  | ciphertext {envelope : Dict} {salt : List UInt8} {n : Int}
      (hsealed : Sealed P raw password envelope) (hsalt : FieldBytes envelope (lit "salt") salt)
      (hiterations : Iterations P envelope n)
      (hshape : ∀ text, envelope.get (lit "ciphertext") ≠ .str text)
  | decrypted {bytes : List UInt8} (hbytes : Decrypted P raw password bytes)
      (htext : Utf8.decodeStrict bytes = none)
  | payload {bytes : List UInt8} {text : Str} {fault : LoadsFault}
      (hbytes : Decrypted P raw password bytes) (htext : Utf8.decodeStrict bytes = some text)
      (hfault : P.loadsFault text = some fault)
  | payloadShape {bytes : List UInt8} {text : Str} {document : Json}
      (hbytes : Decrypted P raw password bytes) (htext : Utf8.decodeStrict bytes = some text)
      (hloads : Loads P text document) (hshape : ∀ fields, document ≠ .obj fields)

/-- `load_backup_bytes` and `validate_restore_records`, as the import route
calls them. -/
def openArchive (destKey : Str) (raw : List UInt8) (password : Str) (selected : List Str) :
    Except Exc Dict := do
  let payload ← loadBackupBytes P raw password
  validateRestoreRecords P destKey (normalizeCategories selected) payload
  return payload

/-- The archive is accepted, or rejected with a `BackupError`. -/
def Clean (destKey : Str) (raw : List UInt8) (password : Str) (selected : List Str) : Prop :=
  ∀ exc, openArchive P destKey raw password selected = .error exc → ∃ msg, exc = .runtimeError msg

end Definitions

variable {P : Platform} {destKey : Str} {cats : List Category} {payload : Dict}

/-! ## what opening raises -/

section Opening

variable {raw : List UInt8} {password : Str} {encrypted : Bool}

/-- Reading JSON breaks at a fault of the reader. -/
theorem breaks_jsonLoads_iff {msg text : Str} :
    Breaks Escapes (jsonLoads P msg text) ↔ ∃ fault, P.loadsFault text = some fault := by
  unfold jsonLoads
  cases P.loadsFault text with
  | some fault => cases fault <;> simp [LoadsFault.exc]
  | none => cases P.loads text <;> simp

/-- When JSON is read. -/
theorem jsonLoads_eq_ok_iff {msg text : Str} {document : Json} :
    jsonLoads P msg text = .ok document ↔ Loads P text document := by
  unfold jsonLoads Loads
  cases P.loadsFault text with
  | some fault => simp
  | none => cases P.loads text <;> simp [backupError]

/-- Neither a `BackupError` nor the `ValueError` that becomes one. -/
def Fatal (exc : Exc) : Prop := Escapes exc ∧ ∀ msg, exc ≠ .valueError msg

/-- A value error is caught. -/
@[simp] theorem not_fatal_valueError (msg : Str) : ¬Fatal (.valueError msg) := by simp [Fatal]

@[simp] theorem fatal_other (msg : Str) : Fatal (.other msg) := by simp [Fatal]

/-- Only what is no value error escapes. -/
theorem breaks_valueErrorAsBackupError_iff {α : Type} {x : Except Exc α} :
    Breaks Escapes (valueErrorAsBackupError x) ↔ Breaks Fatal x := by
  cases x with
  | ok a => simp [valueErrorAsBackupError]
  | error exc => cases exc <;> simp [valueErrorAsBackupError, Fatal, Escapes]

/-- Naming an error does not change a success. -/
theorem valueErrorAsBackupError_eq_ok_iff {α : Type} {x : Except Exc α} {a : α} :
    valueErrorAsBackupError x = .ok a ↔ x = .ok a := by
  cases x with
  | ok b => exact Iff.rfl
  | error exc => cases exc <;> simp [valueErrorAsBackupError, backupError]

/-- A missing field is null. -/
theorem get_of_not_has {d : Dict} {key : Str} (h : d.has key = false) : d.get key = .null := by
  have hnone : d.find? (fun field => field.1 == key) = none := by
    rw [List.find?_eq_none]
    intro field hfield
    rw [Dict.has, List.any_eq_false] at h
    exact h field hfield
  rw [Dict.get, hnone]

/-- A field that is no text breaks. -/
theorem breaks_envelopeBytes_iff {envelope : Dict} {key : Str} :
    Breaks Fatal (envelopeBytes envelope key) ↔ ∀ text, envelope.get key ≠ .str text := by
  unfold envelopeBytes
  split
  · next hhas => simp [get_of_not_has hhas]
  · cases envelope.get key with
    | str text => cases hbs : Base64.b64decode false text <;> simp [hbs]
    | _ => simp [typeError]

/-- When a field has its octets. -/
theorem envelopeBytes_eq_ok_iff {envelope : Dict} {key : Str} {bs : List UInt8} :
    envelopeBytes envelope key = .ok bs ↔ FieldBytes envelope key bs := by
  unfold envelopeBytes FieldBytes
  split
  · next hhas => simp [get_of_not_has hhas]
  · cases envelope.get key with
    | str text => cases hbs : Base64.b64decode false text <;> simp [hbs]
    | _ => simp

/-- Naming an error does not change a success. -/
theorem asValueError_eq_ok_iff {α : Type} {x : Except Exc α} {msg : Str} {a : α} :
    asValueError msg x = .ok a ↔ x = .ok a := by
  cases x with
  | ok b => exact Iff.rfl
  | error exc =>
      unfold asValueError
      dsimp only
      split <;> simp

/-- When there is a number of iterations. -/
theorem iterations_eq_ok_iff {envelope : Dict} {n : Int} :
    (do validatedIterations (← pyInt P (iterationsOf envelope)) : Except Exc Int) = .ok n ↔
      Iterations P envelope n := by
  unfold validatedIterations Iterations
  rw [passes_bind_iff]
  constructor
  · rintro ⟨m, hm, h⟩
    split at h
    · contradiction
    · split at h
      · contradiction
      · cases h
        exact ⟨hm, by omega, by omega⟩
  · rintro ⟨hn, hlow, hhigh⟩
    refine ⟨n, hn, ?_⟩
    rw [if_neg (by omega), if_neg (by omega)]

/-- A number of iterations that overflows breaks. -/
theorem breaks_iterations_iff {envelope : Dict} {msg : Str} :
    Breaks Fatal (asValueError msg do validatedIterations (← pyInt P (iterationsOf envelope))) ↔
      Overflows P (iterationsOf envelope) := by
  unfold Overflows
  cases hint : pyInt P (iterationsOf envelope) with
  | ok n =>
      have hchecked : Breaks Fatal (asValueError msg (validatedIterations n)) ↔ False := by
        unfold validatedIterations
        split
        · simp [asValueError, Exc.isValueError]
        · split <;> simp [asValueError, Exc.isValueError]
      simpa using hchecked
  | error exc =>
      rw [error_bind]
      unfold asValueError
      dsimp only
      split
      · next hcaught =>
          simp only [breaks_error_iff, not_fatal_valueError, Except.error.injEq, false_iff]
          rintro ⟨exc', rfl, hne, hvalue, -⟩
          simp [hne, hvalue] at hcaught
      · next huncaught =>
          rw [not_or] at huncaught
          have hvalue : ∀ msg, exc ≠ .valueError msg := by
            rintro msg rfl
            exact huncaught.2 rfl
          simp [Fatal, huncaught.1, huncaught.2, hvalue]

/-- What `decrypt_envelope` does after its first checks. -/
def openSealed (P : Platform) (envelope : Dict) (password : Str) : Except Exc (List UInt8) := do
  let salt ← envelopeBytes envelope (lit "salt")
  let iterations ← asValueError (lit "Invalid PBKDF2 iteration count.") do
    validatedIterations (← pyInt P (iterationsOf envelope))
  let token ← envelopeBytes envelope (lit "ciphertext")
  match P.fernet.decrypt (P.pbkdf2 password salt iterations.toNat) (tokenOf token) with
  | some payload => .ok payload
  | none => .error (.valueError (lit "Incorrect backup password or corrupt archive."))

/-- An envelope of the known kind is opened. -/
theorem decryptEnvelope_eq {envelope : Dict}
    (hformat : envelope.get (lit "format") = .str backupFormat)
    (hencrypted : (envelope.get (lit "encrypted")).truthy = true)
    (hkdf : (envelope.get (lit "kdf")).orElse (.str []) = .str backupKdf) (hgiven : password ≠ []) :
    decryptEnvelope P envelope password = openSealed P envelope password := by
  unfold decryptEnvelope
  rw [hformat, hencrypted, hkdf]
  simp only [ne_eq, not_true_eq_false, if_false, if_neg hgiven]
  rfl

/-- Another key derivation is refused. -/
theorem decryptEnvelope_of_kdf (P : Platform) (password : Str) {envelope : Dict}
    (hformat : envelope.get (lit "format") = .str backupFormat)
    (hencrypted : (envelope.get (lit "encrypted")).truthy = true)
    (hkdf : (envelope.get (lit "kdf")).orElse (.str []) ≠ .str backupKdf) :
    ∃ msg, decryptEnvelope P envelope password = .error (.valueError msg) := by
  unfold decryptEnvelope
  rw [hformat, hencrypted]
  cases hk : (envelope.get (lit "kdf")).orElse (.str []) with
  | str kdf =>
      have hne : kdf ≠ backupKdf := by
        rintro rfl
        exact hkdf hk
      simp [hne]
  | _ => simp

/-- When an envelope is opened. -/
theorem openSealed_eq_ok_iff {envelope : Dict} {bytes : List UInt8} :
    openSealed P envelope password = .ok bytes ↔ ∃ salt n token,
      FieldBytes envelope (lit "salt") salt ∧ Iterations P envelope n ∧
        FieldBytes envelope (lit "ciphertext") token ∧
        P.fernet.decrypt (P.pbkdf2 password salt n.toNat) (tokenOf token) = some bytes := by
  unfold openSealed
  simp only [passes_bind_iff, envelopeBytes_eq_ok_iff, asValueError_eq_ok_iff]
  constructor
  · rintro ⟨salt, hsalt, n, hn, token, htoken, h⟩
    split at h
    · next payload hpayload =>
        cases h
        exact ⟨salt, n, token, hsalt, iterations_eq_ok_iff.mp (passes_bind_iff.mpr hn), htoken, hpayload⟩
    · contradiction
  · rintro ⟨salt, n, token, hsalt, hn, htoken, hpayload⟩
    refine ⟨salt, hsalt, n, passes_bind_iff.mp (iterations_eq_ok_iff.mpr hn), token, htoken, ?_⟩
    rw [hpayload]

/-- When opening an envelope breaks. -/
theorem breaks_openSealed_iff {envelope : Dict} :
    Breaks Fatal (openSealed P envelope password) ↔
      (∀ text, envelope.get (lit "salt") ≠ .str text) ∨
        ∃ salt, FieldBytes envelope (lit "salt") salt ∧
          (Overflows P (iterationsOf envelope) ∨
            ∃ n, Iterations P envelope n ∧ ∀ text, envelope.get (lit "ciphertext") ≠ .str text) := by
  unfold openSealed
  rw [breaks_bind_iff, breaks_envelopeBytes_iff]
  refine or_congr Iff.rfl (exists_congr fun salt => and_congr envelopeBytes_eq_ok_iff ?_)
  rw [breaks_bind_iff, breaks_iterations_iff]
  refine or_congr Iff.rfl (exists_congr fun n => and_congr ?_ ?_)
  · rw [asValueError_eq_ok_iff, iterations_eq_ok_iff]
  · rw [breaks_bind_iff, breaks_envelopeBytes_iff]
    refine or_iff_left ?_
    rintro ⟨token, -, h⟩
    split at h <;> simp at h

/-- An encrypted archive is read. -/
theorem decrypted_iff {envelope : Dict} {bytes : List UInt8}
    (hformat : envelope.get (lit "format") = .str backupFormat)
    (hencrypted : (envelope.get (lit "encrypted")).truthy = true) (hgiven : password ≠ []) :
    decryptEnvelope P envelope password = .ok bytes ↔
      (envelope.get (lit "kdf")).orElse (.str []) = .str backupKdf ∧
        openSealed P envelope password = .ok bytes := by
  by_cases hkdf : (envelope.get (lit "kdf")).orElse (.str []) = .str backupKdf
  · rw [decryptEnvelope_eq hformat hencrypted hkdf hgiven]
    simp [hkdf]
  · obtain ⟨msg, herror⟩ := decryptEnvelope_of_kdf P password hformat
      hencrypted hkdf
    simp [herror, hkdf]

/-- An envelope breaks if its derivation is known and opening it breaks. -/
theorem breaks_decryptEnvelope_iff {envelope : Dict}
    (hformat : envelope.get (lit "format") = .str backupFormat)
    (hencrypted : (envelope.get (lit "encrypted")).truthy = true) (hgiven : password ≠ []) :
    Breaks Fatal (decryptEnvelope P envelope password) ↔
      (envelope.get (lit "kdf")).orElse (.str []) = .str backupKdf ∧
        Breaks Fatal (openSealed P envelope password) := by
  by_cases hkdf : (envelope.get (lit "kdf")).orElse (.str []) = .str backupKdf
  · rw [decryptEnvelope_eq hformat hencrypted hkdf hgiven]
    simp [hkdf]
  · obtain ⟨msg, herror⟩ := decryptEnvelope_of_kdf P password hformat
      hencrypted hkdf
    simp [herror, hkdf]

/-- Noting the envelope does not break. -/
theorem not_breaks_noteEnvelope : ¬Breaks Escapes (noteEnvelope payload encrypted) := by
  unfold noteEnvelope
  split <;> simp

/-- What `load_backup_bytes` does with the decrypted bytes. -/
def openPayload (P : Platform) (bytes : List UInt8) : Except Exc Dict :=
  match Utf8.decodeStrict bytes with
  | none => .error (.valueError (lit "UnicodeDecodeError"))
  | some text => do
      let payload ← jsonLoads P (lit "Decrypted backup payload is corrupt.") text
      noteEnvelope (← asDict payload) true

/-- When reading the payload breaks. -/
theorem breaks_openPayload_iff {bytes : List UInt8} :
    Breaks Escapes (openPayload P bytes) ↔ Utf8.decodeStrict bytes = none ∨
      ∃ text, Utf8.decodeStrict bytes = some text ∧ ((∃ fault, P.loadsFault text = some fault) ∨
        ∃ document, Loads P text document ∧ ∀ fields, document ≠ .obj fields) := by
  unfold openPayload
  cases Utf8.decodeStrict bytes with
  | none => simp
  | some text =>
      simp only [breaks_bind_iff, breaks_jsonLoads_iff, jsonLoads_eq_ok_iff, breaks_asDict_iff,
        not_breaks_noteEnvelope, and_false, exists_false, or_false, reduceCtorEq, false_or,
        Option.some.injEq, exists_eq_left']

/-- When the payload is read. -/
theorem openPayload_eq_ok_iff {bytes : List UInt8} {noted : Dict} :
    openPayload P bytes = .ok noted ↔ ∃ text payload, Utf8.decodeStrict bytes = some text ∧
      Loads P text (.obj payload) ∧ noteEnvelope payload true = .ok noted := by
  unfold openPayload
  cases Utf8.decodeStrict bytes with
  | none => simp
  | some text =>
      simp only [passes_bind_iff, jsonLoads_eq_ok_iff, asDict_eq_ok_iff, Option.some.injEq,
        exists_and_left, exists_eq_left']
      exact ⟨fun ⟨_, hloads, payload, hobj, h⟩ => ⟨payload, hobj ▸ hloads, h⟩,
        fun ⟨payload, hloads, h⟩ => ⟨_, hloads, payload, rfl, h⟩⟩

/-- What `load_backup_bytes` does with the envelope. -/
def openEnvelope (P : Platform) (envelope : Dict) (password : Str) : Except Exc Dict :=
  match envelope.get (lit "format") with
  | .str format =>
      if format ≠ backupFormat then backupError (lit "Unrecognized backup format.")
      else if (envelope.get (lit "encrypted")).truthy then
        if password = [] then backupError (lit "Password is required to decrypt this backup.")
        else do
          openPayload P (← valueErrorAsBackupError (decryptEnvelope P envelope password))
      else
        match envelope.get (lit "payload") with
        | .obj payload => noteEnvelope payload false
        | _ => backupError (lit "Unencrypted backup is missing payload.")
  | _ => backupError (lit "Unrecognized backup format.")

/-- The archive is read as JSON and opened. -/
theorem loadBackupBytes_eq {text : Str} (htext : Utf8.decodeStrict raw = some text) :
    loadBackupBytes P raw password =
      (jsonLoads P (lit "Backup file is not valid JSON.") text >>= fun document =>
        asDict document >>= fun envelope => openEnvelope P envelope password) := by
  unfold loadBackupBytes
  rw [htext]
  rfl

/-- When opening an archive breaks. -/
theorem breaks_openEnvelope_iff {envelope : Dict} :
    Breaks Escapes (openEnvelope P envelope password) ↔
      envelope.get (lit "format") = .str backupFormat ∧
        (envelope.get (lit "encrypted")).truthy = true ∧ password ≠ [] ∧
        (envelope.get (lit "kdf")).orElse (.str []) = .str backupKdf ∧
        (Breaks Fatal (openSealed P envelope password) ∨
          ∃ bytes, openSealed P envelope password = .ok bytes ∧
            Breaks Escapes (openPayload P bytes)) := by
  unfold openEnvelope
  by_cases hformat : envelope.get (lit "format") = .str backupFormat
  · rw [hformat]
    dsimp only
    rw [if_neg (not_not.mpr rfl)]
    cases hencrypted : (envelope.get (lit "encrypted")).truthy with
    | false =>
        rw [if_neg (by simp)]
        cases envelope.get (lit "payload") <;> simp [not_breaks_noteEnvelope]
    | true =>
        rw [if_pos rfl]
        by_cases hgiven : password = []
        · simp [hgiven]
        · rw [if_neg hgiven, breaks_bind_iff, breaks_valueErrorAsBackupError_iff,
            breaks_decryptEnvelope_iff hformat hencrypted hgiven]
          simp only [valueErrorAsBackupError_eq_ok_iff, decrypted_iff hformat hencrypted hgiven,
            and_assoc, exists_and_left, ← and_or_left]
          simp [hgiven]
  · have hnot : ∀ format, envelope.get (lit "format") = .str format → format ≠ backupFormat := by
      rintro format hget rfl
      exact hformat hget
    cases hget : envelope.get (lit "format") with
    | str format => simp [hnot format hget]
    | _ => simp

/-- When an archive is opened. -/
theorem openEnvelope_eq_ok_iff {envelope noted : Dict} :
    openEnvelope P envelope password = .ok noted ↔
      envelope.get (lit "format") = .str backupFormat ∧
        if (envelope.get (lit "encrypted")).truthy then
          password ≠ [] ∧ (envelope.get (lit "kdf")).orElse (.str []) = .str backupKdf ∧
            ∃ bytes, openSealed P envelope password = .ok bytes ∧ openPayload P bytes = .ok noted
        else ∃ payload, envelope.get (lit "payload") = .obj payload ∧
          noteEnvelope payload false = .ok noted := by
  unfold openEnvelope
  by_cases hformat : envelope.get (lit "format") = .str backupFormat
  · rw [hformat]
    dsimp only
    rw [if_neg (not_not.mpr rfl)]
    cases hencrypted : (envelope.get (lit "encrypted")).truthy with
    | false =>
        rw [if_neg (by simp), if_neg (by simp)]
        cases envelope.get (lit "payload") <;> simp [backupError]
    | true =>
        rw [if_pos rfl, if_pos rfl]
        by_cases hgiven : password = []
        · simp [hgiven, backupError]
        · rw [if_neg hgiven, passes_bind_iff]
          simp only [valueErrorAsBackupError_eq_ok_iff, decrypted_iff hformat hencrypted hgiven,
            and_assoc, exists_and_left]
          simp [hgiven]
  · have hnot : ∀ format, envelope.get (lit "format") = .str format → format ≠ backupFormat := by
      rintro format hget rfl
      exact hformat hget
    cases hget : envelope.get (lit "format") with
    | str format => simp [hnot format hget, backupError]
    | _ => simp [backupError]

/-- When loading an archive breaks. -/
theorem breaks_loadBackupBytes_iff :
    Breaks Escapes (loadBackupBytes P raw password) ↔
      ∃ text, Utf8.decodeStrict raw = some text ∧ ((∃ fault, P.loadsFault text = some fault) ∨
        ∃ document, Loads P text document ∧ ((∀ fields, document ≠ .obj fields) ∨
          ∃ envelope, document = .obj envelope ∧
            Breaks Escapes (openEnvelope P envelope password))) := by
  cases htext : Utf8.decodeStrict raw with
  | none =>
      unfold loadBackupBytes
      simp [htext]
  | some text =>
      rw [loadBackupBytes_eq htext, breaks_bind_iff, breaks_jsonLoads_iff]
      simp only [jsonLoads_eq_ok_iff, breaks_bind_iff, breaks_asDict_iff, asDict_eq_ok_iff,
        Option.some.injEq, exists_eq_left']

/-- When an archive is loaded. -/
theorem loadBackupBytes_eq_ok_iff {noted : Dict} :
    loadBackupBytes P raw password = .ok noted ↔
      ∃ text envelope, Utf8.decodeStrict raw = some text ∧ Loads P text (.obj envelope) ∧
        openEnvelope P envelope password = .ok noted := by
  cases htext : Utf8.decodeStrict raw with
  | none =>
      unfold loadBackupBytes
      simp [htext, backupError]
  | some text =>
      rw [loadBackupBytes_eq htext]
      simp only [passes_bind_iff, jsonLoads_eq_ok_iff, asDict_eq_ok_iff, Option.some.injEq,
        exists_and_left, exists_eq_left']
      constructor
      · intro h
        obtain ⟨document, hloads, envelope, rfl, h⟩ := h
        exact ⟨envelope, hloads, h⟩
      · intro h
        obtain ⟨envelope, hloads, h⟩ := h
        exact ⟨_, hloads, envelope, rfl, h⟩

/-- An archive breaks where its envelope or its payload does. -/
theorem breaks_of_sealed {envelope : Dict} (hsealed : Sealed P raw password envelope)
    (h : Breaks Fatal (openSealed P envelope password) ∨
      ∃ bytes, openSealed P envelope password = .ok bytes ∧ Breaks Escapes (openPayload P bytes)) :
    Breaks Escapes (loadBackupBytes P raw password) := by
  obtain ⟨⟨text, htext, hloads, hformat⟩, hencrypted, hgiven, hkdf⟩ := hsealed
  have henvelope := breaks_openEnvelope_iff.mpr ⟨hformat, hencrypted, hgiven, hkdf, h⟩
  exact breaks_loadBackupBytes_iff.mpr
    ⟨text, htext, .inr ⟨_, hloads, .inr ⟨envelope, rfl, henvelope⟩⟩⟩

/-- An archive breaks where its payload does. -/
theorem breaks_of_decrypted {bytes : List UInt8} (hdecrypted : Decrypted P raw password bytes)
    (h : Breaks Escapes (openPayload P bytes)) : Breaks Escapes (loadBackupBytes P raw password) := by
  obtain ⟨envelope, salt, n, token, hsealed, hsalt, hn, htoken, hplain⟩ := hdecrypted
  exact breaks_of_sealed hsealed
    (.inr ⟨bytes, openSealed_eq_ok_iff.mpr ⟨salt, n, token, hsalt, hn, htoken, hplain⟩, h⟩)

/-- Opening an archive raises something else than a `BackupError` exactly if
the archive has a fault where it is read. -/
theorem openFault_iff :
    Breaks Escapes (loadBackupBytes P raw password) ↔ OpenFault P raw password := by
  constructor
  · intro h
    obtain ⟨text, htext, h⟩ := breaks_loadBackupBytes_iff.mp h
    rcases h with ⟨fault, hfault⟩ | ⟨document, hloads, hshape | ⟨envelope, rfl, h⟩⟩
    · exact .file htext hfault
    · exact .document htext hloads hshape
    · obtain ⟨hformat, hencrypted, hgiven, hkdf, h⟩ := breaks_openEnvelope_iff.mp h
      have hsealed : Sealed P raw password envelope :=
        ⟨⟨text, htext, hloads, hformat⟩, hencrypted, hgiven, hkdf⟩
      rcases h with h | ⟨bytes, hbytes, h⟩
      · rcases breaks_openSealed_iff.mp h with h | ⟨salt, hsalt, h | ⟨n, hn, h⟩⟩
        · exact .salt hsealed h
        · exact .iterations hsealed hsalt h
        · exact .ciphertext hsealed hsalt hn h
      · obtain ⟨salt, n, token, hsalt, hn, htoken, hplain⟩ := openSealed_eq_ok_iff.mp hbytes
        have hdecrypted : Decrypted P raw password bytes :=
          ⟨envelope, salt, n, token, hsealed, hsalt, hn, htoken, hplain⟩
        rcases breaks_openPayload_iff.mp h with
          h | ⟨inner, hinner, ⟨fault, hfault⟩ | ⟨document, hloads, hshape⟩⟩
        · exact .decrypted hdecrypted h
        · exact .payload hdecrypted hinner hfault
        · exact .payloadShape hdecrypted hinner hloads hshape
  · intro h
    cases h with
    | file htext hfault => exact breaks_loadBackupBytes_iff.mpr ⟨_, htext, .inl ⟨_, hfault⟩⟩
    | document htext hloads hshape =>
        exact breaks_loadBackupBytes_iff.mpr ⟨_, htext, .inr ⟨_, hloads, .inl hshape⟩⟩
    | salt hsealed hshape => exact breaks_of_sealed hsealed (.inl (breaks_openSealed_iff.mpr (.inl hshape)))
    | iterations hsealed hsalt hfault =>
        exact breaks_of_sealed hsealed (.inl (breaks_openSealed_iff.mpr (.inr ⟨_, hsalt, .inl hfault⟩)))
    | ciphertext hsealed hsalt hn hshape =>
        exact breaks_of_sealed hsealed
          (.inl (breaks_openSealed_iff.mpr (.inr ⟨_, hsalt, .inr ⟨_, hn, hshape⟩⟩)))
    | decrypted hdecrypted htext =>
        exact breaks_of_decrypted hdecrypted (breaks_openPayload_iff.mpr (.inl htext))
    | payload hdecrypted htext hfault =>
        exact breaks_of_decrypted hdecrypted (breaks_openPayload_iff.mpr (.inr ⟨_, htext, .inl ⟨_, hfault⟩⟩))
    | payloadShape hdecrypted htext hloads hshape =>
        exact breaks_of_decrypted hdecrypted
          (breaks_openPayload_iff.mpr (.inr ⟨_, htext, .inr ⟨_, hloads, hshape⟩⟩))

/-- What is loaded is the payload of the archive, with its seal noted. -/
theorem loadBackupBytes_eq_ok_iff_opens {noted : Dict} :
    loadBackupBytes P raw password = .ok noted ↔
      ∃ payload encrypted, Opens P raw password payload encrypted ∧
        noteEnvelope payload encrypted = .ok noted := by
  rw [loadBackupBytes_eq_ok_iff]
  constructor
  · rintro ⟨text, envelope, htext, hloads, h⟩
    obtain ⟨hformat, h⟩ := openEnvelope_eq_ok_iff.mp h
    have hread : Envelope P raw envelope := ⟨text, htext, hloads, hformat⟩
    split at h
    · next hencrypted =>
        obtain ⟨hgiven, hkdf, bytes, hbytes, h⟩ := h
        obtain ⟨salt, n, token, hsalt, hn, htoken, hplain⟩ := openSealed_eq_ok_iff.mp hbytes
        obtain ⟨inner, payload, hinner, hpayload, h⟩ := openPayload_eq_ok_iff.mp h
        exact ⟨payload, true, .decrypted ⟨envelope, salt, n, token,
          ⟨hread, hencrypted, hgiven, hkdf⟩, hsalt, hn, htoken, hplain⟩ hinner hpayload, h⟩
    · next hencrypted =>
        obtain ⟨payload, hpayload, h⟩ := h
        exact ⟨payload, false, .plain hread (by simpa using hencrypted) hpayload, h⟩
  · rintro ⟨payload, encrypted, hopens, h⟩
    cases hopens with
    | plain hread hencrypted hpayload =>
        obtain ⟨text, htext, hloads, hformat⟩ := hread
        refine ⟨text, _, htext, hloads, openEnvelope_eq_ok_iff.mpr ⟨hformat, ?_⟩⟩
        rw [if_neg (by simp [hencrypted])]
        exact ⟨payload, hpayload, h⟩
    | decrypted hdecrypted htext hpayload =>
        obtain ⟨envelope, salt, n, token, hsealed, hsalt, hn, htoken, hplain⟩ := hdecrypted
        obtain ⟨⟨text, htext', hloads, hformat⟩, hencrypted, hgiven, hkdf⟩ := hsealed
        refine ⟨text, envelope, htext', hloads, openEnvelope_eq_ok_iff.mpr ⟨hformat, ?_⟩⟩
        rw [if_pos hencrypted]
        exact ⟨hgiven, hkdf, _, openSealed_eq_ok_iff.mpr ⟨salt, n, token, hsalt, hn, htoken, hplain⟩,
          openPayload_eq_ok_iff.mpr ⟨_, payload, htext, hpayload, h⟩⟩

end Opening

/-! ## rejection -/

/-- An archive is handled cleanly if nothing escapes. -/
theorem clean_iff_not_breaks {raw : List UInt8} {password : Str} {selected : List Str} :
    Clean P destKey raw password selected ↔
      ¬Breaks Escapes (openArchive P destKey raw password selected) := by
  unfold Clean Breaks Escapes
  constructor
  · rintro h ⟨exc, hexc, hescapes⟩
    obtain ⟨msg, rfl⟩ := h exc hexc
    exact hescapes msg rfl
  · intro h exc hexc
    by_contra hnot
    exact h ⟨exc, hexc, fun msg hmsg => hnot ⟨msg, hmsg⟩⟩

/-- An archive is accepted or rejected with a `BackupError` exactly if it has
no fault where it is opened and, if it opens, its payload has none where it is
checked. -/
theorem clean_iff (P : Platform) (destKey : Str) (raw : List UInt8) (password : Str)
    (selected : List Str) :
    Clean P destKey raw password selected ↔
      ¬OpenFault P raw password ∧
        ∀ payload encrypted noted, Opens P raw password payload encrypted →
          noteEnvelope payload encrypted = .ok noted →
            ¬RecordFault P destKey (normalizeCategories selected) noted := by
  rw [clean_iff_not_breaks, openArchive, breaks_bind_iff, openFault_iff, not_or]
  refine and_congr_right fun _ => ?_
  have hrest (noted : Dict) : Breaks Escapes (do
      validateRestoreRecords P destKey (normalizeCategories selected) noted
      return noted) ↔ RecordFault P destKey (normalizeCategories selected) noted := by
    rw [breaks_bind_iff, recordFault_iff]
    exact or_iff_left fun ⟨_, _, h⟩ => not_breaks_pure _ h
  simp only [hrest, loadBackupBytes_eq_ok_iff_opens]
  constructor
  · intro h payload encrypted noted hopens hnoted hfault
    exact h ⟨noted, ⟨payload, encrypted, hopens, hnoted⟩, hfault⟩
  · rintro h ⟨noted, ⟨payload, encrypted, hopens, hnoted⟩, hfault⟩
    exact h payload encrypted noted hopens hnoted hfault

/-- A file that holds an empty list. -/
def listFile : List UInt8 := Utf8.encode (lit "[]")

/-- Python, as far as it reads `listFile`. -/
def listPlatform : Platform :=
  { Platform.plain with loads := fun text => if text = lit "[]" then some (.arr []) else none }

/-- A list is no envelope, and has no method `get`. -/
theorem not_clean_listFile : ¬Clean listPlatform [] listFile [] [] := by
  rw [clean_iff_not_breaks, not_not, openArchive, breaks_bind_iff]
  have hfault : OpenFault listPlatform listFile [] :=
    .document (Utf8.decodeStrict_encode (lit "[]")) ⟨rfl, rfl⟩ (fun fields h => by contradiction)
  exact .inl (openFault_iff.mpr hfault)

end ApiToDns.Backup
