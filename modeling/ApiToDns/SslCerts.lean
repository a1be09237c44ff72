import ApiToDns.Backup.Boot
import ApiToDns.Py.Re
import ApiToDns.Web

/-!
# SslCerts

The server's key and certificate (`ssl_certs.py`, `routes/settings_ssl.py`):
what each request does to the setting `ssl_enabled` and to the files of the
SSL directory, where `openssl` or the write of a file fails, and what
`bootstrap` makes of it.

Activity events, the mark that a restart is required and temporary files are
left out.
-/

namespace ApiToDns

open Py Backup

/-- `cryptography`, on keys and certificates in PEM; a public key is its DER
text. -/
structure CertLib where
  /-- the public key of an unencrypted private key -/
  loadKey : List UInt8 → Except Exc (List UInt8)
  /-- the public key of the first certificate, and when it ends -/
  loadCerts : List UInt8 → Except Exc (List UInt8 × Nat)
  /-- a private key written as PKCS8 -/
  pkcs8 : List UInt8 → List UInt8

namespace CertLib

variable (L : CertLib)

/-- A key that is written again is the same key. -/
structure Laws : Prop where
  loadKey_pkcs8 : ∀ {pem k}, L.loadKey pem = .ok k → L.loadKey (L.pkcs8 pem) = .ok k

/-- The certificate is for the key. -/
def Belong (key cert : List UInt8) : Prop :=
  ∃ k notAfter, L.loadKey key = .ok k ∧ L.loadCerts cert = .ok (k, notAfter)

end CertLib

/-- What `openssl req -x509 -newkey` makes. -/
structure CertPair (L : CertLib) where
  key : List UInt8
  cert : List UInt8
  belong : L.Belong key cert

/-- A call of `openssl`. -/
inductive Openssl (L : CertLib) where
  | notOnPath
  | notStarted
  | failed
  | made (pair : CertPair L)

/-- `_openssl_executable`. -/
def Openssl.found {L : CertLib} : Openssl L → Except Exc Unit
  | .notOnPath =>
      .error (.runtimeError (lit "The 'openssl' command was not found on PATH. Install OpenSSL or upload a PEM certificate instead."))
  | _ => .ok ()

/-- `subprocess.run`. -/
def Openssl.run {L : CertLib} : Openssl L → Except Exc (CertPair L)
  | .made pair => .ok pair
  | .failed => .error (.runtimeError (lit "openssl failed"))
  | _ => .error (.runtimeError (lit "Failed to invoke openssl"))

/-- What the process runs with; `defaultName` is `default_app_dns_name()`. -/
structure Site where
  P : Platform
  L : CertLib
  defaultName : Str

def keyFilename : Str := lit "server.key"
def certFilename : Str := lit "server.crt"
def sourceFilename : Str := lit "server.source"

/-- `cert_exists`. -/
def certExists (files : Files) : Bool :=
  (files keyFilename).isSome && (files certFilename).isSome

/-! ## names -/

/-- The class `[A-Za-z0-9-]`. -/
def isDnsChar (c : Char) : Bool := (isAscii c && c.isAlphanum) || c == '-'

/-- `(?!-)[A-Za-z0-9-]{1,63}(?<!-)`. -/
def dnsLabelRe : Re :=
  .seq (.notAhead '-') (.seq (.run isDnsChar 1 63) (.notBehind '-'))

/-- `_HOSTNAME_RE` of `hostnames.py`:
`^(?=.{1,253}$)(?!-)[A-Za-z0-9-]{1,63}(?<!-)(?:\.(?!-)[A-Za-z0-9-]{1,63}(?<!-))*$`. -/
def dnsHostnameRe : Re :=
  .seq (.ahead (.seq (.run (· ≠ '\n') 1 253) .atEnd)) <|
  .seq dnsLabelRe <|
  .seq (.star (.seq (.char (· == '.')) dnsLabelRe)) .atEnd

/-- `_FORBIDDEN_CHARS_RE`. -/
def isForbiddenChar (c : Char) : Bool :=
  c.toNat ≤ 0x1f || c.toNat == 0x7f || c == '/' || c == '\\'

/-- `validate_dns_hostname`. -/
def validateDnsHostname (name : Str) : Except Exc Str :=
  let cleaned := rstripDots (strip name)
  if cleaned = [] then .error (.valueError (lit "Hostname cannot be empty."))
  else if cleaned.any isForbiddenChar then
    .error (.valueError (lit "Hostname contains invalid control or path characters."))
  else if ' ' ∈ cleaned ∨ '\t' ∈ cleaned then
    .error (.valueError (lit "Hostname cannot contain whitespace."))
  else if contains cleaned (lit "..") then
    .error (.valueError (lit "Hostname is not a valid DNS name."))
  else if dnsHostnameRe.isMatch cleaned = false then
    .error (.valueError (lit "Hostname must be a valid DNS label or FQDN."))
  else .ok cleaned

/-! ## settings -/

variable (S : Site)

/-- `is_ssl_enabled`. -/
def isSslEnabled (host : Host) : Except Exc Bool :=
  truthValue (getTypedSetting S.P host.processKey host.db sslEnabledSpec)

/-- `set_ssl_enabled`. -/
def setSslEnabled (enabled : Bool) (host : Host) : Host :=
  { host with db := setSetting S.P host.processKey host.db sslEnabledSpec.key (encodeBool enabled) }

/-- `get_app_dns_name`. -/
def getAppDnsName (host : Host) : Except Exc Str := do
  let stored ← storedAppDnsName S.P host.processKey host.db
  .ok (if stored = [] then S.defaultName else stored)

/-! ## files -/

/-- The files written one after the other; the world says which write fails. -/
def writeFiles (writes : Nat → Bool) : Nat → List (Str × List UInt8) → Files →
    Except Exc Unit × Files
  | _, [], files => (.ok (), files)
  | n, (name, data) :: rest, files =>
      if writes n then
        writeFiles writes (n + 1) rest (Function.update files name (some data))
      else (.error osError, files)

/-- The name that a self-signed certificate is made for. -/
def checkedAppName (host : Host) : Except Exc Str := do
  let name ← getAppDnsName S host
  let name := strip name
  validateDnsHostname (if name = [] then lit "apitodns.local" else name)

/-- The pair that `create_self_signed_cert` is to put in its place. -/
def signedPair (openssl : Openssl S.L) (host : Host) : Except Exc (CertPair S.L) := do
  openssl.found
  let _ ← checkedAppName S host
  openssl.run

/-- `create_self_signed_cert`. -/
def createSelfSignedCert (openssl : Openssl S.L) (writes : Nat → Bool) (host : Host) :
    Except Exc Unit × Files :=
  match signedPair S openssl host with
  | .error exc => (.error exc, host.ssl)
  | .ok pair =>
      writeFiles writes 0
        [(keyFilename, pair.key), (certFilename, pair.cert),
          (sourceFilename, Utf8.encode (lit "self_signed\n"))] host.ssl

/-- The directory without key and certificate. -/
def withoutPair (files : Files) : Files := fun name =>
  if name = keyFilename ∨ name = certFilename then none else files name

/-- `regenerate_self_signed_cert`. -/
def regenerateSelfSignedCert (openssl : Openssl S.L) (writes : Nat → Bool) (host : Host) :
    Except Exc Unit × Files :=
  createSelfSignedCert S openssl writes { host with ssl := withoutPair host.ssl }

def maxSslKeyUploadBytes : Nat := 64 * 1024
def maxSslCertUploadBytes : Nat := 256 * 1024

/-- `not data.strip()`. -/
def isBlank (data : List UInt8) : Bool :=
  data.all fun b => b.toNat = 32 || (9 ≤ b.toNat && b.toNat ≤ 13)

/-- The checks of `install_uploaded_cert`. -/
def checkUpload (L : CertLib) (key cert : List UInt8) (now : Nat) : Except Exc Unit :=
  if maxSslKeyUploadBytes < key.length then
    .error (.valueError (lit "Private key upload exceeds the maximum allowed size of 65536 bytes."))
  else if maxSslCertUploadBytes < cert.length then
    .error (.valueError (lit "Certificate upload exceeds the maximum allowed size of 262144 bytes."))
  else if isBlank key then .error (.valueError (lit "Private key file is empty."))
  else if isBlank cert then .error (.valueError (lit "Certificate file is empty."))
  else do
    let keyPub ← L.loadKey key
    let (certPub, notAfter) ← L.loadCerts cert
    if certPub ≠ keyPub then
      .error (.valueError (lit "Private key does not match the certificate."))
    else if notAfter ≤ now then
      .error (.valueError (lit "Certificate is expired. Upload a current certificate."))
    else .ok ()

/-- `install_uploaded_cert`, and what `install_letsencrypt_cert` writes after
it. -/
def installCert (more : List (Str × List UInt8)) (key cert : List UInt8) (now : Nat)
    (writes : Nat → Bool) (files : Files) : Except Exc Unit × Files :=
  match checkUpload S.L key cert now with
  | .error exc => (.error exc, files)
  | .ok () =>
      writeFiles writes 0
        ([(keyFilename, S.L.pkcs8 key), (certFilename, cert),
          (sourceFilename, Utf8.encode (lit "uploaded\n"))] ++ more) files

/-- `install_uploaded_cert`. -/
def installUploadedCert (key cert : List UInt8) (now : Nat) (writes : Nat → Bool) (files : Files) :
    Except Exc Unit × Files :=
  installCert S [] key cert now writes files

/-- `install_letsencrypt_cert`. -/
def installLetsencryptCert (key cert : List UInt8) (now : Nat) (writes : Nat → Bool)
    (files : Files) : Except Exc Unit × Files :=
  installCert S [(sourceFilename, Utf8.encode (lit "letsencrypt\n"))] key cert now writes files

/-! ## requests -/

/-- `settings_update_ssl`; whether the request is refused.  The setting is
read for the record of the change before it is written. -/
def settingsUpdateSsl (desired : Bool) (host : Host) : Except Exc Bool × Host :=
  if desired && !certExists host.ssl then (.ok true, host)
  else
    match isSslEnabled S host with
    | .error exc => (.error exc, host)
    | .ok _ => (.ok false, setSslEnabled S desired host)

/-- `settings_regenerate_ssl`. -/
def settingsRegenerateSsl (openssl : Openssl S.L) (writes : Nat → Bool) (host : Host) :
    Except Exc Unit × Files :=
  if certExists host.ssl then regenerateSelfSignedCert S openssl writes host
  else createSelfSignedCert S openssl writes host

/-- What changes the setting or the files. -/
inductive SslStep (L : CertLib) where
  | toggle (desired : Bool)
  | selfSigned (openssl : Openssl L) (writes : Nat → Bool)
  | upload (key cert : List UInt8) (now : Nat) (writes : Nat → Bool)
  | letsencrypt (key cert : List UInt8) (now : Nat) (writes : Nat → Bool)
  | restore (m : Moment) (payload : Dict) (categories : List Str)

/-- The installation after a step, whether it went well or failed. -/
def sslStep (host : Host) : SslStep S.L → Host
  | .toggle desired => (settingsUpdateSsl S desired host).2
  | .selfSigned openssl writes => { host with ssl := (settingsRegenerateSsl S openssl writes host).2 }
  | .upload key cert now writes =>
      { host with ssl := (installUploadedCert S key cert now writes host.ssl).2 }
  | .letsencrypt key cert now writes =>
      { host with ssl := (installLetsencryptCert S key cert now writes host.ssl).2 }
  | .restore m payload categories => (restorePayload S.P m payload categories host).2

def sslRun (host : Host) (steps : List (SslStep S.L)) : Host := steps.foldl (sslStep S) host

/-! ## the next start -/

/-- `_coerce_truthy`. -/
def coerceTruthy (raw : Str) : Option Bool :=
  let value := S.P.ucd.lower (strip raw)
  if value ∈ truthyTexts then some true
  else if value ∈ [lit "0", lit "false", lit "no", lit "off", lit "disabled"] then some false
  else none

def systemExit : Exc := .other (lit "SystemExit")

/-- `bootstrap` with the variable `SSL_ENABLED`. -/
def bootstrap (sslVar : Option Str) (host : Host) : Except Exc Str :=
  match (sslVar.bind (coerceTruthy S)).map .ok |>.getD (isSslEnabled S host) with
  | .error _ => .error systemExit
  | .ok false => .ok (lit "http")
  | .ok true => if certExists host.ssl then .ok (lit "https") else .error systemExit

end ApiToDns
