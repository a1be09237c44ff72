import ApiToDns.Lib.Prog
import ApiToDns.ZoneService

/-!
# LetsEncrypt

Enrollments of certificates (`letsencrypt.py`, `routes/settings_ssl.py`): the
operations start, start-async with its worker, continue, cancel, the renewal
and the deletion of a zone configuration, as programs over the settings, the
ACME server and the client of the provider.

The percents and messages of the progress are left out, and so are the parts
of an enrollment that only its page and the answer to an HTTP-01 challenge
read.
-/

namespace ApiToDns

open Py

/-! ## what is stored -/

/-- An exception: a `LetsEncryptError`, or any other one. -/
inductive LeExc where
  | letsEncryptError (msg : Str)
  | other (msg : Str)
deriving DecidableEq, Repr

inductive ChallengeType where
  | dns01
  | http01
deriving DecidableEq, Repr

/-- The setting `letsencrypt_config`. -/
structure LeConfig where
  challengeType : ChallengeType
  /-- `zone_id`, where it is set -/
  zoneId : Option Nat
  commonName : Str
  autoRenewEnabled : Bool
deriving DecidableEq

/-- A challenge of an order.  Its domain is the identifier of an authorization
and never empty; what stands in for an empty one is left out. -/
structure Challenge where
  domain : Str
  dnsValue : Str
deriving DecidableEq

/-- What `_acme_prepare_order` returns; `uri` stands for the order resource. -/
structure Order where
  uri : Nat
  challenges : List Challenge
deriving DecidableEq

inductive EnrollmentStatus where
  | awaitingManual
  | ready
  | issued
  | renewed
deriving DecidableEq, Repr

/-- The setting `letsencrypt_enrollment`. -/
structure Enrollment where
  status : EnrollmentStatus
  config : LeConfig
  order : Order
deriving DecidableEq

inductive EnrollmentPhase where
  | starting
  | saveConfig
  | prepareOrder
  | createDnsRecords
  | verifyDns
  | finalizeOrder
  | installCert
  | complete
  | error
deriving DecidableEq, Repr

/-- The setting `letsencrypt_enrollment_progress`; a missing row reads as
idle. -/
structure EnrollmentProgress where
  phase : EnrollmentPhase
  done : Bool
deriving DecidableEq

/-- `_enrollment_is_running`. -/
def enrollmentIsRunning : Option EnrollmentProgress → Bool
  | none => false
  | some progress => !progress.done

/-- A zone configuration: its row id, and its `dns_zone` as
`provider_dns_zone` reads it. -/
structure LeZone where
  id : Nat
  dnsZone : Str
deriving DecidableEq

/-! ## operations -/

/-- The activity events: those of a challenge record, and those of a request. -/
inductive LeEvent where
  | recordCreated
  | recordDeleted
  | recordLookup
  | letsencrypt
deriving DecidableEq, Repr

inductive LeOp where
  /-- `try_begin_enrollment` -/
  | tryBegin
  /-- `write_enrollment_progress` -/
  | progress (progress : EnrollmentProgress)
  /-- `is_enrollment_in_progress`, in `mark_enrollment_worker_finished` -/
  | isInProgress
  /-- the write of `mark_enrollment_worker_finished` -/
  | markFinished
  /-- `save_config` -/
  | saveConfig (config : LeConfig)
  | getConfig
  | writeConfig (config : LeConfig)
  /-- the certificate is from Let's Encrypt and about to expire -/
  | certDue
  /-- the calls of `_acme_prepare_order` to the ACME server -/
  | newOrder (config : LeConfig)
  /-- the calls of `_acme_finalize_order` -/
  | pollAndFinalize (enrollment : Enrollment)
  /-- `install_letsencrypt_cert` -/
  | installCert
  | getEnrollment
  | writeEnrollment (enrollment : Enrollment)
  | clearEnrollment
  /-- `_zone_row` -/
  | zoneRow (id : Nat)
  /-- the client replaces the TXT RRset -/
  | createTxt (zone : LeZone) (name value : Str)
  | deleteTxt (zone : LeZone) (name : Str)
  | getTxt (zone : LeZone) (name : Str)
  /-- an activity event, whose level is held against the stored log level -/
  | audit (event : LeEvent)
  | deleteZone (id : Nat)
  /-- the operation is over: the response, or the end of the task -/
  | respond
deriving DecidableEq

abbrev LeOp.Answer : LeOp → Type
  | tryBegin | isInProgress | certDue => Bool
  | getConfig => Option LeConfig
  | newOrder _ => Order
  | getEnrollment => Option Enrollment
  | zoneRow _ => Option LeZone
  -- the values of each record found
  | getTxt .. => List (List Str)
  | _ => Unit

abbrev leSig : Sig := ⟨LeOp, fun o => Except LeExc o.Answer⟩

abbrev LeCode (α : Type) := Code LeExc leSig α

def LeOp.ask (o : LeOp) : LeCode o.Answer := ExceptT.mk (.call o .ret)

/-! ## names -/

variable (U : Ucd)

/-- `_relative_acme_name`; what it strips is never all of the name. -/
def relativeAcmeName (domain zoneName : Str) : Str :=
  let domain := normalizeZoneName U domain
  let zoneName := normalizeZoneName U zoneName
  let front :=
    if endsWith domain ('.' :: zoneName) then dropEnd domain (zoneName.length + 1) else []
  rstripDots (lit "_acme-challenge." ++ front)

/-! ## challenges -/

/-- `progress_cb`, which only the asynchronous start has. -/
def reportPhase (async : Bool) (phase : EnrollmentPhase) : LeCode Unit :=
  if async then LeOp.ask (.progress ⟨phase, false⟩) else pure ()

/-- `create_dns_txt_challenge`. -/
def createDnsTxtChallenge (zoneId : Nat) (c : Challenge) : LeCode Unit := do
  let zone ← LeOp.ask (.zoneRow zoneId)
  match zone with
  | none => throw (.letsEncryptError (lit "Selected DNS zone was not found."))
  | some zone => do
      let _ ← LeOp.ask (.createTxt zone (relativeAcmeName U c.domain zone.dnsZone) c.dnsValue)
      LeOp.ask (.audit .recordCreated)

/-- `delete_dns_txt_challenge`. -/
def deleteDnsTxtChallenge (zoneId : Nat) (c : Challenge) : LeCode Unit := do
  let zone ← LeOp.ask (.zoneRow zoneId)
  match zone with
  | none => pure ()
  | some zone => do
      let _ ← LeOp.ask (.deleteTxt zone (relativeAcmeName U c.domain zone.dnsZone))
      LeOp.ask (.audit .recordDeleted)

/-- The attempts of `_verify_dns_txt_challenge`, without the waits. -/
def verifyAttempts (async : Bool) (zone : LeZone) (name value : Str) : Nat → LeCode Unit
  | 0 =>
      throw (.letsEncryptError
        (lit "DNS TXT record for _acme-challenge did not propagate after 2 minutes."))
  | left + 1 => do
      let _ ← reportPhase async .verifyDns
      let records ← LeOp.ask (.getTxt zone name)
      let _ ← LeOp.ask (.audit .recordLookup)
      if records.any (value ∈ ·) then pure () else verifyAttempts async zone name value left

def verifyDnsTxtChallenge (async : Bool) (zoneId total : Nat) (c : Challenge) : LeCode Unit := do
  let zone ← LeOp.ask (.zoneRow zoneId)
  match zone with
  | none => throw (.letsEncryptError (lit "Selected DNS zone was not found."))
  | some zone =>
      verifyAttempts async zone (relativeAcmeName U c.domain zone.dnsZone) c.dnsValue total

/-- `_cleanup_dns_txt_challenges`. -/
def cleanupDnsTxtChallenges (zoneId : Nat) : List Challenge → Prog leSig Unit
  | [] => .ret ()
  | c :: rest => do
      let _ ← (deleteDnsTxtChallenge U zoneId c).prog
      cleanupDnsTxtChallenges zoneId rest

/-- `DNS_TXT_VERIFY_MAX_ATTEMPTS`. -/
def dnsTxtVerifyMaxAttempts : Nat := 5

/-- The loop over the challenges, and the ones it has provisioned. -/
def provisionChallenges (async : Bool) (zoneId total : Nat) :
    List Challenge → List Challenge → Prog leSig (Except LeExc Unit × List Challenge)
  | [], provisioned => .ret (.ok (), provisioned)
  | c :: rest, provisioned => do
      let created ← (createDnsTxtChallenge U zoneId c).prog
      match created with
      | .error exc => .ret (.error exc, provisioned)
      | .ok () => do
          let verified ← (verifyDnsTxtChallenge U async zoneId total c).prog
          match verified with
          | .error exc => .ret (.error exc, provisioned ++ [c])
          | .ok () => provisionChallenges async zoneId total rest (provisioned ++ [c])

/-- The challenges of an order published in a zone; a `LetsEncryptError` takes
back what was provisioned. -/
def attachDnsChallenges (async : Bool) (zoneId : Nat) (order : Order) :
    Prog leSig (Except LeExc EnrollmentStatus) := do
  let reported ← (reportPhase async .createDnsRecords).prog
  match reported with
  | .error exc => .ret (.error exc)
  | .ok () => do
      let attached ← provisionChallenges U async zoneId
        (dnsTxtVerifyMaxAttempts * max order.challenges.length 1) order.challenges []
      match attached with
      | (.ok (), _) => .ret (.ok .ready)
      | (.error (.letsEncryptError msg), provisioned) => do
          let _ ← cleanupDnsTxtChallenges U zoneId provisioned
          .ret (.error (.letsEncryptError msg))
      | (.error exc, _) => .ret (.error exc)

/-- `_attach_challenges_to_enrollment`: the status it sets. -/
def attachChallengesToEnrollment (async automatedOnly : Bool) (config : LeConfig) (order : Order) :
    LeCode EnrollmentStatus :=
  match config.challengeType, config.zoneId with
  | .dns01, some zoneId => ExceptT.mk (attachDnsChallenges U async zoneId order)
  | .dns01, none =>
      if automatedOnly then
        throw (.letsEncryptError (lit
          "Automated DNS-01 renewal requires a configured DNS zone for TXT challenges."))
      else pure .awaitingManual
  | .http01, _ => if automatedOnly then pure .ready else pure .awaitingManual

/-- `_cleanup_enrollment_challenges`. -/
def cleanupEnrollmentChallenges (config : LeConfig) (order : Order) : Prog leSig Unit :=
  match config.zoneId with
  | none => .ret ()
  | some zoneId => cleanupDnsTxtChallenges U zoneId order.challenges

/-- The deletions of `continue_enrollment` and `cancel_enrollment`. -/
def deleteChallenges (zoneId : Nat) : List Challenge → LeCode Unit
  | [] => pure ()
  | c :: rest => do
      let _ ← deleteDnsTxtChallenge U zoneId c
      deleteChallenges zoneId rest

def deleteEnrollmentChallenges (enrollment : Enrollment) : LeCode Unit :=
  match enrollment.config.zoneId with
  | none => pure ()
  | some zoneId => deleteChallenges U zoneId enrollment.order.challenges

/-! ## enrollments -/

/-- What a failure of the ACME libraries is raised as. -/
def asLetsEncryptError (text : Str) : LeExc → LeExc
  | .letsEncryptError msg => .letsEncryptError msg
  | .other msg => .letsEncryptError (text ++ msg)

/-- `_acme_prepare_order`. -/
def acmePrepareOrder (config : LeConfig) : LeCode Order :=
  tryCatch (LeOp.ask (.newOrder config)) fun exc =>
    throw (asLetsEncryptError (lit "Failed to create ACME order: ") exc)

/-- `_acme_finalize_order`. -/
def acmeFinalizeOrder (enrollment : Enrollment) : LeCode Unit :=
  tryCatch (LeOp.ask (.pollAndFinalize enrollment)) fun exc =>
    throw (asLetsEncryptError (lit "Failed to finalize ACME order: ") exc)

/-- `continue_enrollment`. -/
def continueEnrollment (async : Bool) : LeCode EnrollmentStatus := do
  let enrollment ← LeOp.ask .getEnrollment
  match enrollment with
  | none => throw (.letsEncryptError (lit "No Let's Encrypt enrollment is in progress."))
  | some enrollment => do
      let _ ← reportPhase async .finalizeOrder
      let _ ← acmeFinalizeOrder enrollment
      let _ ← reportPhase async .installCert
      let _ ← LeOp.ask .installCert
      let _ ← LeOp.ask (.writeConfig enrollment.config)
      let _ ← LeOp.ask .clearEnrollment
      let _ ← deleteEnrollmentChallenges U enrollment
      pure .issued

/-- The challenges of a start: a `LetsEncryptError` clears the stored
enrollment. -/
def attachOrClear (async : Bool) (config : LeConfig) (order : Order) : LeCode EnrollmentStatus :=
  tryCatch (attachChallengesToEnrollment U async false config order) fun
    | .letsEncryptError msg => do
        let _ ← LeOp.ask .clearEnrollment
        throw (.letsEncryptError msg)
    | exc => throw exc

/-- `start_enrollment`. -/
def startEnrollment (async : Bool) (config : LeConfig) : LeCode EnrollmentStatus := do
  let _ ← reportPhase async .saveConfig
  let _ ← LeOp.ask (.saveConfig config)
  let _ ← reportPhase async .prepareOrder
  let order ← acmePrepareOrder config
  let status ← attachOrClear U async config order
  let _ ← LeOp.ask (.writeEnrollment ⟨status, config, order⟩)
  if status = .ready then continueEnrollment U async else pure status

/-- `cancel_enrollment`. -/
def cancelEnrollment : LeCode Unit := do
  let enrollment ← LeOp.ask .getEnrollment
  match enrollment with
  | none => LeOp.ask .clearEnrollment
  | some enrollment => do
      let _ ← deleteEnrollmentChallenges U enrollment
      LeOp.ask .clearEnrollment

/-- `auto_renew_supported`. -/
def autoRenewSupported (config : LeConfig) : Bool :=
  match config.challengeType with
  | .http01 => true
  | .dns01 => config.zoneId.isSome

/-- The `try` of the renewal. -/
def renewCertificate (config : LeConfig) (order : Order) : LeCode EnrollmentStatus := do
  let _ ← attachChallengesToEnrollment U false true config order
  let _ ← LeOp.ask (.writeEnrollment ⟨.ready, config, order⟩)
  let _ ← acmeFinalizeOrder ⟨.ready, config, order⟩
  let _ ← LeOp.ask .installCert
  pure .renewed

/-- `maybe_renew_certificate`, once the certificate is due: the order, the
renewal and its `finally`. -/
def renewDueCertificate (config : LeConfig) : LeCode EnrollmentStatus := do
  let order ← acmePrepareOrder config
  ExceptT.mk do
    let renewed ← (renewCertificate U config order).prog
    let _ ← cleanupEnrollmentChallenges U config order
    let cleared ← (LeOp.ask .clearEnrollment).prog
    match cleared with
    | .error exc => .ret (.error exc)
    | .ok () => .ret renewed

/-- `maybe_renew_certificate`. -/
def maybeRenewCertificate : LeCode (Option EnrollmentStatus) := do
  let due ← LeOp.ask .certDue
  let config ← LeOp.ask .getConfig
  match config with
  | none => pure none
  | some config =>
      if due && config.autoRenewEnabled && autoRenewSupported config then do
        let status ← renewDueCertificate U config
        pure (some status)
      else pure none

/-- The stored enrollment is cancelled, if it is with the zone. -/
def cancelWithZone (zoneId : Nat) (enrollment : Option Enrollment) : LeCode Unit :=
  if enrollment.bind (·.config.zoneId) = some zoneId then cancelEnrollment U else pure ()

/-- `detach_dns_zone_from_letsencrypt`. -/
def detachDnsZoneFromLetsencrypt (zoneId : Nat) : LeCode Unit := do
  let config ← LeOp.ask .getConfig
  let enrollment ← LeOp.ask .getEnrollment
  let _ ← cancelWithZone U zoneId enrollment
  match config.filter (·.zoneId = some zoneId) with
  | none => pure ()
  | some config =>
      LeOp.ask (.writeConfig { config with zoneId := none, autoRenewEnabled := false })

/-! ## requests and tasks -/

/-- A request or task that ends. -/
def endWith {α : Type} (c : LeCode α) : Prog leSig Unit := do
  let _ ← c.prog
  let _ ← (LeOp.ask .respond).prog
  .ret ()

/-- The worker of `settings_letsencrypt_start_async`. -/
def runLeAutoEnrollmentSync (config : LeConfig) : LeCode Unit :=
  tryCatch
    (do
      let _ ← startEnrollment U true config
      let _ ← LeOp.ask (.audit .letsencrypt)
      LeOp.ask (.progress ⟨.complete, true⟩))
    fun _ => LeOp.ask (.progress ⟨.error, true⟩)

/-- `mark_enrollment_worker_finished`. -/
def markEnrollmentWorkerFinished : LeCode Unit := do
  let running ← LeOp.ask .isInProgress
  if running then LeOp.ask .markFinished else pure ()

/-- `_run_le_auto_enrollment`: the worker, and its `finally`. -/
def runLeAutoEnrollment (config : LeConfig) : LeCode Unit := ExceptT.mk do
  let _ ← (runLeAutoEnrollmentSync U config).prog
  markEnrollmentWorkerFinished.prog

/-- `settings_letsencrypt_start_async`, from `try_begin_enrollment` on, and the
task it creates. -/
def settingsLetsencryptStartAsync (config : LeConfig) : LeCode Unit := do
  let began ← LeOp.ask .tryBegin
  let _ ← LeOp.ask (.audit .letsencrypt)
  if began then runLeAutoEnrollment U config else pure ()

/-- `zone_delete`. -/
def zoneDelete (zoneId : Nat) : LeCode Unit := do
  let row ← LeOp.ask (.zoneRow zoneId)
  match row with
  | none => pure ()
  | some _ => do
      let _ ← detachDnsZoneFromLetsencrypt U zoneId
      LeOp.ask (.deleteZone zoneId)

/-- What can happen to enrollments. -/
inductive LeRequest where
  | start (config : LeConfig)
  | startAsync (config : LeConfig)
  | continue_
  | cancel
  | renew
  | zoneDelete (zoneId : Nat)
deriving DecidableEq

def LeRequest.prog : LeRequest → Prog leSig Unit
  | start config => endWith (startEnrollment U false config)
  | startAsync config => endWith (settingsLetsencryptStartAsync U config)
  | continue_ => endWith (continueEnrollment U false)
  | cancel => endWith (cancelEnrollment U)
  | renew => endWith (maybeRenewCertificate U)
  | zoneDelete zoneId => endWith (ApiToDns.zoneDelete U zoneId)

end ApiToDns
