import ApiToDns.FormatMap
import ApiToDns.Py.Lines
import ApiToDns.Web

/-!
# Alerting

The alert rules that an event of the activity log is held against
(`alerting.py`).  They are taken one after the other, and an exception that one
of them raises ends the loop.

* `evaluateAlertRules` — the code;
* `Independent` — every rule that is due is attempted and stamped;
* `Stops` — the rules that end the loop;
* `evaluateAlertRules_independent_iff` — the rules are independent exactly if no
  rule stops the loop at or before one that is due.
-/

namespace ApiToDns.Alerting

open Py FormatMap

/-! ## the mail -/

/-- `get_smtp_config`. -/
structure SmtpConfig where
  servers : List Str
  port : Int
  anonymous : Bool
  username : Str
  password : Str
  fromAddress : Str
  security : Str
  timeout : Int
  allowInsecureAuth : Bool

/-- A message, with its headers and its content. -/
structure EmailMessage where
  sender : Text
  recipients : Text
  subject : Text
  body : Text

/-- What the rules are evaluated with. -/
structure AlertHost where
  objects : Objects
  /-- `json.dumps(json.loads(text), ensure_ascii=False, sort_keys=True)` -/
  reformatJson : Str → Except Exc Text
  /-- what the `email` package makes of a header that is one line -/
  parseHeader : Str → Text → Except Exc Unit
  /-- the dialogue with a server, and the text of its exception -/
  deliver : SmtpConfig → Str → EmailMessage → Except Str Unit
  /-- the microseconds of a stored time -/
  instant : Datetime → Int
  platform : Platform
  /-- the `ENCRYPTION_KEY` of the process -/
  processKey : Str
  /-- `default_app_dns_name` -/
  defaultAppDnsName : Text
  /-- `detect_system_ip_address` -/
  ipAddress : Text

/-- Where `str.splitlines` ends a line. -/
def endsLine : CodePoint → Bool
  | .char c => isLineBreak c
  | .surrogate _ => false

/-- `len(s.splitlines()) > 1`. -/
def hasLines (s : Text) : Bool :=
  match s.dropWhile fun p => !endsLine p with
  | [] => false
  | .char '\r' :: .char '\n' :: rest => rest ≠ []
  | _ :: rest => rest ≠ []

/-- `_parse_csv`. -/
def parseCsv (value : Str) : List Str :=
  ((value.splitOn ',').map strip).filter (· ≠ [])

/-- The registered settings of `SMTP_SETTINGS`, in the order in which they are read. -/
def smtpServersSpec : SettingSpec := ⟨lit "smtp_servers", .str, some (lit "")⟩

def smtpPortSpec : SettingSpec := ⟨lit "smtp_port", .int, some (lit "587")⟩

def smtpAnonymousSpec : SettingSpec := ⟨lit "smtp_anonymous", .bool, some (lit "false")⟩

def smtpSecuritySpec : SettingSpec := ⟨lit "smtp_security", .str, some (lit "starttls")⟩

def smtpTimeoutSpec : SettingSpec := ⟨lit "smtp_timeout", .int, some (lit "10")⟩

def smtpPasswordSpec : SettingSpec := ⟨lit "smtp_password", .str, some (lit "")⟩

def smtpUsernameSpec : SettingSpec := ⟨lit "smtp_username", .str, some (lit "")⟩

def smtpFromSpec : SettingSpec := ⟨lit "smtp_from", .str, some (lit "")⟩

def smtpAllowInsecureAuthSpec : SettingSpec :=
  ⟨lit "smtp_allow_insecure_auth", .bool, some (lit "false")⟩

/-- The settings that a mail is sent with. -/
def smtpSpecs : List SettingSpec :=
  [smtpServersSpec, smtpPortSpec, smtpAnonymousSpec, smtpSecuritySpec, smtpTimeoutSpec,
    smtpPasswordSpec, smtpUsernameSpec, smtpFromSpec, smtpAllowInsecureAuthSpec]

section Code

variable (H : AlertHost)

/-- `_typed_str`; a registered text is one. -/
def typedStr (db : Db) (spec : SettingSpec) : Except Exc Str :=
  typedOr H.platform H.processKey db spec (fun | .str s => s | _ => []) []

/-- `_typed_int`. -/
def typedInt (db : Db) (spec : SettingSpec) (fallback : Int) : Except Exc Int :=
  typedOr H.platform H.processKey db spec (fun | .int i => i | _ => fallback) fallback

/-- `_typed_bool`. -/
def typedBool (db : Db) (spec : SettingSpec) : Except Exc Bool :=
  typedOr H.platform H.processKey db spec Json.truthy false

/-- `get_smtp_config`. -/
def getSmtpConfig (db : Db) : Except Exc SmtpConfig := do
  let servers ← typedStr H db smtpServersSpec
  let port ← typedInt H db smtpPortSpec 587
  let anonymous ← typedBool H db smtpAnonymousSpec
  let stored ← typedStr H db smtpSecuritySpec
  let timeout ← typedInt H db smtpTimeoutSpec 10
  let password ← typedStr H db smtpPasswordSpec
  let username ← typedStr H db smtpUsernameSpec
  let fromAddress ← typedStr H db smtpFromSpec
  let allowInsecureAuth ← typedBool H db smtpAllowInsecureAuthSpec
  let cleaned := H.objects.ucd.lower (strip stored)
  let security :=
    if cleaned ∈ [lit "none", lit "starttls", lit "ssl"] then cleaned else lit "starttls"
  .ok ⟨parseCsv servers, port, anonymous, username, password, fromAddress, security, timeout,
    allowInsecureAuth⟩

/-- `get_app_dns_name`. -/
def getAppDnsName (db : Db) : Except Exc Text := do
  let stored ← storedAppDnsName H.platform H.processKey db
  .ok (if stored = [] then H.defaultAppDnsName else Text.ofStr stored)

/-- `message[name] = value`. -/
def setHeader (name : Str) (value : Text) : Except Exc Unit :=
  if hasLines value then
    .error (.valueError (lit "Header values may not contain linefeed or carriage return " ++
      lit "characters"))
  else H.parseHeader name value

/-- `message.set_content(body)`. -/
def setContent (body : Text) : Except Exc Unit :=
  if Text.encodable body then .ok ()
  else .error (.valueError (lit "surrogates not allowed"))

/-- The message, with its headers. -/
def buildMessage (config : SmtpConfig) (recipients : List Str) (subject body : Text) :
    Except Exc EmailMessage := do
  let sender := Text.ofStr config.fromAddress
  let receivers := Text.ofStr (join (lit ", ") recipients)
  setHeader H (lit "From") sender
  setHeader H (lit "To") receivers
  setHeader H (lit "Subject") subject
  setContent body
  .ok ⟨sender, receivers, subject, body⟩

/-- `validate_smtp_transport_security`. -/
def validateSmtpTransportSecurity (anonymous : Bool) (username password security : Str)
    (allowInsecureAuth : Bool) : Option Str :=
  let security := if security = [] then lit "starttls" else security
  let cleanedSecurity := H.objects.ucd.lower (strip security)
  let usesCredentials := !anonymous && (strip username ≠ [] || strip password ≠ [])
  if !usesCredentials then none
  else if cleanedSecurity = lit "starttls" ∨ cleanedSecurity = lit "ssl" then none
  else if allowInsecureAuth then none
  else
    some (lit "Credentialed SMTP requires STARTTLS or SSL. " ++
      lit "Enable 'Allow insecure cleartext SMTP authentication' only if you accept the risk, " ++
      lit "or use anonymous port-25 delivery without credentials.")

/-- The servers in order, and what went wrong with those before the one that
took the message. -/
def tryServers (config : SmtpConfig) (message : EmailMessage) :
    List Str → Bool × List (Str × Str)
  | [] => (false, [])
  | server :: servers =>
      match H.deliver config server message with
      | .ok () => (true, [])
      | .error text =>
          let r := tryServers config message servers
          (r.1, (server, text) :: r.2)

/-- Why nothing is sent with a configuration. -/
def notConfigured (config : SmtpConfig) (recipients : List Str) : Option Str :=
  if config.servers = [] then some (lit "No SMTP servers configured")
  else if config.fromAddress = [] then some (lit "SMTP from address is not configured")
  else if recipients = [] then some (lit "No recipients on alert rule")
  else
    validateSmtpTransportSecurity H config.anonymous config.username config.password config.security
      config.allowInsecureAuth

/-- `send_alert_email`. -/
def sendAlertEmail (db : Db) (recipients : List Str) (subject body : Text) :
    Except Exc (Bool × List (Str × Str)) := do
  let config ← getSmtpConfig H db
  match notConfigured H config recipients with
  | some failure => .ok (false, [([], failure)])
  | none => do
      let message ← buildMessage H config recipients subject body
      .ok (tryServers H config message config.servers)

/-! ## templates -/

/-- What `render_alert_template` catches. -/
def isCaught (exc : Exc) : Bool := exc.isValueError || exc = indexError || exc = keyError

/-- `render_alert_template`. -/
def renderAlertTemplate (template : Str) (values : List (Str × Text)) : Except Exc Text :=
  if template = [] then .ok []
  else
    match formatMap H.objects values template with
    | .ok text => .ok text
    | .error exc => if isCaught exc then .ok (Text.ofStr template) else .error exc

def defaultSubjectTemplate : Str := lit "[api-to-dns] \x7blevel\x7d: \x7bevent_type\x7d"

def defaultBodyTemplate : Str :=
  lit "System: \x7bsystem_dns_name\x7d (\x7bsystem_ip_address\x7d)\n" ++
    lit "Timestamp: \x7btimestamp\x7d\nEvent: \x7bevent_type\x7d\nLevel: \x7blevel\x7d\n" ++
    lit "Message: \x7bmessage\x7d\nZone Name: \x7bzone_name\x7d\nRecord: \x7brecord_name\x7d\n" ++
    lit "Details: \x7bdetails\x7d"

/-- The template, or the default one. -/
def subjectTemplate (rule : AlertRule) : Str :=
  if rule.emailSubjectTemplate = [] then defaultSubjectTemplate else rule.emailSubjectTemplate

def bodyTemplate (rule : AlertRule) : Str :=
  if rule.emailBodyTemplate = [] then defaultBodyTemplate else rule.emailBodyTemplate

/-- The details of an event, as they are shown. -/
def detailsText (row : ActivityLog) : Except Exc Text :=
  match row.detailsJson.getD [] with
  | [] => .ok []
  | stored =>
      match H.reformatJson stored with
      | .ok text => .ok text
      | .error exc =>
          if exc.isValueError ∨ exc = FormatMap.typeError then .ok (Text.ofStr stored) else .error exc

/-- `_template_values_for_event`, with the values of `system_identity`. -/
def templateValues (row : ActivityLog) (details dnsName : Text) : List (Str × Text) :=
  let text (s : Option Str) := Text.ofStr (s.getD [])
  [(lit "event_type", Text.ofStr row.eventType), (lit "level", Text.ofStr row.level),
    (lit "category", text row.category), (lit "timestamp", Text.ofStr row.timestamp.isoformat),
    (lit "message", text row.message), (lit "status", text row.status),
    (lit "actor_type", text row.actorType), (lit "actor_label", text row.actorLabel),
    (lit "actor_id", text row.actorId), (lit "zone_name", text row.zoneName),
    (lit "record_name", text row.recordName), (lit "details", details),
    (lit "system_dns_name", dnsName), (lit "system_ip_address", H.ipAddress)]

/-- The values that the templates are rendered with, by what the name of the system
reads as. -/
def baseValues (appDnsName : Except Exc Text) (row : ActivityLog) :
    Except Exc (List (Str × Text)) := do
  let dnsName ← appDnsName
  let details ← detailsText H row
  .ok (templateValues H row details dnsName)

/-! ## filters -/

/-- `_normalize_level`. -/
def normalizeLevel (level : Str) : Str :=
  let cleaned := H.objects.ucd.upper (strip level)
  if cleaned ∈ [lit "VERBOSE", lit "INFORMATIONAL", lit "WARNING", lit "ERROR"] then cleaned
  else lit "INFORMATIONAL"

/-- `LOG_LEVEL_ORDER`. -/
def levelOrder (level : Str) : Nat :=
  if level = lit "VERBOSE" then 0
  else if level = lit "INFORMATIONAL" then 10
  else if level = lit "WARNING" then 20
  else 30

/-- `_normalize_category`. -/
def normalizeCategory (category : Option Str) : Option Str :=
  let cleaned := H.objects.ucd.lower (strip (category.getD []))
  if cleaned = [] then none else some cleaned

/-- The text that a rule looks for words in. -/
def haystack (row : ActivityLog) : Str :=
  H.objects.ucd.lower (join (lit " ")
    ([row.message.getD [], row.detailsJson.getD []].filter (· ≠ [])))

/-- The filters of a rule let the event through. -/
def matchesEvent (row : ActivityLog) (rule : AlertRule) : Bool :=
  let eventType := rule.eventType.getD []
  let words := rule.messageContains.getD []
  (eventType = [] || eventType = row.eventType) &&
    (rule.category.getD [] = [] ||
      normalizeCategory H rule.category = normalizeCategory H row.category) &&
    levelOrder (normalizeLevel H rule.minimumLevel) ≤ levelOrder (normalizeLevel H row.level) &&
    (words = [] || contains (haystack H row) (H.objects.ucd.lower words))

def overflowError : Exc := .other (lit "OverflowError")

/-- The longest `timedelta` has fewer minutes. -/
def tooManyMinutes : Int := 1440 * 1000000000

/-- The rule has been triggered not long before `now`. -/
def inCooldown (now : Int) (rule : AlertRule) : Except Exc Bool :=
  match rule.lastTriggeredAt with
  | none => .ok false
  | some last =>
      if rule.cooldownMinutes = 0 then .ok false
      else if tooManyMinutes ≤ rule.cooldownMinutes then .error overflowError
      else .ok (decide (now - H.instant last < max 0 rule.cooldownMinutes * 60000000))

/-! ## the loop -/

/-- A run: the event, the database at its start and when the mail of the rule at a
position is put together, and the clock when the rule is looked at and when it is
stamped. -/
structure AlertRun where
  row : ActivityLog
  atStart : Db
  mailing : Nat → Db
  checked : Nat → Int
  stamped : Nat → Datetime

/-- The mail of a rule that is due: whether it was sent. -/
def attemptRule (R : AlertRun) (values : List (Str × Text)) (n : Nat) (rule : AlertRule) :
    Except Exc Bool := do
  let subject ← renderAlertTemplate H (subjectTemplate rule) values
  let body ← renderAlertTemplate H (bodyTemplate rule) values
  let sent ← sendAlertEmail H (R.mailing n) (parseCsv rule.emailRecipients) subject body
  .ok sent.1

/-- What a rule leads to: nothing, or an attempt. -/
def evaluateRule (R : AlertRun) (values : List (Str × Text)) (n : Nat) (rule : AlertRule) :
    Except Exc (Option Bool) :=
  if matchesEvent H R.row rule then do
    let cooling ← inCooldown H (R.checked n) rule
    if cooling then .ok none else some <$> attemptRule H R values n rule
  else .ok none

/-- The rules after the run, the attempts by the positions of their rules, and
the exception that ended the run. -/
structure AlertOutcome where
  rules : List AlertRule
  attempts : List (Nat × Bool)
  exc : Option Exc

/-- The loop, from a position on. -/
def evaluateFrom (R : AlertRun) (values : List (Str × Text)) :
    Nat → List AlertRule → AlertOutcome
  | _, [] => ⟨[], [], none⟩
  | n, rule :: rules =>
      match evaluateRule H R values n rule with
      | .error exc => ⟨rule :: rules, [], some exc⟩
      | .ok none =>
          let out := evaluateFrom R values (n + 1) rules
          { out with rules := rule :: out.rules }
      | .ok (some sent) =>
          let out := evaluateFrom R values (n + 1) rules
          { out with
            rules := { rule with lastTriggeredAt := some (R.stamped n) } :: out.rules
            attempts := (n, sent) :: out.attempts }

/-- `evaluate_alert_rules`, for the rules that are enabled. -/
def evaluateAlertRules (R : AlertRun) (rules : List AlertRule) : AlertOutcome :=
  if rules = [] then ⟨[], [], none⟩
  else
    match baseValues H (getAppDnsName H R.atStart) R.row with
    | .error exc => ⟨rules, [], some exc⟩
    | .ok values => evaluateFrom H R values 0 rules

/-! ## independence -/

/-- The rule has not been triggered within its cooldown. -/
def OutOfCooldown (now : Int) (rule : AlertRule) : Prop :=
  ∀ last ∈ rule.lastTriggeredAt, rule.cooldownMinutes = 0 ∨
    max 0 rule.cooldownMinutes * 60000000 ≤ now - H.instant last

/-- The rule at a position matches the event and is out of its cooldown. -/
def Due (R : AlertRun) (n : Nat) (rule : AlertRule) : Prop :=
  matchesEvent H R.row rule = true ∧ OutOfCooldown H (R.checked n) rule

/-- An attempt was made for every rule that is due, and the rule is stamped. -/
def Independent (R : AlertRun) (rules : List AlertRule) : Prop :=
  ∀ n rule, rules[n]? = some rule → Due H R n rule →
    (∃ sent, (n, sent) ∈ (evaluateAlertRules H R rules).attempts) ∧
      (evaluateAlertRules H R rules).rules[n]? =
        some { rule with lastTriggeredAt := some (R.stamped n) }

/-! ## what stops the loop -/

/-- Rendering the template raises something that is not caught. -/
def Escapes (values : List (Str × Text)) (template : Str) : Prop :=
  ∃ exc, formatMap H.objects values template = .error exc ∧ isCaught exc = false

/-- A text cannot be made a header. -/
def BadHeader (name : Str) (value : Text) : Prop :=
  hasLines value = true ∨ ∃ exc, H.parseHeader name value = .error exc

/-- A setting of the mail has a token that does not decrypt, or there is a
configuration to send with, and the message cannot be put together. -/
def Refused (db : Db) (recipients : List Str) (subject body : Text) : Prop :=
  (∃ spec ∈ smtpSpecs, Unreadable H.platform H.processKey db spec) ∨
    ∃ config, getSmtpConfig H db = .ok config ∧ notConfigured H config recipients = none ∧
    (BadHeader H (lit "From") (Text.ofStr config.fromAddress) ∨
      BadHeader H (lit "To") (Text.ofStr (join (lit ", ") recipients)) ∨
      BadHeader H (lit "Subject") subject ∨ Text.encodable body = false)

/-- A template or the mail of the rule raises an exception. -/
def Fails (R : AlertRun) (values : List (Str × Text)) (n : Nat) (rule : AlertRule) : Prop :=
  Escapes H values (subjectTemplate rule) ∨ Escapes H values (bodyTemplate rule) ∨
    ∃ subject body,
      renderAlertTemplate H (subjectTemplate rule) values = .ok subject ∧
      renderAlertTemplate H (bodyTemplate rule) values = .ok body ∧
      Refused H (R.mailing n) (parseCsv rule.emailRecipients) subject body

/-- The rule ends the loop: it matches the event, and its cooldown is longer than
the longest time span or it is due and fails. -/
def Stops (R : AlertRun) (values : List (Str × Text)) (n : Nat) (rule : AlertRule) : Prop :=
  matchesEvent H R.row rule = true ∧
    ((rule.lastTriggeredAt ≠ none ∧ tooManyMinutes ≤ rule.cooldownMinutes) ∨
      OutOfCooldown H (R.checked n) rule ∧ Fails H R values n rule)

/-- Nothing up to a position stops the loop. -/
def RunsThrough (R : AlertRun) (values : List (Str × Text)) (start : Nat)
    (rules : List AlertRule) (i : Nat) : Prop :=
  ∀ j ≤ i, ∀ rule, rules[j]? = some rule → ¬Stops H R values (start + j) rule

/-- The name of the system can be read, and the details of the event can be
shown. -/
def Shown (R : AlertRun) : Prop :=
  ¬Unreadable H.platform H.processKey R.atStart appDnsNameSpec ∧
    ∃ details, detailsText H R.row = .ok details

variable {H}

/-- When a header raises. -/
theorem setHeader_error_iff {name : Str} {value : Text} :
    (∃ exc, setHeader H name value = .error exc) ↔ BadHeader H name value := by
  unfold setHeader BadHeader
  by_cases h : hasLines value = true
  · simp [h]
  · simp [h]

/-- A body raises if it cannot be encoded. -/
theorem setContent_error_iff {body : Text} :
    (∃ exc, setContent body = .error exc) ↔ Text.encodable body = false := by
  unfold setContent
  by_cases h : Text.encodable body = true
  · simp [h]
  · simp [h]

/-- An exception of a sequence is one of its first part or of its second. -/
theorem exists_bind_error_iff {α β : Type} {x : Except Exc α} {f : α → Except Exc β} :
    (∃ exc, (x >>= f) = .error exc) ↔
      (∃ exc, x = .error exc) ∨ ∃ a, x = .ok a ∧ ∃ exc, f a = .error exc := by
  cases x with
  | error e => simp
  | ok a => simp

/-- When one of two steps raises. -/
theorem exists_seq_error_iff {β : Type} {x : Except Exc Unit} {y : Except Exc β} :
    (∃ exc, (x >>= fun _ => y) = .error exc) ↔
      (∃ exc, x = .error exc) ∨ ∃ exc, y = .error exc := by
  cases x with
  | error e => simp
  | ok a => simp

/-- A setting is read first, and what follows raises whatever it is. -/
theorem typedOr_bind_error_iff {α β : Type} {P : Platform} {processKey : Str} {db : Db}
    {spec : SettingSpec} {value : Json → α} {fallback : α} {f : α → Except Exc β} {p : Prop}
    (h : ∀ a, (∃ exc, f a = .error exc) ↔ p) :
    (∃ exc, (typedOr P processKey db spec value fallback >>= f) = .error exc) ↔
      Unreadable P processKey db spec ∨ p := by
  rw [← typedOr_error_iff]
  cases typedOr P processKey db spec value fallback with
  | error e => simp
  | ok a => simpa using h a

/-- The configuration of the mail is read, unless a token does not decrypt. -/
theorem getSmtpConfig_error_iff {db : Db} :
    (∃ exc, getSmtpConfig H db = .error exc) ↔
      ∃ spec ∈ smtpSpecs, Unreadable H.platform H.processKey db spec := by
  simp only [smtpSpecs, List.exists_mem_cons_iff, List.not_mem_nil, false_and, exists_false,
    or_false]
  unfold getSmtpConfig typedStr typedInt typedBool
  iterate 8 refine typedOr_bind_error_iff fun _ => ?_
  rw [typedOr_bind_error_iff (p := False) fun _ => by simp, or_false]

/-- `get_app_dns_name` raises if its row cannot be read. -/
theorem getAppDnsName_error_iff {db : Db} :
    (∃ exc, getAppDnsName H db = .error exc) ↔
      Unreadable H.platform H.processKey db appDnsNameSpec := by
  unfold getAppDnsName storedAppDnsName
  rw [typedOr_bind_error_iff (p := False) fun _ => by simp, or_false]

/-- When there are values to fill in. -/
theorem baseValues_eq_ok_iff {R : AlertRun} :
    (∃ values, baseValues H (getAppDnsName H R.atStart) R.row = .ok values) ↔ Shown H R := by
  unfold baseValues Shown
  rw [← getAppDnsName_error_iff]
  cases getAppDnsName H R.atStart with
  | error exc => simp
  | ok dnsName =>
      cases detailsText H R.row with
      | error exc => simp
      | ok details => simp

/-- When the message cannot be built. -/
theorem buildMessage_error_iff {config : SmtpConfig} {recipients : List Str}
    {subject body : Text} :
    (∃ exc, buildMessage H config recipients subject body = .error exc) ↔
      BadHeader H (lit "From") (Text.ofStr config.fromAddress) ∨
        BadHeader H (lit "To") (Text.ofStr (join (lit ", ") recipients)) ∨
        BadHeader H (lit "Subject") subject ∨ Text.encodable body = false := by
  unfold buildMessage
  rw [exists_seq_error_iff, setHeader_error_iff, exists_seq_error_iff, setHeader_error_iff,
    exists_seq_error_iff, setHeader_error_iff, exists_seq_error_iff, setContent_error_iff]
  simp

/-- When `send_alert_email` raises. -/
theorem sendAlertEmail_error_iff {db : Db} {recipients : List Str} {subject body : Text} :
    (∃ exc, sendAlertEmail H db recipients subject body = .error exc) ↔
      Refused H db recipients subject body := by
  unfold sendAlertEmail Refused
  rw [exists_bind_error_iff, getSmtpConfig_error_iff]
  refine or_congr_right (exists_congr fun config => and_congr_right fun _ => ?_)
  cases notConfigured H config recipients with
  | some failure => simp
  | none =>
      simp only [exists_bind_error_iff, buildMessage_error_iff]
      simp

/-- There is always a subject template. -/
theorem subjectTemplate_ne_nil (rule : AlertRule) : subjectTemplate rule ≠ [] := by
  unfold subjectTemplate
  split
  · decide
  · assumption

/-- There is always a body template. -/
theorem bodyTemplate_ne_nil (rule : AlertRule) : bodyTemplate rule ≠ [] := by
  unfold bodyTemplate
  split
  · decide
  · assumption

/-- When a template raises. -/
theorem renderAlertTemplate_error_iff {template : Str} (hne : template ≠ [])
    {values : List (Str × Text)} :
    (∃ exc, renderAlertTemplate H template values = .error exc) ↔ Escapes H values template := by
  unfold renderAlertTemplate Escapes
  rw [if_neg hne]
  cases formatMap H.objects values template with
  | ok text => simp
  | error exc =>
      by_cases hcaught : isCaught exc = true
      · simp [hcaught]
      · simp [hcaught]

/-- What the cooldown of a rule says. -/
theorem inCooldown_cases (now : Int) (rule : AlertRule) :
    (rule.lastTriggeredAt ≠ none ∧ tooManyMinutes ≤ rule.cooldownMinutes ∧
      inCooldown H now rule = .error overflowError) ∨
    ¬(rule.lastTriggeredAt ≠ none ∧ tooManyMinutes ≤ rule.cooldownMinutes) ∧
      ((OutOfCooldown H now rule ∧ inCooldown H now rule = .ok false) ∨
        ¬OutOfCooldown H now rule ∧ inCooldown H now rule = .ok true) := by
  unfold inCooldown OutOfCooldown
  cases rule.lastTriggeredAt with
  | none => simp
  | some last =>
      have hmany : 0 < tooManyMinutes := by decide
      by_cases hzero : rule.cooldownMinutes = 0
      · simp [hzero, hmany]
      · by_cases hlong : tooManyMinutes ≤ rule.cooldownMinutes
        · simp [hzero, hlong]
        · by_cases hcool : now - H.instant last < max 0 rule.cooldownMinutes * 60000000
          · have hlt : ¬max 0 rule.cooldownMinutes * 60000000 ≤ now - H.instant last := by omega
            simp [hzero, hlong, hcool, hlt]
          · have hle : max 0 rule.cooldownMinutes * 60000000 ≤ now - H.instant last := by omega
            simp [hzero, hlong, hcool, hle]

variable {R : AlertRun} {values : List (Str × Text)} {n : Nat} {rule : AlertRule}

/-- When the attempt for a rule raises. -/
theorem attemptRule_error_iff :
    (∃ exc, attemptRule H R values n rule = .error exc) ↔ Fails H R values n rule := by
  have hsubject : (∃ exc, renderAlertTemplate H (subjectTemplate rule) values = .error exc) ↔
      Escapes H values (subjectTemplate rule) :=
    renderAlertTemplate_error_iff (subjectTemplate_ne_nil rule)
  have hbody : (∃ exc, renderAlertTemplate H (bodyTemplate rule) values = .error exc) ↔
      Escapes H values (bodyTemplate rule) :=
    renderAlertTemplate_error_iff (bodyTemplate_ne_nil rule)
  unfold attemptRule Fails
  rw [exists_bind_error_iff, hsubject]
  cases hs : renderAlertTemplate H (subjectTemplate rule) values with
  | error exc =>
      have hescapes := hsubject.mp ⟨exc, hs⟩
      simp [hescapes]
  | ok subject =>
      have hkeeps : ¬Escapes H values (subjectTemplate rule) := by
        rw [← hsubject, hs]
        simp
      cases hb : renderAlertTemplate H (bodyTemplate rule) values with
      | error exc =>
          have hescapes := hbody.mp ⟨exc, hb⟩
          simp [hescapes]
      | ok body =>
          have hkeeps' : ¬Escapes H values (bodyTemplate rule) := by
            rw [← hbody, hb]
            simp
          simp [hkeeps, hkeeps', exists_bind_error_iff, sendAlertEmail_error_iff]

/-- A rule that does not stop the loop leads to an attempt if it is due, and to
nothing otherwise. -/
theorem evaluateRule_cases (R : AlertRun) (values : List (Str × Text)) (n : Nat) (rule : AlertRule) :
    (Stops H R values n rule ∧ ∃ exc, evaluateRule H R values n rule = .error exc) ∨
    ¬Stops H R values n rule ∧
      ((Due H R n rule ∧ ∃ sent, evaluateRule H R values n rule = .ok (some sent)) ∨
        ¬Due H R n rule ∧ evaluateRule H R values n rule = .ok none) := by
  unfold evaluateRule
  by_cases hmatch : matchesEvent H R.row rule = true
  · rw [if_pos hmatch]
    obtain ⟨hlast, hmany, hcool⟩ | ⟨hshort, ⟨hout, hcool⟩ | ⟨hin, hcool⟩⟩ :=
      inCooldown_cases (H := H) (R.checked n) rule
    · rw [hcool]
      exact .inl ⟨⟨hmatch, .inl ⟨hlast, hmany⟩⟩, overflowError, rfl⟩
    · rw [hcool, ok_bind]
      cases hattempt : attemptRule H R values n rule with
      | error exc =>
          have hfails := attemptRule_error_iff.mp ⟨exc, hattempt⟩
          exact .inl ⟨⟨hmatch, .inr ⟨hout, hfails⟩⟩, exc, rfl⟩
      | ok sent =>
          have hfine : ¬Fails H R values n rule := by
            rw [← attemptRule_error_iff, hattempt]
            simp
          refine .inr ⟨?_, .inl ⟨⟨hmatch, hout⟩, sent, rfl⟩⟩
          intro h
          obtain hmany | hfails := h.2
          · exact hshort hmany
          · exact hfine hfails.2
    · rw [hcool, ok_bind]
      refine .inr ⟨?_, .inr ⟨fun h => hin h.2, rfl⟩⟩
      intro h
      obtain hmany | hout := h.2
      · exact hshort hmany
      · exact hin hout.1
  · refine .inr ⟨fun h => hmatch h.1, .inr ⟨fun h => hmatch h.1, if_neg hmatch⟩⟩

/-- A template with names only in its braces raises nothing that escapes. -/
theorem not_escapes_of_isSimple
    (hformat : ∀ s, H.objects.format (H.objects.ofText s) [] = .ok s) {template : Str}
    (h : isSimple template = true) (values : List (Str × Text)) : ¬Escapes H values template := by
  intro hescapes
  obtain ⟨exc, heq, hcaught⟩ := hescapes
  have hvalue := raisesValueError_formatMap hformat h exc heq
  simp [isCaught, hvalue] at hcaught

set_option maxRecDepth 8000 in
/-- The default templates are such templates. -/
theorem isSimple_defaultTemplates :
    isSimple defaultSubjectTemplate = true ∧ isSimple defaultBodyTemplate = true := by
  decide

/-! ## runs -/

/-- An attempt was made for the rule, and it is stamped. -/
def Attempted (R : AlertRun) (out : AlertOutcome) (start i : Nat) (rule : AlertRule) : Prop :=
  (∃ sent, (start + i, sent) ∈ out.attempts) ∧
    out.rules[i]? = some { rule with lastTriggeredAt := some (R.stamped (start + i)) }

/-- The loop comes to a rule if it does not stop at the ones before. -/
theorem runsThrough_succ_iff {first : AlertRule} {start i : Nat} {rules : List AlertRule} :
    RunsThrough H R values start (first :: rules) (i + 1) ↔
      ¬Stops H R values start first ∧ RunsThrough H R values (start + 1) rules i := by
  have hshift : ∀ j, start + 1 + j = start + (j + 1) := by omega
  constructor
  · intro h
    refine ⟨h 0 (by omega) first rfl, ?_⟩
    intro j hj rule hrule
    rw [hshift]
    exact h (j + 1) (by omega) rule hrule
  · intro h j hj rule hrule
    cases j with
    | zero =>
        obtain rfl := Option.some.inj hrule
        exact h.1
    | succ j =>
        rw [← hshift]
        exact h.2 j (by omega) rule hrule

/-- A rule that is due is attempted and stamped exactly if nothing up to it
stops the loop. -/
theorem attempted_iff {start i : Nat} {rules : List AlertRule} (hrule : rules[i]? = some rule)
    (hdue : Due H R (start + i) rule) :
    Attempted R (evaluateFrom H R values start rules) start i rule ↔
      RunsThrough H R values start rules i := by
  induction rules generalizing start i with
  | nil => simp at hrule
  | cons first rules ih =>
      obtain ⟨hstops, exc, heq⟩ | ⟨hgoes, ⟨hfirst, sent, heq⟩ | ⟨hfirst, heq⟩⟩ :=
        evaluateRule_cases (H := H) R values start first
      · have hnone : ¬RunsThrough H R values start (first :: rules) i :=
          fun h => h 0 (by omega) first rfl hstops
        simp [evaluateFrom, heq, Attempted, hnone]
      · cases i with
        | zero =>
            obtain rfl := Option.some.inj hrule
            refine iff_of_true ⟨⟨sent, ?_⟩, ?_⟩ ?_
            · simp [evaluateFrom, heq]
            · simp [evaluateFrom, heq]
            · intro j hj r hr
              obtain rfl := Nat.le_zero.mp hj
              obtain rfl := Option.some.inj hr
              exact hgoes
        | succ i =>
            have hshift : start + (i + 1) = start + 1 + i := by omega
            have hne : start + 1 + i ≠ start := by omega
            have hrest :
                Attempted R (evaluateFrom H R values (start + 1) rules) (start + 1) i rule ↔
                  RunsThrough H R values (start + 1) rules i := ih hrule (by rwa [← hshift])
            rw [runsThrough_succ_iff, ← hrest]
            simp [evaluateFrom, heq, Attempted, hshift, hne, hgoes]
      · cases i with
        | zero =>
            obtain rfl := Option.some.inj hrule
            exact absurd hdue hfirst
        | succ i =>
            have hshift : start + (i + 1) = start + 1 + i := by omega
            have hrest :
                Attempted R (evaluateFrom H R values (start + 1) rules) (start + 1) i rule ↔
                  RunsThrough H R values (start + 1) rules i := ih hrule (by rwa [← hshift])
            rw [runsThrough_succ_iff, ← hrest]
            simp [evaluateFrom, heq, Attempted, hshift, hgoes]

/-- The alert rules are independent exactly if, for every rule that is due, what
its mail shows of the system and of the event can be read and no rule up to it
stops the loop. -/
theorem evaluateAlertRules_independent_iff (H : AlertHost) (R : AlertRun) (rules : List AlertRule) :
    Independent H R rules ↔
      ∀ i rule, rules[i]? = some rule → Due H R i rule →
        Shown H R ∧ ∀ values, baseValues H (getAppDnsName H R.atStart) R.row = .ok values →
          RunsThrough H R values 0 rules i := by
  unfold Independent
  refine forall_congr' fun i => forall_congr' fun rule => forall_congr' fun hrule =>
    forall_congr' fun hdue => ?_
  have hne : rules ≠ [] := by
    intro hnil
    simp [hnil] at hrule
  rw [← baseValues_eq_ok_iff]
  cases hvalues : baseValues H (getAppDnsName H R.atStart) R.row with
  | error exc => simp [evaluateAlertRules, hne, hvalues]
  | ok values =>
      have hzero : 0 + i = i := Nat.zero_add i
      have hattempted : Attempted R (evaluateFrom H R values 0 rules) 0 i rule ↔
          RunsThrough H R values 0 rules i := attempted_iff hrule (by rwa [hzero])
      simpa [evaluateAlertRules, hne, hvalues, Attempted, hzero] using hattempted

/-! ## a rule with the message in its subject -/

def relayKey : Str := List.replicate 43 'A' ++ lit "="

/-- A host that writes texts as they are, to a server that takes everything. -/
def exampleHost : AlertHost where
  objects := textObjects .ascii
  reformatJson text := .ok (Text.ofStr text)
  parseHeader _ _ := .ok ()
  deliver _ _ _ := .ok ()
  instant _ := 0
  platform := .plain
  processKey := relayKey
  defaultAppDnsName := Text.ofStr (lit "api-to-dns.example")
  ipAddress := Text.ofStr (lit "192.0.2.1")

/-- The settings of a relay that needs no login. -/
def relayDb : Db :=
  [(smtpServersSpec, lit "smtp.example"), (smtpAnonymousSpec, lit "true"),
    (smtpFromSpec, lit "dns@example.com"), (smtpSecuritySpec, lit "none")].foldl
    (fun db setting => setSetting .plain relayKey db setting.1.key setting.2) .empty

/-- An event with a message of two lines. -/
def exampleRun : AlertRun where
  atStart := relayDb
  mailing _ := relayDb
  row :=
    { timestamp := ⟨lit "2026-01-01T00:00:00"⟩
      level := lit "ERROR"
      category := none
      eventType := lit "dns.browser_lookup_failed"
      status := none
      actorType := none
      actorId := none
      actorLabel := none
      zoneName := none
      recordName := none
      message := some (lit "Lookup failed:\ntimed out")
      detailsJson := none
      requestMethod := none
      requestPath := none
      requestStatusCode := .null
      requestIp := none }
  checked _ := 0
  stamped _ := ⟨lit "2026-01-01T00:00:01"⟩

/-- A rule for every error. -/
def exampleRule (subject : Str) : AlertRule where
  enabled := true
  name := lit "errors"
  eventType := none
  category := none
  minimumLevel := lit "ERROR"
  messageContains := none
  emailRecipients := lit "ops@example.com"
  emailSubjectTemplate := subject
  emailBodyTemplate := []
  cooldownMinutes := 0
  lastTriggeredAt := none

set_option maxRecDepth 2000 in
/-- The rule with the message in its subject ends the loop, and the rule after
it is not attempted. -/
theorem not_independent_subject :
    ¬Independent exampleHost exampleRun [exampleRule (lit "\x7bmessage\x7d"), exampleRule []] := by
  intro h
  have hdue : Due exampleHost exampleRun 1 (exampleRule []) :=
    ⟨rfl, fun last hlast => by cases hlast⟩
  obtain ⟨⟨sent, hsent⟩, -⟩ := h 1 (exampleRule []) rfl hdue
  have hnone : (evaluateAlertRules exampleHost exampleRun
      [exampleRule (lit "\x7bmessage\x7d"), exampleRule []]).attempts = [] := rfl
  simp [hnone] at hsent

end Code

end ApiToDns.Alerting
