import ApiToDns.JsonReader
import ApiToDns.Py.Utf8
import ApiToDns.Syslog
import Mathlib.Data.List.Basic

/-!
# SyslogMessages

What the forwarder sends of an event (`remote_syslog.py`), against RFC 5424.

* `validateSyslogConfig`, `encodeRfc5424` — the code;
* `IsMessage` — the grammar of a message, with a JSON text as its content;
* `conforms_iff` — the events whose messages are in the grammar.
-/

namespace ApiToDns.SyslogMessages

open Py JsonText Dumps

/-! ## dates -/

def isLeap (year : Nat) : Bool := year % 4 = 0 && (year % 100 ≠ 0 || year % 400 = 0)

def daysIn (year month : Nat) : Nat :=
  if month = 2 then if isLeap year then 29 else 28
  else if month = 4 ∨ month = 6 ∨ month = 9 ∨ month = 11 then 30
  else 31

/-- `date`. -/
structure Date where
  year : Nat
  month : Nat
  day : Nat
  valid : (1 ≤ year ∧ year ≤ 9999) ∧ (1 ≤ month ∧ month ≤ 12) ∧ 1 ≤ day ∧ day ≤ daysIn year month

/-- Every month has 28 days. -/
theorem twenty_eight_le_daysIn (year month : Nat) : 28 ≤ daysIn year month := by
  unfold daysIn
  split
  · split <;> omega
  · split <;> omega

/-- The day after. -/
def Date.next (d : Date) : Option Date :=
  have hdays := twenty_eight_le_daysIn
  if h : d.day < daysIn d.year d.month then
    some ⟨d.year, d.month, d.day + 1, d.valid.1, d.valid.2.1, by omega, by omega⟩
  else if hm : d.month < 12 then
    some ⟨d.year, d.month + 1, 1, d.valid.1, ⟨by omega, by omega⟩, by omega,
      Nat.le_trans (by omega) (hdays _ _)⟩
  else if hy : d.year < 9999 then
    some ⟨d.year + 1, 1, 1, ⟨by omega, by omega⟩, by omega, by omega,
      Nat.le_trans (by omega) (hdays _ _)⟩
  else none

/-- The day before. -/
def Date.prev (d : Date) : Option Date :=
  have hdays := twenty_eight_le_daysIn
  if h : 1 < d.day then
    some ⟨d.year, d.month, d.day - 1, d.valid.1, d.valid.2.1, by omega,
      Nat.le_trans (Nat.sub_le _ _) d.valid.2.2.2⟩
  else if hm : 1 < d.month then
    some ⟨d.year, d.month - 1, daysIn d.year (d.month - 1), d.valid.1,
      ⟨by omega, Nat.le_trans (Nat.sub_le _ _) d.valid.2.1.2⟩,
      Nat.le_trans (by omega) (hdays _ _), Nat.le_refl _⟩
  else if hy : 1 < d.year then
    some ⟨d.year - 1, 12, 31, ⟨by omega, Nat.le_trans (Nat.sub_le _ _) d.valid.1.2⟩, by omega,
      by omega, by simp [daysIn]⟩
  else none

/-- Microseconds. -/
def microsPerDay : Nat := 86400000000

/-- A date and a time of the day, in microseconds. -/
structure Moment where
  date : Date
  micros : Nat
  valid : micros < microsPerDay

/-- `datetime`, with the offset of its time zone, if it has one. -/
structure Datetime where
  moment : Moment
  offset : Option Int
  valid : ∀ o ∈ offset, o.natAbs < microsPerDay

def overflowError : Exc := .other (lit "OverflowError: date value out of range")

/-- The moment in UTC; without a time zone it is one in UTC. -/
def Datetime.toUtc (d : Datetime) : Except Exc Moment :=
  match h : d.offset with
  | none => .ok d.moment
  | some o =>
      have ho := d.valid o h
      have hm := d.moment.valid
      if hneg : (d.moment.micros : Int) - o < 0 then
        match d.moment.date.prev with
        | none => .error overflowError
        | some date => .ok ⟨date, (d.moment.micros - o + microsPerDay).toNat, by omega⟩
      else if hlt : (d.moment.micros : Int) - o < microsPerDay then
        .ok ⟨d.moment.date, (d.moment.micros - o).toNat, by omega⟩
      else
        match d.moment.date.next with
        | none => .error overflowError
        | some date => .ok ⟨date, (d.moment.micros - o - microsPerDay).toNat, by omega⟩

/-- `n` with at least `w` digits. -/
def pad (w n : Nat) : Str := List.replicate (w - (natStr n).length) '0' ++ natStr n

/-- `isoformat(timespec="milliseconds")` in UTC, with a `Z` for the offset. -/
def Moment.isoformat (t : Moment) : Str :=
  pad 4 t.date.year ++ '-' :: pad 2 t.date.month ++ '-' :: pad 2 t.date.day ++
    'T' :: pad 2 (t.micros / 3600000000) ++ ':' :: pad 2 (t.micros / 60000000 % 60) ++
    ':' :: pad 2 (t.micros / 1000000 % 60) ++ '.' :: pad 3 (t.micros / 1000 % 1000) ++ ['Z']

/-! ## events -/

/-- `ActivityLogSnapshot`.  The columns are texts of the database; the details
are what was stored as JSON, `null` standing for `None`. -/
structure ActivityLogSnapshot where
  timestamp : Option Datetime
  level : Str
  category : Option Str
  eventType : Str
  status : Option Str
  actorType : Option Str
  actorId : Option Str
  actorLabel : Option Str
  zoneName : Option Str
  recordName : Option Str
  message : Option Str
  details : Details
  requestMethod : Option Str
  requestPath : Option Str
  requestStatusCode : Option Int
  requestIp : Option Str
  id : Option Int

/-- `timestamp_iso`, read at `now`. -/
def ActivityLogSnapshot.timestampIso (event : ActivityLogSnapshot) (now : Moment) :
    Except Exc Str :=
  match event.timestamp with
  | none => .ok now.isoformat
  | some ts => Moment.isoformat <$> ts.toUtc

def strDetails (s : Str) : Details := .str (Text.ofStr s)

/-- An optional column. -/
def column : Option Str → Details
  | none => .null
  | some s => strDetails s

def numberColumn : Option Int → Details
  | none => .null
  | some i => .int i

def isNull : Details → Bool
  | .null => true
  | _ => false

namespace ActivityLogSnapshot

variable (event : ActivityLogSnapshot)

/-- The fields that `as_dict` takes over if they are not `None`. -/
def optionalFields : List (Text × Details) :=
  [(Text.ofStr (lit "id"), numberColumn event.id),
    (Text.ofStr (lit "category"), column event.category),
    (Text.ofStr (lit "status"), column event.status),
    (Text.ofStr (lit "actor_type"), column event.actorType),
    (Text.ofStr (lit "actor_id"), column event.actorId),
    (Text.ofStr (lit "actor_label"), column event.actorLabel),
    (Text.ofStr (lit "zone_name"), column event.zoneName),
    (Text.ofStr (lit "record_name"), column event.recordName),
    (Text.ofStr (lit "message"), column event.message),
    (Text.ofStr (lit "details"), event.details),
    (Text.ofStr (lit "request_method"), column event.requestMethod),
    (Text.ofStr (lit "request_path"), column event.requestPath),
    (Text.ofStr (lit "request_status_code"), numberColumn event.requestStatusCode),
    (Text.ofStr (lit "request_ip"), column event.requestIp)]

/-- `as_dict`, when the time stamp is the given one. -/
def payload (timestamp : Str) : Details :=
  .dict ([(Text.ofStr (lit "timestamp"), strDetails timestamp),
    (Text.ofStr (lit "level"), strDetails event.level),
    (Text.ofStr (lit "event_type"), strDetails event.eventType)] ++
    event.optionalFields.filter fun field => !isNull field.2)

/-- `as_dict`. -/
def asDict (now : Moment) : Except Exc Details := event.payload <$> event.timestampIso now

end ActivityLogSnapshot

/-! ## header fields -/

/-- `_NILVALUE`. -/
def nilvalue : Str := lit "-"

/-- `s[:n] or _NILVALUE`. -/
def cutOrNil (n : Nat) (s : Str) : Str := if s.take n = [] then nilvalue else s.take n

/-- `sanitize_hostname`. -/
def sanitizeHostname (value : Option Str) : Str :=
  let cleaned := strip (value.getD [])
  if cleaned = [] then nilvalue
  else
    cutOrNil 255 ((cleaned.map fun c => if c = ' ' then '_' else c).filter fun c =>
      c ≠ '\r' && c ≠ '\n' && c ≠ '\t')

/-- A character that `_SD_NAME_RE` leaves. -/
def isNameChar (c : Char) : Bool := isAscii c && (c.isAlphanum || c = '.' || c = '_' || c = '-')

/-- `_SD_NAME_RE.sub("_", …)`, inside a run of other characters or not. -/
def collapse : Bool → Str → Str
  | _, [] => []
  | inRun, c :: s =>
      if isNameChar c then c :: collapse false s
      else if inRun then collapse true s
      else '_' :: collapse true s

/-- `sanitize_msg_id`. -/
def sanitizeMsgId (value : Str) : Str :=
  let cleaned := strip value
  if cleaned = [] then nilvalue else cutOrNil 48 (collapse false cleaned)

/-- `SYSLOG_FACILITY`. -/
def syslogFacility : List (Str × Nat) :=
  [(lit "kern", 0), (lit "user", 1), (lit "mail", 2), (lit "daemon", 3), (lit "auth", 4),
    (lit "syslog", 5), (lit "lpr", 6), (lit "news", 7), (lit "uucp", 8), (lit "cron", 9),
    (lit "authpriv", 10), (lit "ftp", 11), (lit "local0", 16), (lit "local1", 17),
    (lit "local2", 18), (lit "local3", 19), (lit "local4", 20), (lit "local5", 21),
    (lit "local6", 22), (lit "local7", 23)]

/-- `SYSLOG_SEVERITY`. -/
def syslogSeverity : List (Str × Nat) :=
  [(lit "VERBOSE", 7), (lit "INFORMATIONAL", 6), (lit "WARNING", 4), (lit "ERROR", 3)]

/-- `table.get(key, default)`. -/
def lookupD (table : List (Str × Nat)) (key : Str) (default : Nat) : Nat :=
  (table.lookup key).getD default

/-- `s or default`. -/
def orDefault (s default : Str) : Str := if s = [] then default else s

/-! ## the message -/

def appName : Str := lit "api-to-dns"

/-- `s.encode("ascii", errors="replace")`. -/
def encodeAscii (s : Text) : Bytes :=
  s.map fun
    | .char c => if isAscii c then UInt8.ofNat c.toNat else UInt8.ofNat '?'.toNat
    | .surrogate _ => UInt8.ofNat '?'.toNat

section Code

variable (U : Ucd)

def priority (event : ActivityLogSnapshot) (config : SyslogConfig) : Nat :=
  lookupD syslogFacility (U.lower (orDefault config.facility (lit "local0"))) 16 * 8 +
    lookupD syslogSeverity (U.upper event.level) 6

/-- The header, with the blank after it. -/
def header (event : ActivityLogSnapshot) (config : SyslogConfig) (timestamp : Str) : Str :=
  lit "<" ++ natStr (priority U event config) ++ lit ">1 " ++ timestamp ++ lit " " ++
    sanitizeHostname (some config.hostname) ++ lit " " ++ appName ++ lit " - " ++
    sanitizeMsgId event.eventType ++ lit " - "

/-- `encode_rfc5424`.  The clock is read twice; the encoder goes `nesting`
levels below the dictionary of the event. -/
def encodeRfc5424 (nesting : Nat) (now now' : Moment) (event : ActivityLogSnapshot)
    (config : SyslogConfig) : Except Exc Bytes := do
  let dict ← event.asDict now
  let payload ← write compactStyle (nesting + 1) dict
  let timestamp ← event.timestampIso now'
  .ok (encodeAscii (Text.ofStr (header U event config timestamp) ++ payload))

/-! ## configurations -/

/-- `int(x)` is asked for of a number or a text. -/
inductive IntArg where
  | int (i : Int)
  | str (s : Str)

def IntArg.toInt : IntArg → Option Int
  | int i => some i
  | str s => U.parseInt s

/-- What `float(x)` is. -/
inductive FloatValue where
  | finite (q : Rat)
  | infinite (negative : Bool)
  | nan

/-- `x <= 0 or x > MAX_TIMEOUT_SECONDS`. -/
def FloatValue.isBadTimeout : FloatValue → Bool
  | finite q => q ≤ 0 || 30 < q
  | infinite _ => true
  | nan => false

/-- The arguments of `validate_syslog_config`; the timeout is what `float` makes
of it. -/
structure SyslogForm where
  enabled : Bool
  host : Str
  port : IntArg
  protocol : Str
  facility : Str
  minimumLevel : Str
  timeout : Option FloatValue
  queueSize : IntArg
  allowInsecurePlaintext : Bool
  hostname : Option Str

def protocolOf (s : Str) : Option SyslogProtocol :=
  if s = lit "tls" then some .tls
  else if s = lit "udp" then some .udp
  else if s = lit "tcp" then some .tcp
  else none

def usesPlaintext : SyslogProtocol → Bool
  | .udp | .tcp => true
  | .tls => false

/-- A number between one and `most`. -/
def boundedArg (arg : IntArg) (most : Nat) (msg : Str) : Except Exc Nat :=
  match arg.toInt U with
  | none => .error (.valueError msg)
  | some i => if i < 1 ∨ (most : Int) < i then .error (.valueError msg) else .ok i.toNat

/-- The check of the timeout. -/
def checkTimeout : Option FloatValue → Except Exc Unit
  | none => .error (.valueError (lit "Timeout must be a positive number of seconds."))
  | some timeout =>
      if timeout.isBadTimeout then
        .error (.valueError (lit "Timeout must be between 0 (exclusive) and 30 seconds."))
      else .ok ()

/-- `validate_syslog_config`. -/
def validateSyslogConfig (form : SyslogForm) : Except Exc SyslogConfig :=
  let facility := U.lower (strip (orDefault form.facility (lit "local0")))
  let level := U.upper (strip (orDefault form.minimumLevel (lit "INFORMATIONAL")))
  match protocolOf (U.lower (strip (orDefault form.protocol (lit "tls")))) with
  | none => .error (.valueError (lit "Protocol must be tls, udp, or tcp."))
  | some protocol =>
      if (syslogFacility.lookup facility).isNone then
        .error (.valueError (lit "Unsupported syslog facility: " ++ form.facility))
      else if (syslogSeverity.lookup level).isNone then
        .error (.valueError (lit "Unsupported minimum level: " ++ form.minimumLevel))
      else do
        let port ← boundedArg U form.port 65535
          (lit "Port must be an integer between 1 and 65535.")
        checkTimeout form.timeout
        let queueSize ← boundedArg U form.queueSize 5000
          (lit "Queue size must be an integer between 1 and 5000.")
        let host := strip form.host
        if form.enabled && host = [] then
          .error (.valueError (lit "Host is required when remote syslog is enabled."))
        else if form.enabled && usesPlaintext protocol && !form.allowInsecurePlaintext then
          .error (.valueError
            (lit "Plaintext UDP/TCP syslog exposes audit metadata on the network. " ++
              lit "Prefer TLS, or enable 'Allow insecure plaintext syslog' only if you accept " ++
              lit "the risk."))
        else
          .ok
            { enabled := form.enabled
              host := host
              port := port
              protocol := protocol
              facility := facility
              minimumLevel := level
              queueSize := queueSize
              hostname := sanitizeHostname form.hostname
              generation := 0 }

end Code

/-! ## the grammar -/

/-- `PRINTUSASCII`, some of it but no more than `most`. -/
def IsName (most : Nat) (s : Str) : Prop :=
  s ≠ [] ∧ s.length ≤ most ∧ ∀ c ∈ s, 33 ≤ c.toNat ∧ c.toNat ≤ 126

/-- `TIME-SECFRAC`, which may be missing. -/
def IsSecFrac (s : Str) : Prop :=
  s = [] ∨ ∃ digits, s = '.' :: digits ∧ digits ≠ [] ∧ digits.length ≤ 6 ∧
    ∀ c ∈ digits, c.isDigit = true

/-- `TIME-OFFSET`. -/
def IsTimeOffset (s : Str) : Prop :=
  s = ['Z'] ∨ ∃ sign hour minute, (sign = '+' ∨ sign = '-') ∧ hour < 24 ∧ minute < 60 ∧
    s = sign :: pad 2 hour ++ ':' :: pad 2 minute

/-- `TIMESTAMP`. -/
def IsTimestamp (s : Str) : Prop :=
  s = nilvalue ∨ ∃ year month day hour minute second frac offset,
    year < 10000 ∧ 1 ≤ month ∧ month ≤ 12 ∧ 1 ≤ day ∧ day ≤ daysIn year month ∧
    hour < 24 ∧ minute < 60 ∧ second < 60 ∧ IsSecFrac frac ∧ IsTimeOffset offset ∧
    s = pad 4 year ++ '-' :: pad 2 month ++ '-' :: pad 2 day ++ 'T' :: pad 2 hour ++
      ':' :: pad 2 minute ++ ':' :: pad 2 second ++ frac ++ offset

/-- A message without structured data whose content is the value in JSON. -/
def IsMessage (text : Str) (value : Details) : Prop :=
  ∃ pri timestamp hostname app procid msgid msg,
    pri ≤ 191 ∧ IsTimestamp timestamp ∧ IsName 255 hostname ∧ IsName 32 app ∧ IsName 32 procid ∧
    IsName 32 msgid ∧ parseJson msg = some value ∧
    text = lit "<" ++ natStr pri ++ lit ">1 " ++ timestamp ++ lit " " ++ hostname ++ lit " " ++
      app ++ lit " " ++ procid ++ lit " " ++ msgid ++ lit " - " ++ msg

/-- The message of the event is in the grammar, and is the event in JSON. -/
def Conforms (U : Ucd) (nesting : Nat) (now now' : Moment) (event : ActivityLogSnapshot)
    (config : SyslogConfig) : Prop :=
  ∃ bytes dict text, encodeRfc5424 U nesting now now' event config = .ok bytes ∧
    event.asDict now = .ok dict ∧ bytes = Utf8.encode text ∧ IsMessage text (asJson dict)

/-! ## conditions -/

/-- The moment has a year in UTC. -/
def Datetime.InRange (d : Datetime) : Prop :=
  ∀ o ∈ d.offset,
    ((d.moment.micros : Int) < o →
      ¬(d.moment.date.year = 1 ∧ d.moment.date.month = 1 ∧ d.moment.date.day = 1)) ∧
    ((microsPerDay : Int) + o ≤ d.moment.micros →
      ¬(d.moment.date.year = 9999 ∧ d.moment.date.month = 12 ∧ d.moment.date.day = 31))

/-- The length of a name, a run of other characters counting as one. -/
def nameLength (s : Str) : Nat :=
  s.countP isNameChar + (s.splitOnP isNameChar).countP (· ≠ [])

/-- The event and the configuration fit into a message. -/
structure Fits (nesting : Nat) (event : ActivityLogSnapshot) (config : SyslogConfig) : Prop where
  timestamp : ∀ ts ∈ event.timestamp, ts.InRange
  hostname : ∀ c ∈ strip config.hostname, 33 ≤ c.toNat ∧ c.toNat ≠ 127
  msgId : nameLength (strip event.eventType) ≤ 32
  id : ∀ i ∈ event.id, i.natAbs < 10 ^ maxStrDigits
  statusCode : ∀ i ∈ event.requestStatusCode, i.natAbs < 10 ^ maxStrDigits
  details : dumpable nesting event.details = true ∧ readable event.details = true

/-! ## time stamps -/

/-- The last day has no next. -/
theorem Date.next_eq_none_iff (d : Date) :
    d.next = none ↔ d.year = 9999 ∧ d.month = 12 ∧ d.day = 31 := by
  have hv := d.valid
  have h12 : d.month = 12 → daysIn d.year d.month = 31 := by
    intro h
    simp [daysIn, h]
  unfold Date.next
  split
  · simp
    omega
  · split
    · simp
      omega
    · split
      · simp
        omega
      · simp
        omega

/-- The first day has none before. -/
theorem Date.prev_eq_none_iff (d : Date) :
    d.prev = none ↔ d.year = 1 ∧ d.month = 1 ∧ d.day = 1 := by
  have hv := d.valid
  unfold Date.prev
  split
  · simp
    omega
  · split
    · simp
      omega
    · split
      · simp
        omega
      · simp
        omega

/-- A day can be missing before the first and after the last. -/
theorem Datetime.toUtc_ok_iff (d : Datetime) : (∃ t, d.toUtc = .ok t) ↔ d.InRange := by
  unfold Datetime.toUtc Datetime.InRange
  split
  · next h => simp [h]
  · next o h =>
      have ho := d.valid o h
      have hm := d.moment.valid
      simp only [h, Option.mem_def, Option.some.injEq, forall_eq']
      split
      · have hprev := d.moment.date.prev_eq_none_iff
        split
        · next hnone =>
            have hfirst := hprev.mp hnone
            simp
            omega
        · next date hsome =>
            have hother : ¬(d.moment.date.year = 1 ∧ d.moment.date.month = 1 ∧
                d.moment.date.day = 1) := by
              intro hfirst
              rw [hprev.mpr hfirst] at hsome
              contradiction
            refine iff_of_true ⟨_, rfl⟩ ⟨fun _ => hother, ?_⟩
            omega
      · split
        · refine iff_of_true ⟨_, rfl⟩ ⟨?_, ?_⟩ <;> omega
        · have hnext := d.moment.date.next_eq_none_iff
          split
          · next hnone =>
              have hlast := hnext.mp hnone
              simp
              omega
          · next date hsome =>
              have hother : ¬(d.moment.date.year = 9999 ∧ d.moment.date.month = 12 ∧
                  d.moment.date.day = 31) := by
                intro hlast
                rw [hnext.mpr hlast] at hsome
                contradiction
              refine iff_of_true ⟨_, rfl⟩ ⟨?_, fun _ => hother⟩
              omega

/-- A padded number consists of digits. -/
theorem isDigit_of_mem_pad {w n : Nat} {c : Char} (h : c ∈ pad w n) : c.isDigit = true := by
  obtain h | h := List.mem_append.mp h
  · rw [List.eq_of_mem_replicate h]
    rfl
  · exact mem_natStr h

/-- A padded number has its width. -/
theorem length_pad {w n : Nat} (hw : 0 < w) (h : n < 10 ^ w) : (pad w n).length = w := by
  have hlen : (natStr n).length ≤ w := (Nat.length_toDigits_le_iff (by omega) hw).mpr h
  rw [pad, List.length_append, List.length_replicate]
  omega

/-- Every moment is written as a time stamp. -/
theorem isTimestamp_isoformat (t : Moment) : IsTimestamp t.isoformat := by
  have hd := t.date.valid
  have ht := t.valid
  unfold microsPerDay at ht
  refine .inr ⟨t.date.year, t.date.month, t.date.day, t.micros / 3600000000,
    t.micros / 60000000 % 60, t.micros / 1000000 % 60, '.' :: pad 3 (t.micros / 1000 % 1000), ['Z'],
    by omega, by omega, by omega, by omega, hd.2.2.2, by omega, by omega, by omega, ?_, .inl rfl, ?_⟩
  · have hlen := length_pad (w := 3) (by omega) (by omega : t.micros / 1000 % 1000 < 10 ^ 3)
    refine .inr ⟨_, rfl, ?_, by omega, fun c hc => isDigit_of_mem_pad hc⟩
    intro hnil
    simp [hnil] at hlen
  · rw [Moment.isoformat]

/-- The characters of a timestamp. -/
theorem mem_of_isTimestamp {s : Str} (h : IsTimestamp s) {c : Char} (hc : c ∈ s) :
    c.isDigit = true ∨ c ∈ ['-', 'T', ':', '.', '+', 'Z'] := by
  have hpad : ∀ {w n}, c ∈ pad w n → c.isDigit = true ∨ c ∈ ['-', 'T', ':', '.', '+', 'Z'] :=
    fun hmem => .inl (isDigit_of_mem_pad hmem)
  obtain rfl | ⟨year, month, day, hour, minute, second, frac, offset, -, -, -, -, -, -, -, -,
    hfrac, hoffset, rfl⟩ := h
  · simp_all [nilvalue, lit]
  · have hf : c ∈ frac → c.isDigit = true ∨ c ∈ ['-', 'T', ':', '.', '+', 'Z'] := by
      intro hmem
      obtain rfl | ⟨digits, rfl, -, -, hdigits⟩ := hfrac
      · simp at hmem
      · obtain rfl | hmem := List.mem_cons.mp hmem
        · simp
        · exact .inl (hdigits c hmem)
    have ho : c ∈ offset → c.isDigit = true ∨ c ∈ ['-', 'T', ':', '.', '+', 'Z'] := by
      intro hmem
      obtain rfl | ⟨sign, hour, minute, hsign, -, -, rfl⟩ := hoffset
      · simp_all
      · simp only [List.cons_append, List.mem_cons, List.mem_append] at hmem
        obtain rfl | hmem | rfl | hmem := hmem
        · obtain rfl | rfl := hsign <;> simp
        · exact hpad hmem
        · simp
        · exact hpad hmem
    simp only [List.mem_append, List.mem_cons] at hc
    grind

/-- A timestamp has no blank. -/
theorem not_mem_of_isTimestamp {s : Str} (h : IsTimestamp s) : ' ' ∉ s := by
  intro hmem
  have hc := mem_of_isTimestamp h hmem
  revert hc
  decide

/-- Digits are ASCII. -/
theorem isAscii_of_isDigit {c : Char} (h : c.isDigit = true) : isAscii c = true := by
  have hn := toNat_of_isDigit h
  simp only [isAscii, decide_eq_true_eq]
  omega

/-- A timestamp is ASCII. -/
theorem isAscii_of_mem_timestamp {s : Str} (h : IsTimestamp s) : ∀ c ∈ s, isAscii c = true := by
  intro c hc
  obtain hdigit | hmem := mem_of_isTimestamp h hc
  · exact isAscii_of_isDigit hdigit
  · exact (by decide : ∀ d ∈ ['-', 'T', ':', '.', '+', 'Z'], isAscii d = true) c hmem

/-! ## names -/

/-- What is no ASCII is replaced. -/
def asciiChar (c : Char) : Char := if isAscii c then c else '?'

/-- A text is encoded with its ASCII characters. -/
theorem encodeAscii_ofStr (s : Str) :
    encodeAscii (Text.ofStr s) = Utf8.encode (s.map asciiChar) := by
  induction s with
  | nil => rfl
  | cons c s ih =>
      have hcons : encodeAscii (Text.ofStr (c :: s)) =
          encodeAscii (Text.ofStr [c]) ++ encodeAscii (Text.ofStr s) := rfl
      have hchar : encodeAscii (Text.ofStr [c]) = String.utf8EncodeChar (asciiChar c) := by
        by_cases hc : isAscii c = true
        · rw [asciiChar, if_pos hc, utf8EncodeChar_of_isAscii hc]
          simp [encodeAscii, Text.ofStr, hc]
        · rw [asciiChar, if_neg hc, utf8EncodeChar_of_isAscii rfl]
          simp [encodeAscii, Text.ofStr, hc]
      rw [hcons, hchar, ih, List.map_cons, Utf8.encode_cons]

/-- The characters of a name are printable ASCII. -/
theorem isAscii_of_isNameChar {c : Char} (h : isNameChar c = true) :
    33 ≤ c.toNat ∧ c.toNat ≤ 126 := by
  simp only [isNameChar, Bool.and_eq_true, Bool.or_eq_true, decide_eq_true_eq, Char.isAlphanum,
    isAlpha_iff] at h
  obtain ⟨-, (((h | h) | rfl) | rfl) | rfl⟩ := h
  · omega
  · have hdigit := toNat_of_isDigit h
    omega
  all_goals decide

/-- What is collapsed consists of name characters. -/
theorem mem_collapse {c : Char} {inRun : Bool} {s : Str} (h : c ∈ collapse inRun s) :
    isNameChar c = true := by
  induction s generalizing inRun with
  | nil => contradiction
  | cons d s ih =>
      unfold collapse at h
      split at h
      · next hd =>
          obtain rfl | h := List.mem_cons.mp h
          · exact hd
          · exact ih h
      · split at h
        · exact ih h
        · obtain rfl | h := List.mem_cons.mp h
          · rfl
          · exact ih h

/-- The length of the collapsed name; a run that has begun is not counted
again. -/
theorem length_collapse (s : Str) :
    (collapse false s).length = nameLength s ∧
      (collapse true s).length + (if (s.splitOnP isNameChar).head? = some [] then 0 else 1) =
        nameLength s := by
  induction s with
  | nil => simp [collapse, nameLength]
  | cons c s ih =>
      have hsplit := List.splitOnP_cons_eq_if_modifyHead (p := isNameChar) c s
      obtain ⟨w, ws, hws⟩ := List.exists_cons_of_ne_nil (List.splitOnP_ne_nil isNameChar s)
      rw [hws] at hsplit
      simp only [nameLength, hws, List.countP_cons, List.head?_cons, Option.some.injEq] at ih ⊢
      by_cases hc : isNameChar c = true
      · simp [hsplit, hc, collapse, List.countP_cons] at ih ⊢
        omega
      · by_cases hw : w = []
        · simp [hsplit, hc, hw, collapse] at ih ⊢
          omega
        · simp [hsplit, hc, hw, collapse] at ih ⊢
          omega

/-- A name that is not too long stays. -/
theorem cutOrNil_of_length_le {n : Nat} {s : Str} (hne : s ≠ []) (h : s.length ≤ n) :
    cutOrNil n s = s := by
  rw [cutOrNil, List.take_of_length_le h, if_neg hne]

/-- The nil value is a name. -/
theorem isName_nilvalue {n : Nat} (hn : 0 < n) : IsName n nilvalue := by
  exact ⟨by decide, hn, by decide⟩

/-- A message id is a name unless it is too long. -/
theorem isName_sanitizeMsgId_iff (s : Str) :
    IsName 32 (sanitizeMsgId s) ↔ nameLength (strip s) ≤ 32 := by
  unfold sanitizeMsgId
  by_cases hnil : strip s = []
  · simp [hnil, isName_nilvalue, nameLength]
  · have hlen := (length_collapse (strip s)).1
    have hne : collapse false (strip s) ≠ [] := by
      obtain ⟨c, t, heq⟩ := List.exists_cons_of_ne_nil hnil
      rw [heq, collapse]
      split <;> simp
    have htake : (collapse false (strip s)).take 48 ≠ [] := by
      simpa using hne
    have hchars : ∀ c ∈ (collapse false (strip s)).take 48, 33 ≤ c.toNat ∧ c.toNat ≤ 126 :=
      fun c hc => isAscii_of_isNameChar (mem_collapse (List.mem_of_mem_take hc))
    simp only [hnil, if_false, cutOrNil, htake, IsName, ne_eq, not_false_eq_true, true_and,
      List.length_take]
    constructor
    · intro h
      omega
    · intro h
      exact ⟨by omega, hchars⟩

/-- A message id consists of name characters. -/
theorem mem_sanitizeMsgId {c : Char} {s : Str} (h : c ∈ sanitizeMsgId s) :
    isNameChar c = true := by
  have hnil : c ∈ nilvalue → isNameChar c = true := by
    intro hmem
    rw [List.mem_singleton.mp hmem]
    rfl
  simp only [sanitizeMsgId, cutOrNil] at h
  split at h
  · exact hnil h
  · split at h
    · exact hnil h
    · exact mem_collapse (List.mem_of_mem_take h)

/-- A host name that was cleaned already. -/
def Cleaned (s : Str) : Prop :=
  s.length ≤ 255 ∧ ∀ c ∈ s, c ≠ ' ' ∧ c ≠ '\r' ∧ c ≠ '\n' ∧ c ≠ '\t'

/-- A host name is cleaned. -/
theorem cleaned_sanitizeHostname (value : Option Str) : Cleaned (sanitizeHostname value) := by
  have hnil : Cleaned nilvalue := by
    unfold Cleaned
    decide
  unfold sanitizeHostname
  by_cases h : strip (value.getD []) = []
  · simpa [h] using hnil
  · simp only [h, if_false]
    unfold cutOrNil
    split
    · exact hnil
    · refine ⟨by simp, ?_⟩
      intro c hc
      have hmem := List.mem_of_mem_take hc
      simp only [List.mem_filter, List.mem_map, ne_eq, Bool.and_eq_true, decide_eq_true_eq] at hmem
      obtain ⟨⟨d, -, rfl⟩, ⟨hcr, hlf⟩, htab⟩ := hmem
      refine ⟨?_, hcr, hlf, htab⟩
      split
      · decide
      · assumption

/-- Stripping adds no character. -/
theorem mem_of_mem_strip {c : Char} {s : Str} (h : c ∈ strip s) : c ∈ s :=
  (List.dropWhile_suffix _).subset ((List.rdropWhile_prefix _ _).subset h)

/-- Cleaning once more takes white space off the ends only. -/
theorem sanitizeHostname_of_cleaned {s : Str} (h : Cleaned s) :
    sanitizeHostname (some s) = orDefault (strip s) nilvalue := by
  have hchars : ∀ c ∈ strip s, c ≠ ' ' ∧ c ≠ '\r' ∧ c ≠ '\n' ∧ c ≠ '\t' :=
    fun c hc => h.2 c (mem_of_mem_strip hc)
  have hmap : ((strip s).map fun c => if c = ' ' then '_' else c) = strip s := by
    have hid : ((strip s).map fun c => if c = ' ' then '_' else c) = (strip s).map id :=
      List.map_congr_left fun c hc => if_neg (hchars c hc).1
    rw [hid, List.map_id]
  have hfilter : ((strip s).filter fun c => c ≠ '\r' && c ≠ '\n' && c ≠ '\t') = strip s := by
    refine List.filter_eq_self.mpr ?_
    intro c hc
    simp [hchars c hc]
  have hlen : (strip s).length ≤ 255 := by
    have hle : (strip s).length ≤ s.length :=
      Nat.le_trans (List.rdropWhile_prefix _ _).length_le (List.dropWhile_suffix _).length_le
    exact Nat.le_trans hle h.1
  unfold sanitizeHostname orDefault
  by_cases hnil : strip s = []
  · simp [hnil]
  · simp only [Option.getD_some, hnil, if_false, hmap, hfilter]
    exact cutOrNil_of_length_le hnil hlen

/-- A cleaned host name is written as a name unless it has a control
character. -/
theorem isName_hostname_iff {s : Str} (h : Cleaned s) :
    IsName 255 ((sanitizeHostname (some s)).map asciiChar) ↔
      ∀ c ∈ strip s, 33 ≤ c.toNat ∧ c.toNat ≠ 127 := by
  have hlen : (strip s).length ≤ 255 := by
    have hle : (strip s).length ≤ s.length :=
      Nat.le_trans (List.rdropWhile_prefix _ _).length_le (List.dropWhile_suffix _).length_le
    exact Nat.le_trans hle h.1
  have hchar : ∀ c : Char, (33 ≤ (asciiChar c).toNat ∧ (asciiChar c).toNat ≤ 126) ↔
      33 ≤ c.toNat ∧ c.toNat ≠ 127 := by
    intro c
    unfold asciiChar isAscii
    by_cases hc : c.toNat < 128
    · simp [hc]
      omega
    · have hquestion : '?'.toNat = 63 := rfl
      simp [hc, hquestion]
      omega
  rw [sanitizeHostname_of_cleaned h, orDefault]
  by_cases hnil : strip s = []
  · simp only [hnil, if_true, List.not_mem_nil, false_implies, implies_true, iff_true]
    exact isName_nilvalue (by omega)
  · simp [hnil, IsName, hlen, hchar]

/-! ## the content -/

/-- An object can be dumped if its fields can. -/
theorem dumpableFields_eq_all (n : Nat) (fields : List (Text × Details)) :
    dumpableFields n fields = fields.all fun f => dumpable n f.2 := by
  induction fields with
  | nil => rfl
  | cons f fields ih => rw [dumpableFields, ih, List.all_cons]

/-- Fields that are `None` make no difference where they are fine. -/
theorem all_filter_isNull {p : Text × Details → Bool} {fields : List (Text × Details)}
    (hp : ∀ f ∈ fields, isNull f.2 = true → p f = true) :
    (fields.filter fun f => !isNull f.2).all p = fields.all p := by
  rw [Bool.eq_iff_iff, List.all_eq_true, List.all_eq_true]
  constructor
  · intro h f hf
    by_cases hnull : isNull f.2 = true
    · exact hp f hf hnull
    · exact h f (List.mem_filter.mpr ⟨hf, by simpa using hnull⟩)
  · intro h f hf
    exact h f (List.mem_of_mem_filter hf)

/-- Only null is null. -/
theorem eq_null_of_isNull {a : Details} (h : isNull a = true) : a = .null := by
  cases a <;> first | rfl | contradiction

/-- A column of text can be dumped. -/
theorem dumpable_column (n : Nat) (s : Option Str) : dumpable n (column s) = true := by
  cases s <;> rfl

/-- It can be read back. -/
theorem readable_column (s : Option Str) : readable (column s) = true := by
  cases s with
  | none => rfl
  | some s => simp [column, strDetails, readable, hasPair_ofStr]

/-- A column of numbers can be dumped if they are not too long. -/
theorem dumpable_numberColumn_iff (n : Nat) (i : Option Int) :
    dumpable n (numberColumn i) = true ↔ ∀ j ∈ i, j.natAbs < 10 ^ maxStrDigits := by
  cases i with
  | none => simp [numberColumn, dumpable]
  | some i => simp [numberColumn, dumpable]

/-- It can be read back. -/
theorem readable_numberColumn (i : Option Int) : readable (numberColumn i) = true := by
  cases i <;> rfl

/-- The dictionary of an event is written unless a number is too long or the
details are too deep. -/
theorem dumpable_payload_iff (n : Nat) (event : ActivityLogSnapshot) (timestamp : Str) :
    dumpable (n + 1) (event.payload timestamp) = true ↔
      (∀ i ∈ event.id, i.natAbs < 10 ^ maxStrDigits) ∧
        (∀ i ∈ event.requestStatusCode, i.natAbs < 10 ^ maxStrDigits) ∧
        dumpable n event.details = true := by
  have hnull : ∀ f ∈ event.optionalFields, isNull f.2 = true → dumpable n f.2 = true := by
    intro f _ hf
    simp [eq_null_of_isNull hf, dumpable]
  rw [ActivityLogSnapshot.payload, dumpable, dumpableFields_eq_all, List.all_append,
    all_filter_isNull hnull, ← dumpable_numberColumn_iff n, ← dumpable_numberColumn_iff n]
  simp [ActivityLogSnapshot.optionalFields, dumpable_column, strDetails, dumpable]
  grind

/-- A message can be read back if its details can. -/
theorem readable_payload (event : ActivityLogSnapshot) (timestamp : Str) :
    readable (event.payload timestamp) = readable event.details := by
  have hkeys : ∀ f ∈ event.optionalFields, hasPair f.1 = false := by
    simp [ActivityLogSnapshot.optionalFields, hasPair_ofStr]
  have hnull : ∀ f ∈ event.optionalFields, isNull f.2 = true →
      (!hasPair f.1 && readable f.2) = true := by
    intro f hf hnull
    simp [eq_null_of_isNull hnull, hkeys f hf, readable]
  rw [ActivityLogSnapshot.payload, readable, readableFields_eq_all, List.all_append,
    all_filter_isNull hnull]
  simp [ActivityLogSnapshot.optionalFields, readable_column, readable_numberColumn, strDetails,
    readable, hasPair_ofStr]

/-! ## messages -/

/-- What stands before a separator is known from the text. -/
theorem field_inj {sep : Char} {s s' rest rest' : Str} (hs : sep ∉ s) (hs' : sep ∉ s')
    (h : s ++ sep :: rest = s' ++ sep :: rest') : s = s' ∧ rest = rest' := by
  induction s generalizing s' with
  | nil =>
      cases s' with
      | nil => exact ⟨rfl, (List.cons.inj h).2⟩
      | cons d s' =>
          obtain rfl := (List.cons.inj h).1
          simp at hs'
  | cons c s ih =>
      cases s' with
      | nil =>
          obtain rfl := (List.cons.inj h).1
          simp at hs
      | cons d s' =>
          obtain ⟨rfl, htail⟩ := List.cons.inj h
          obtain ⟨rfl, hrest⟩ := ih (fun hmem => hs (by simp [hmem]))
            (fun hmem => hs' (by simp [hmem])) htail
          exact ⟨rfl, hrest⟩

/-- A name has no blank. -/
theorem not_mem_of_isName {n : Nat} {s : Str} (h : IsName n s) : ' ' ∉ s := by
  intro hmem
  have hblank := (h.2.2 ' ' hmem).1
  revert hblank
  decide

/-- A text that is laid out like a message is one if its fields are. -/
theorem isMessage_iff {pri : Nat} {timestamp hostname msgid msg : Str} {value : Details}
    (hpri : pri ≤ 191) (htime : IsTimestamp timestamp) (hhost : ' ' ∉ hostname)
    (hid : ' ' ∉ msgid) :
    IsMessage (lit "<" ++ natStr pri ++ lit ">1 " ++ timestamp ++ lit " " ++ hostname ++ lit " " ++
        appName ++ lit " - " ++ msgid ++ lit " - " ++ msg) value ↔
      IsName 255 hostname ∧ IsName 32 msgid ∧ parseJson msg = some value := by
  have happ : IsName 32 appName := by
    unfold IsName
    decide
  constructor
  · intro h
    obtain ⟨pri', timestamp', hostname', app', procid', msgid', msg', -, htime', hhost', happ',
      hproc', hid', hmsg', heq⟩ := h
    have hgt : ∀ n, '>' ∉ natStr n := fun n => not_mem_natStr rfl
    have hdash : ' ' ∉ nilvalue := by decide
    have hlayout : ∀ (n : Nat) (t a b c d m : Str),
        lit "<" ++ natStr n ++ lit ">1 " ++ t ++ lit " " ++ a ++ lit " " ++ b ++ lit " " ++ c ++
          lit " " ++ d ++ lit " - " ++ m =
        '<' :: (natStr n ++ '>' :: '1' :: ' ' :: (t ++ ' ' :: (a ++ ' ' :: (b ++ ' ' ::
          (c ++ ' ' :: (d ++ ' ' :: '-' :: ' ' :: m)))))) := by
      intro n t a b c d m
      simp [lit]
    have hsame : lit "<" ++ natStr pri ++ lit ">1 " ++ timestamp ++ lit " " ++ hostname ++
        lit " " ++ appName ++ lit " - " ++ msgid ++ lit " - " ++ msg =
        lit "<" ++ natStr pri ++ lit ">1 " ++ timestamp ++ lit " " ++ hostname ++ lit " " ++
          appName ++ lit " " ++ nilvalue ++ lit " " ++ msgid ++ lit " - " ++ msg := by
      simp [nilvalue, lit]
    rw [hsame, hlayout, hlayout] at heq
    have hpri := (field_inj (hgt _) (hgt _) (List.cons.inj heq).2).2
    have htimes := (field_inj (not_mem_of_isTimestamp htime) (not_mem_of_isTimestamp htime')
      (List.cons.inj (List.cons.inj hpri).2).2).2
    obtain ⟨rfl, happs⟩ := field_inj hhost (not_mem_of_isName hhost') htimes
    have hprocs := (field_inj (not_mem_of_isName happ) (not_mem_of_isName happ') happs).2
    have hids := (field_inj hdash (not_mem_of_isName hproc') hprocs).2
    obtain ⟨rfl, hmsgs⟩ := field_inj hid (not_mem_of_isName hid') hids
    obtain rfl := (List.cons.inj (List.cons.inj hmsgs).2).2
    exact ⟨hhost', hid', hmsg'⟩
  · intro h
    refine ⟨pri, timestamp, hostname, appName, nilvalue, msgid, msg, hpri, htime, h.1, happ,
      isName_nilvalue (by omega), h.2.1, h.2.2, ?_⟩
    simp [nilvalue, lit]

/-- What is looked up in a table is bounded by it. -/
theorem lookupD_le {table : List (Str × Nat)} {most default : Nat} (h : ∀ p ∈ table, p.2 ≤ most)
    (hdefault : default ≤ most) (key : Str) : lookupD table key default ≤ most := by
  unfold lookupD
  cases hlookup : table.lookup key with
  | none => exact hdefault
  | some n =>
      induction table with
      | nil => contradiction
      | cons p table ih =>
          obtain ⟨k, v⟩ := p
          rw [List.lookup_cons] at hlookup
          split at hlookup
          · obtain rfl := Option.some.inj hlookup
            exact h (k, v) (by simp)
          · exact ih (fun q hq => h q (by simp [hq])) hlookup

/-- A priority is at most 191. -/
theorem priority_le (U : Ucd) (event : ActivityLogSnapshot) (config : SyslogConfig) :
    priority U event config ≤ 191 := by
  have hfacility := lookupD_le (by decide : ∀ p ∈ syslogFacility, p.2 ≤ 23)
    (by decide : 16 ≤ 23) (U.lower (orDefault config.facility (lit "local0")))
  have hseverity := lookupD_le (by decide : ∀ p ∈ syslogSeverity, p.2 ≤ 7)
    (by decide : 6 ≤ 7) (U.upper event.level)
  unfold priority
  omega

section Conform

variable {U : Ucd} {nesting : Nat} {now now' : Moment} {event : ActivityLogSnapshot}
  {config : SyslogConfig}

/-- The time stamp is there and is one of the grammar. -/
theorem timestampIso_ok (h : ∀ ts ∈ event.timestamp, ts.InRange) (t : Moment) :
    ∃ timestamp, event.timestampIso t = .ok timestamp ∧ IsTimestamp timestamp := by
  unfold ActivityLogSnapshot.timestampIso
  cases hts : event.timestamp with
  | none => exact ⟨_, rfl, isTimestamp_isoformat t⟩
  | some ts =>
      obtain ⟨utc, hutc⟩ := ts.toUtc_ok_iff.mpr (h ts hts)
      refine ⟨utc.isoformat, ?_, isTimestamp_isoformat utc⟩
      simp [hutc]

/-- A timestamp that is written is in range. -/
theorem inRange_of_timestampIso {t : Moment} {timestamp : Str}
    (h : event.timestampIso t = .ok timestamp) : ∀ ts ∈ event.timestamp, ts.InRange := by
  intro ts hts
  rw [Option.mem_def] at hts
  simp only [ActivityLogSnapshot.timestampIso, hts] at h
  obtain ⟨utc, hutc, -⟩ := map_eq_ok_iff.mp h
  exact ts.toUtc_ok_iff.mp ⟨utc, hutc⟩

/-- The characters of the message when the time stamps are the given ones. -/
theorem map_message (timestamp timestamp' : Str) (htime : IsTimestamp timestamp') :
    (header U event config timestamp' ++ compact jsonFloat (event.payload timestamp)).map
        asciiChar =
      lit "<" ++ natStr (priority U event config) ++ lit ">1 " ++ timestamp' ++ lit " " ++
        (sanitizeHostname (some config.hostname)).map asciiChar ++ lit " " ++ appName ++
        lit " - " ++ sanitizeMsgId event.eventType ++ lit " - " ++
        compact (fun text => (jsonFloat text).map asciiChar) (event.payload timestamp) := by
  have hascii : KeepsAscii asciiChar := fun c hc => if_pos hc
  have hlit : ∀ {s : Str}, s.all isAscii = true → s.map asciiChar = s := fun h =>
    map_of_isAscii hascii (List.all_eq_true.mp h)
  have hpri : (natStr (priority U event config)).map asciiChar =
      natStr (priority U event config) :=
    map_of_isAscii hascii fun c hc => isAscii_of_isDigit (mem_natStr hc)
  have htimes : timestamp'.map asciiChar = timestamp' :=
    map_of_isAscii hascii (isAscii_of_mem_timestamp htime)
  have hid : (sanitizeMsgId event.eventType).map asciiChar = sanitizeMsgId event.eventType := by
    refine map_of_isAscii hascii fun c hc => ?_
    have hname := mem_sanitizeMsgId hc
    simp only [isNameChar, Bool.and_eq_true] at hname
    exact hname.1
  have hless : (lit "<").map asciiChar = lit "<" := hlit rfl
  have hgreater : (lit ">1 ").map asciiChar = lit ">1 " := hlit rfl
  have hblank : (lit " ").map asciiChar = lit " " := hlit rfl
  have hnil : (lit " - ").map asciiChar = lit " - " := hlit rfl
  have happ : appName.map asciiChar = appName := hlit rfl
  simp only [header, List.map_append, map_compact hascii, hpri, htimes, hid, hless, hgreater,
    hblank, hnil, happ]

/-- The ASCII characters of floats stay. -/
theorem keepsFloats_asciiChar : KeepsFloats fun text => (jsonFloat text).map asciiChar := by
  intro text h
  have hascii : KeepsAscii asciiChar := fun c hc => if_pos hc
  have hchars : ∀ c, isNumberChar c = true → isAscii c = true := by
    intro c hc
    simp only [isNumberChar, Bool.or_eq_true, decide_eq_true_eq] at hc
    obtain ((((hc | rfl) | rfl) | rfl) | rfl) | rfl := hc
    · exact isAscii_of_isDigit hc
    all_goals rfl
  show (jsonFloat text).map asciiChar = text
  rw [jsonFloat_eq_self h]
  exact map_of_isAscii hascii fun c hc => hchars c ((isFloatToken_chars h).2.1 c hc)

/-- A host name has no blank. -/
theorem not_mem_hostname (config : SyslogConfig) :
    ' ' ∉ (sanitizeHostname (some config.hostname)).map asciiChar := by
  intro hmem
  obtain ⟨c, hc, heq⟩ := List.mem_map.mp hmem
  unfold asciiChar at heq
  split at heq
  · exact (cleaned_sanitizeHostname _).2 c hc |>.1 heq
  · contradiction

/-- A message is written when the time stamps, the numbers and the depth of the
details allow it. -/
theorem encodeRfc5424_eq_ok_iff {bytes : Bytes} :
    encodeRfc5424 U nesting now now' event config = .ok bytes ↔
      ∃ timestamp timestamp', event.timestampIso now = .ok timestamp ∧
        event.timestampIso now' = .ok timestamp' ∧
        dumpable (nesting + 1) (event.payload timestamp) = true ∧
        bytes = Utf8.encode ((header U event config timestamp' ++
          compact jsonFloat (event.payload timestamp)).map asciiChar) := by
  have hofStr : ∀ s t : Str, Text.ofStr s ++ Text.ofStr t = Text.ofStr (s ++ t) := by
    simp [Text.ofStr]
  simp only [encodeRfc5424, ActivityLogSnapshot.asDict, bind_eq_ok_iff, map_eq_ok_iff,
    write_compact_iff, Except.ok.injEq]
  constructor
  · intro h
    obtain ⟨_, ⟨timestamp, hts, rfl⟩, _, ⟨hdump, rfl⟩, timestamp', hts', rfl⟩ := h
    refine ⟨timestamp, timestamp', hts, hts', hdump, ?_⟩
    rw [hofStr, encodeAscii_ofStr]
  · intro h
    obtain ⟨timestamp, timestamp', hts, hts', hdump, rfl⟩ := h
    refine ⟨_, ⟨timestamp, hts, rfl⟩, _, ⟨hdump, rfl⟩, timestamp', hts', ?_⟩
    rw [hofStr, encodeAscii_ofStr]

/-- A cleaned host name and an event make a message of the grammar exactly if
they fit into one. -/
theorem conforms_iff (h : Cleaned config.hostname) :
    Conforms U nesting now now' event config ↔ Fits nesting event config := by
  have hmessage : ∀ {timestamp timestamp' : Str}, IsTimestamp timestamp' →
      (IsMessage ((header U event config timestamp' ++
          compact jsonFloat (event.payload timestamp)).map asciiChar)
        (asJson (event.payload timestamp)) ↔
        (∀ c ∈ strip config.hostname, 33 ≤ c.toNat ∧ c.toNat ≠ 127) ∧
          nameLength (strip event.eventType) ≤ 32 ∧ readable event.details = true) := by
    intro timestamp timestamp' htime
    have hid : ' ' ∉ sanitizeMsgId event.eventType := fun hmem => by
      have hname := mem_sanitizeMsgId hmem
      contradiction
    rw [map_message _ _ htime, isMessage_iff (priority_le U event config) htime
      (not_mem_hostname config) hid, isName_hostname_iff h, isName_sanitizeMsgId_iff,
      parseJson_compact_iff keepsFloats_asciiChar, readable_payload]
  constructor
  · intro hconf
    obtain ⟨bytes, dict, text, hok, hdict, hbytes, hmsg⟩ := hconf
    obtain ⟨timestamp, timestamp', hts, hts', hdump, heq⟩ := encodeRfc5424_eq_ok_iff.mp hok
    have hrange := inRange_of_timestampIso hts
    obtain ⟨t, ht, htime⟩ := timestampIso_ok hrange now'
    obtain rfl := Except.ok.inj (hts'.symm.trans ht)
    obtain ⟨_, hts'', rfl⟩ := map_eq_ok_iff.mp hdict
    obtain rfl := Except.ok.inj (hts.symm.trans hts'')
    have htext : text = (header U event config timestamp' ++
        compact jsonFloat (event.payload timestamp)).map asciiChar := by
      have hdecode := congrArg Utf8.decode (hbytes.symm.trans heq)
      rwa [Utf8.decode_encode, Utf8.decode_encode] at hdecode
    rw [htext] at hmsg
    obtain ⟨hhost, hid, hread⟩ := (hmessage htime).mp hmsg
    obtain ⟨hnum, hcode, hdepth⟩ := (dumpable_payload_iff nesting event timestamp).mp hdump
    exact ⟨hrange, hhost, hid, hnum, hcode, hdepth, hread⟩
  · intro hfits
    obtain ⟨timestamp, hts, -⟩ := timestampIso_ok hfits.timestamp now
    obtain ⟨timestamp', hts', htime⟩ := timestampIso_ok hfits.timestamp now'
    have hdump := (dumpable_payload_iff nesting event timestamp).mpr
      ⟨hfits.id, hfits.statusCode, hfits.details.1⟩
    refine ⟨_, event.payload timestamp, _, encodeRfc5424_eq_ok_iff.mpr
      ⟨timestamp, timestamp', hts, hts', hdump, rfl⟩, ?_, rfl, ?_⟩
    · exact map_eq_ok_iff.mpr ⟨timestamp, hts, rfl⟩
    · exact (hmessage htime).mpr ⟨hfits.hostname, hfits.msgId, hfits.details.2⟩

end Conform

/-- What is validated has a cleaned host name. -/
theorem cleaned_of_validateSyslogConfig {U : Ucd} {form : SyslogForm} {config : SyslogConfig}
    (h : validateSyslogConfig U form = .ok config) : Cleaned config.hostname := by
  unfold validateSyslogConfig at h
  dsimp only at h
  split at h
  · contradiction
  · split at h
    · contradiction
    · split at h
      · contradiction
      · obtain ⟨port, -, h⟩ := bind_eq_ok_iff.mp h
        obtain ⟨-, -, h⟩ := bind_eq_ok_iff.mp h
        obtain ⟨queueSize, -, h⟩ := bind_eq_ok_iff.mp h
        split at h
        · contradiction
        · split at h
          · contradiction
          · obtain rfl := Except.ok.inj h
            exact cleaned_sanitizeHostname form.hostname

/-- With a validated configuration the message of an event is one of RFC 5424,
and says in JSON what the event is, exactly if the event and the host name fit
into one. -/
theorem syslog_message_conforms_iff {U : Ucd} {form : SyslogForm} {config : SyslogConfig}
    (h : validateSyslogConfig U form = .ok config) (nesting : Nat) (now now' : Moment)
    (event : ActivityLogSnapshot) :
    Conforms U nesting now now' event config ↔ Fits nesting event config :=
  conforms_iff (cleaned_of_validateSyslogConfig h)

/-- A form as an administrator fills it in. -/
def exampleForm : SyslogForm where
  enabled := true
  host := lit "siem.example"
  port := .str (lit "6514")
  protocol := lit "tls"
  facility := lit "local0"
  minimumLevel := lit "INFORMATIONAL"
  timeout := some (.finite 5)
  queueSize := .int 1000
  allowInsecurePlaintext := false
  hostname := some (lit "api-to-dns.example")

def exampleConfig : SyslogConfig where
  enabled := true
  host := lit "siem.example"
  port := 6514
  protocol := .tls
  facility := lit "local0"
  minimumLevel := lit "INFORMATIONAL"
  queueSize := 1000
  hostname := lit "api-to-dns.example"
  generation := 0

/-- Midnight of the year 2026. -/
def exampleMoment : Moment := ⟨⟨2026, 1, 1, by decide⟩, 0, by decide⟩

/-- An event of the browser for a record. -/
def browserEvent (eventType : Str) : ActivityLogSnapshot where
  timestamp := some ⟨exampleMoment, none, by decide⟩
  level := lit "INFORMATIONAL"
  category := none
  eventType := eventType
  status := none
  actorType := none
  actorId := none
  actorLabel := none
  zoneName := some (lit "example.com")
  recordName := some (lit "www")
  message := some (lit "Record already exists.")
  details := .null
  requestMethod := none
  requestPath := none
  requestStatusCode := none
  requestIp := none
  id := some 1

/-- The form of the example is valid. -/
theorem validate_exampleForm : validateSyslogConfig .ascii exampleForm = .ok exampleConfig := by
  rfl

theorem syslog_message_conforms_lookup :
    validateSyslogConfig .ascii exampleForm = .ok exampleConfig ∧
      Conforms .ascii 10 exampleMoment exampleMoment (browserEvent (lit "dns.browser_lookup"))
        exampleConfig := by
  refine ⟨validate_exampleForm, ?_⟩
  rw [syslog_message_conforms_iff validate_exampleForm]
  refine ⟨?_, by decide, by decide, ?_, by simp [browserEvent], by decide⟩
  · intro ts hts
    obtain rfl := Option.some.inj hts
    simp [Datetime.InRange]
  · intro i hi
    obtain rfl := Option.some.inj hi
    exact Nat.one_lt_pow (by decide) (by decide)

/-- A record that is there already is reported under a message id of 33
characters. -/
theorem not_conforms_already_exists :
    validateSyslogConfig .ascii exampleForm = .ok exampleConfig ∧
      ¬Conforms .ascii 10 exampleMoment exampleMoment
        (browserEvent (lit "dns.browser_record_already_exists")) exampleConfig := by
  refine ⟨validate_exampleForm, ?_⟩
  rw [conforms_iff (cleaned_of_validateSyslogConfig validate_exampleForm)]
  intro hfits
  have hlen := hfits.msgId
  revert hlen
  decide

end ApiToDns.SyslogMessages
