import ApiToDns.Alerting
import ApiToDns.Lib.Outline

/-!
# Cooldown

Events that are held against the alert rules at the same time
(`evaluate_alert_rules`, called by `emit_activity_event` in the session of each
event).  A rule is read, the mail is sent and the rule is stamped in steps of their
own, and the clock goes on between them.  The entries of the activity log are left
out.

* `evaluateAlertRulesOp` — the code, as a program over its operations;
* `Spaced` — the mails of a rule are a cooldown apart;
* `Undisturbed` — the steps of a rule under which they are;
* `mails_spaced` — in every run of such steps, whatever happens to other rules.
-/

namespace ApiToDns.Alerting

open Py FormatMap

/-! ## the code -/

/-- What an evaluation does outside of its own variables. -/
inductive AlertOp where
  /-- the rules that are enabled -/
  | select
  /-- `get_app_dns_name`, for `system_identity` -/
  | appDnsName
  /-- `get_smtp_config` -/
  | smtpConfig
  /-- a row that a commit of the session has expired is read again -/
  | refresh (id : Nat)
  /-- `utc_now` -/
  | now
  /-- the dialogue with a server, for the mail of a rule as it was read -/
  | deliver (id : Nat) (rule : AlertRule) (server : Str) (message : EmailMessage)
  /-- `rule.last_triggered_at`, and the commit -/
  | stamp (id : Nat) (moment : Datetime)

abbrev AlertOp.Answer : AlertOp → Type
  | select => List (Row AlertRule)
  | appDnsName => Except Exc Text
  | smtpConfig => Except Exc SmtpConfig
  | refresh _ => Option AlertRule
  | now => Int
  | deliver .. => Except Str Unit
  | stamp .. => Unit

abbrev alertSig : Sig := ⟨AlertOp, AlertOp.Answer⟩

/-- A clock whose times can be stored and read. -/
structure Clock (H : AlertHost) where
  datetime : Int → Datetime
  instant_datetime : ∀ t, H.instant (datetime t) = t

section Code

variable (H : AlertHost) (C : Clock H) (event : ActivityLog)

/-- `tryServers`, one dialogue after the other. -/
def deliverMail (id : Nat) (rule : AlertRule) (message : EmailMessage) :
    List Str → Prog alertSig Bool
  | [] => .ret false
  | server :: servers =>
      .call (.deliver id rule server message) fun
        | .ok () => .ret true
        | .error _ => deliverMail id rule message servers

/-- The mail of a rule, with the configuration that has been read: the message is
put together first. -/
def mailOf (config : SmtpConfig) (id : Nat) (rule : AlertRule) (subject body : Text) :
    Except Exc (Prog alertSig Bool) :=
  let recipients := parseCsv rule.emailRecipients
  match notConfigured H config recipients with
  | some _ => .ok (.ret false)
  | none => do
      let message ← buildMessage H config recipients subject body
      .ok (deliverMail id rule message config.servers)

/-- The mail of a rule, its stamp, and what follows; what the configuration or the
message raises ends the evaluation. -/
def sendOp (id : Nat) (rule : AlertRule) (subject body : Text) (rest : Prog alertSig Unit) :
    Prog alertSig Unit :=
  .call .smtpConfig fun answer =>
    match answer.bind fun config => mailOf H config id rule subject body with
    | .error _ => .ret ()
    | .ok mail =>
        mail >>= fun _ => .call .now fun now => .call (.stamp id (C.datetime now)) fun _ => rest

/-- A rule that is out of its cooldown: its texts are rendered first. -/
def attemptOp (values : List (Str × Text)) (id : Nat) (rule : AlertRule)
    (rest : Prog alertSig Unit) : Prog alertSig Unit :=
  match renderAlertTemplate H (subjectTemplate rule) values with
  | .error _ => .ret ()
  | .ok subject =>
      match renderAlertTemplate H (bodyTemplate rule) values with
      | .error _ => .ret ()
      | .ok body => sendOp H C id rule subject body rest

/-- A rule that matches the event: the clock is read to see if it is in its
cooldown. -/
def checkOp (values : List (Str × Text)) (id : Nat) (rule : AlertRule) (skip rest : Prog alertSig Unit) :
    Prog alertSig Unit :=
  .call .now fun now =>
    match inCooldown H now rule with
    | .error _ => .ret ()
    | .ok true => skip
    | .ok false => attemptOp H C values id rule rest

/-- The rule is let through by its filters, or skipped. -/
def ruleOp (values : List (Str × Text)) (id : Nat) (rule : AlertRule)
    (skip rest : Prog alertSig Unit) : Prog alertSig Unit :=
  if matchesEvent H event rule then checkOp H C values id rule skip rest else skip

/-- The loop.  After the first commit of the session each row is read again. -/
def evaluateRowsOp (values : List (Str × Text)) :
    Bool → List (Row AlertRule) → Prog alertSig Unit
  | _, [] => .ret ()
  | false, row :: rows =>
      ruleOp H C event values row.id row.val (evaluateRowsOp values false rows)
        (evaluateRowsOp values true rows)
  | true, row :: rows =>
      .call (.refresh row.id) fun
        | none => .ret ()
        | some rule =>
            ruleOp H C event values row.id rule (evaluateRowsOp values true rows)
              (evaluateRowsOp values true rows)

/-- What follows the selection of the rules; what it raises ends it. -/
def evaluateSelectedOp (rows : List (Row AlertRule)) : Prog alertSig Unit :=
  if rows = [] then .ret ()
  else
    .call .appDnsName fun answer =>
      match baseValues H answer event with
      | .error _ => .ret ()
      | .ok values => evaluateRowsOp H C event values false rows

/-- `evaluate_alert_rules`. -/
def evaluateAlertRulesOp : Prog alertSig Unit := .call .select (evaluateSelectedOp H C event)

end Code

/-! ## the rules, the clock and the mails -/

/-- A mail that a server took: who sent it, for which rule, and when the dialogue
began. -/
structure Mail (ι : Type) where
  sender : ι
  rule : Nat
  start : Int
deriving DecidableEq

/-- The rules, the clock in microseconds, the mails, the latest first, and those
whose rule has not been stamped since. -/
structure AlertState (ι : Type) where
  clock : Int
  rules : Table AlertRule
  mails : List (Mail ι)
  pending : List (Mail ι)

/-- The time that passes before an operation, what the settings say, and how the
dialogue with a server ends; one that ends in an exception may have handed the mail
over. -/
structure Tick where
  elapsed : Nat
  dnsName : Except Exc Text
  config : Except Exc SmtpConfig
  delivered : Except Str Unit
  taken : Bool

/-- The server has taken the mail. -/
def Tick.takes (x : Tick) : Bool :=
  match x.delivered with
  | .ok () => true
  | .error _ => x.taken

/-- The rule is stamped. -/
def stampRule (rules : Table AlertRule) (id : Nat) (moment : Datetime) : Table AlertRule :=
  rules.update
    (fun row => if row.id = id then { row.val with lastTriggeredAt := some moment } else row.val)
    fun row => by split <;> rfl

namespace AlertState

variable {ι : Type} (s : AlertState ι)

def wait (elapsed : Nat) : AlertState ι := { s with clock := s.clock + elapsed }

/-- A server has taken the mail of the rule. -/
def send (i : ι) (id : Nat) : AlertState ι :=
  { s with
    mails := ⟨i, id, s.clock⟩ :: s.mails
    pending := ⟨i, id, s.clock⟩ :: s.pending }

/-- The rule is stamped for the mails that this sender has sent. -/
def stamp [DecidableEq ι] (i : ι) (id : Nat) (moment : Datetime) : AlertState ι :=
  { s with
    rules := stampRule s.rules id moment
    pending := s.pending.filter fun mail => ¬(mail.sender = i ∧ mail.rule = id) }

end AlertState

section

variable (ι : Type) [DecidableEq ι]

/-- The operations, after the time that passes. -/
def alertEnv : Env alertSig ι Tick (AlertState ι) where
  ready _ _ _ := true
  reply i x o s :=
    let s := s.wait x.elapsed
    match o with
    | .select => (s.rules.rows.filter fun row => row.val.enabled, s)
    | .appDnsName => (x.dnsName, s)
    | .smtpConfig => (x.config, s)
    | .refresh id => ((s.rules.get? id).map Row.val, s)
    | .now => (s.clock, s)
    | .deliver id _ _ _ => (x.delivered, if x.takes then s.send i id else s)
    | .stamp id moment => ((), s.stamp i id moment)

end

section

variable {ι : Type} (H : AlertHost)

/-- The mails of a rule are sent at least its cooldown apart. -/
def Spaced (id : Nat) (s : AlertState ι) : Prop :=
  s.mails.Pairwise fun later earlier => later.rule = id → earlier.rule = id →
    ∀ row ∈ s.rules.get? id, 0 < row.val.cooldownMinutes →
      row.val.cooldownMinutes * 60000000 ≤ later.start - earlier.start

/-- An operation for the rule is not disturbed: a server takes a mail of it only if
the rule is as it was read and no mail of it waits for its stamp, and a stamp takes
no later one back. -/
def Undisturbed (id : Nat) : Cond alertSig ι Tick (AlertState ι) := fun _ x o s =>
  match o with
  | .deliver rule read _ _ =>
      rule = id → x.takes = true →
        s.rules.get? id = some ⟨id, read⟩ ∧ ∀ mail ∈ s.pending, mail.rule ≠ id
  | .stamp rule moment =>
      rule = id → ∀ row ∈ s.rules.get? id,
        ∀ last ∈ row.val.lastTriggeredAt, H.instant last ≤ H.instant moment
  | _ => True

/-- Every mail of the rule waits for its stamp, or the rule has one that is not
earlier. -/
structure Sound (id : Nat) (s : AlertState ι) : Prop where
  started : ∀ mail ∈ s.pending, mail.start ≤ s.clock
  stored : ∀ mail ∈ s.pending, mail.rule = id → ∃ row, s.rules.get? id = some row
  settled : ∀ mail ∈ s.mails, mail.rule = id → mail ∈ s.pending ∨
    ∃ row last, s.rules.get? id = some row ∧ row.val.lastTriggeredAt = some last ∧
      mail.start ≤ H.instant last
  spaced : Spaced id s

variable {H} {s : AlertState ι} {i : ι} {id : Nat}

/-- The rules after a stamp. -/
theorem get?_stampRule {rules : Table AlertRule} {id n : Nat} {moment : Datetime} :
    (stampRule rules id moment).get? n = (rules.get? n).map fun row =>
      ⟨row.id, if row.id = id then { row.val with lastTriggeredAt := some moment } else row.val⟩ :=
  Table.get?_update

/-- Waiting keeps the log sound. -/
theorem Sound.wait (h : Sound H id s) (elapsed : Nat) : Sound H id (s.wait elapsed) where
  started mail hmail := by
    have hstart := h.started mail hmail
    dsimp only [AlertState.wait]
    omega
  stored := h.stored
  settled := h.settled
  spaced := h.spaced

/-- A mail of another rule. -/
theorem Sound.send_other (h : Sound H id s) {rule : Nat} (hne : rule ≠ id) :
    Sound H id (s.send i rule) where
  started mail hmail := by
    rcases List.mem_cons.mp hmail with hnew | hold
    · simp [hnew, AlertState.send]
    · exact h.started mail hold
  stored mail hmail hrule := by
    rcases List.mem_cons.mp hmail with hnew | hold
    · rw [hnew] at hrule
      exact absurd hrule hne
    · exact h.stored mail hold hrule
  settled mail hmail hrule := by
    rcases List.mem_cons.mp hmail with hnew | hold
    · rw [hnew] at hrule
      exact absurd hrule hne
    · exact (h.settled mail hold hrule).imp_left fun hmem => List.mem_cons_of_mem _ hmem
  spaced := List.pairwise_cons.mpr ⟨fun _ _ hlater => absurd hlater hne, h.spaced⟩

/-- A mail of the rule as it was read, when none of it waits for its stamp. -/
theorem Sound.send (h : Sound H id s) {rule : AlertRule} {now : Int}
    (hrule : s.rules.get? id = some ⟨id, rule⟩) (hpending : ∀ mail ∈ s.pending, mail.rule ≠ id)
    (hnow : now ≤ s.clock) (hout : OutOfCooldown H now rule) : Sound H id (s.send i id) where
  started mail hmail := by
    rcases List.mem_cons.mp hmail with hnew | hold
    · simp [hnew, AlertState.send]
    · exact h.started mail hold
  stored _ _ _ := ⟨_, hrule⟩
  settled mail hmail hid := by
    rcases List.mem_cons.mp hmail with hnew | hold
    · simp [hnew, AlertState.send]
    · exact (h.settled mail hold hid).imp_left fun hmem => List.mem_cons_of_mem _ hmem
  spaced := by
    refine List.pairwise_cons.mpr
      ⟨fun earlier hearlier _ hsame row hrow hcooldown => ?_, h.spaced⟩
    rcases h.settled earlier hearlier hsame with hwaits | hsettled
    · exact absurd hsame (hpending earlier hwaits)
    · obtain ⟨row', last, hrow', hlast, hstart⟩ := hsettled
      rw [hrule] at hrow'
      rw [AlertState.send, hrule] at hrow
      rw [← Option.some.inj hrow'] at hlast
      rw [← Option.some.inj hrow] at hcooldown ⊢
      rcases hout last hlast with hzero | hafter
      · dsimp only at hcooldown
        omega
      · dsimp only at hcooldown ⊢
        omega

/-- A stamped rule has the stamp, and what it had. -/
theorem get?_stamped {rules : Table AlertRule} {id n : Nat} {moment : Datetime} {row : Row AlertRule}
    (h : (stampRule rules id moment).get? n = some row) :
    ∃ old, rules.get? n = some old ∧ row.val.cooldownMinutes = old.val.cooldownMinutes := by
  rw [get?_stampRule, Option.map_eq_some_iff] at h
  obtain ⟨old, hold, heq⟩ := h
  refine ⟨old, hold, ?_⟩
  rw [← heq]
  dsimp only
  split <;> rfl

/-- A stamp that is not earlier than the mails it stands for, and takes no later
one of the rule back. -/
theorem Sound.stamp [DecidableEq ι] (h : Sound H id s) {rule : Nat} {moment : Datetime}
    (hown : ∀ mail ∈ s.pending, mail.sender = i → mail.start ≤ H.instant moment)
    (hlater : rule = id → ∀ row ∈ s.rules.get? id,
      ∀ last ∈ row.val.lastTriggeredAt, H.instant last ≤ H.instant moment) :
    Sound H id (s.stamp i rule moment) where
  started mail hmail := h.started mail (List.mem_of_mem_filter hmail)
  stored mail hmail hid := by
    obtain ⟨row, hrow⟩ := h.stored mail (List.mem_of_mem_filter hmail) hid
    rw [AlertState.stamp, get?_stampRule, hrow]
    exact ⟨_, rfl⟩
  settled mail hmail hid := by
    rcases h.settled mail hmail hid with hwaits | hsettled
    · by_cases hdone : mail.sender = i ∧ mail.rule = rule
      · obtain ⟨row, hrow⟩ := h.stored mail hwaits hid
        have hrowid : row.id = rule :=
          (Table.get?_eq_some_iff.mp hrow).2.trans (hid.symm.trans hdone.2)
        refine .inr ⟨⟨row.id, { row.val with lastTriggeredAt := some moment }⟩, moment, ?_, rfl,
          hown mail hwaits hdone.1⟩
        rw [AlertState.stamp, get?_stampRule, hrow]
        simp [hrowid]
      · exact .inl (List.mem_filter.mpr ⟨hwaits, decide_eq_true hdone⟩)
    · obtain ⟨row, last, hrow, hlast, hstart⟩ := hsettled
      by_cases hrowid : row.id = rule
      · have hrule : rule = id := hrowid.symm.trans (Table.get?_eq_some_iff.mp hrow).2
        refine .inr ⟨⟨row.id, { row.val with lastTriggeredAt := some moment }⟩, moment, ?_, rfl,
          Int.le_trans hstart (hlater hrule row hrow last hlast)⟩
        rw [AlertState.stamp, get?_stampRule, hrow]
        simp [hrowid]
      · refine .inr ⟨row, last, ?_, hlast, hstart⟩
        rw [AlertState.stamp, get?_stampRule, hrow]
        simp [hrowid]
  spaced := by
    refine h.spaced.imp fun hspaced hlater hearlier row hrow hcooldown => ?_
    obtain ⟨old, hold, hminutes⟩ := get?_stamped hrow
    rw [hminutes] at hcooldown ⊢
    exact hspaced hlater hearlier old hold hcooldown

end

/-! ## one event among others -/

section

variable (ι : Type) [DecidableEq ι] (H : AlertHost) (id : Nat)

/-- An event keeps the mails of the others waiting for their stamps. -/
def alertTerms : Terms alertSig ι Tick (AlertState ι) where
  env := alertEnv ι
  cond := Undisturbed H id
  inv := Sound H id
  rely i s s' := s.clock ≤ s'.clock ∧ ∀ mail ∈ s'.pending, mail.sender = i → mail ∈ s.pending

end

section

variable {ι : Type} [DecidableEq ι] {H : AlertHost} {watched : Nat} {i : ι}

/-- No mail of the event waits for its stamp. -/
def Idle (i : ι) (s : AlertState ι) : Prop := ∀ mail ∈ s.pending, mail.sender ≠ i

/-- No mail of the event waits, and the clock has been read. -/
def Checked (i : ι) (now : Int) (s : AlertState ι) : Prop := Idle i s ∧ now ≤ s.clock

/-- The mails of the event that wait are for the rule. -/
def Mailing (i : ι) (id : Nat) (s : AlertState ι) : Prop :=
  ∀ mail ∈ s.pending, mail.sender = i → mail.rule = id

/-- They are, and the clock has been read. -/
def Trying (i : ι) (id : Nat) (now : Int) (s : AlertState ι) : Prop :=
  Mailing i id s ∧ now ≤ s.clock

/-- They are, and were sent before the clock was read. -/
def Stamping (i : ι) (id : Nat) (now : Int) (s : AlertState ι) : Prop :=
  ∀ mail ∈ s.pending, mail.sender = i → mail.rule = id ∧ mail.start ≤ now

/-- No other event makes a mail of this one wait. -/
theorem stable_idle : (alertTerms ι H watched).Stable i (Idle i) := by
  intro s s' _ _ hrely hidle mail hmail hsender
  exact hidle mail (hrely.2 mail hmail hsender) hsender

/-- None does after the clock has been read. -/
theorem stable_checked {now : Int} : (alertTerms ι H watched).Stable i (Checked i now) := by
  intro s s' hs hs' hrely hchecked
  exact ⟨stable_idle s s' hs hs' hrely hchecked.1, Int.le_trans hchecked.2 hrely.1⟩

/-- The others keep the mails that wait for the rule. -/
theorem stable_mailing {id : Nat} : (alertTerms ι H watched).Stable i (Mailing i id) := by
  intro s s' _ _ hrely hmailing mail hmail hsender
  exact hmailing mail (hrely.2 mail hmail hsender) hsender

/-- So they do after the clock has been read. -/
theorem stable_trying {id : Nat} {now : Int} :
    (alertTerms ι H watched).Stable i (Trying i id now) := by
  intro s s' hs hs' hrely htrying
  exact ⟨stable_mailing s s' hs hs' hrely htrying.1, Int.le_trans htrying.2 hrely.1⟩

/-- So they do before the stamp. -/
theorem stable_stamping {id : Nat} {now : Int} :
    (alertTerms ι H watched).Stable i (Stamping i id now) := by
  intro s s' _ _ hrely hstamping mail hmail hsender
  exact hstamping mail (hrely.2 mail hmail hsender) hsender

omit [DecidableEq ι] in

/-- With no mail that waits, those that wait are for any rule. -/
theorem Idle.mailing {s : AlertState ι} (h : Idle i s) (id : Nat) : Mailing i id s :=
  fun mail hmail hsender => absurd hsender (h mail hmail)

/-- What an evaluation says when nothing is asked of its end. -/
abbrev AlertOutline (H : AlertHost) (watched : Nat) (i : ι) (p : Prog alertSig Unit)
    (K : AlertState ι → Prop) : Prop :=
  (alertTerms ι H watched).Outline i (fun _ => True) (fun _ _ => True) p K

/-- An operation that only reads, and the time that passes before it. -/
theorem outline_read {α : Type} {post : α → AlertState ι → Prop} {o : AlertOp}
    {k : o.Answer → Prog alertSig α} {K : AlertState ι → Prop}
    (hread : ∀ x s, ((alertEnv ι).reply i x o s).2 = s.wait x.elapsed)
    (hnext : ∀ x s, Sound H watched (s.wait x.elapsed) → K s →
      ∃ K', (alertTerms ι H watched).Stable i K' ∧ K' (s.wait x.elapsed) ∧
        (alertTerms ι H watched).Outline i (fun _ => True) post
          (k ((alertEnv ι).reply i x o s).1) K') :
    (alertTerms ι H watched).Outline i (fun _ => True) post (.call o k) K := by
  refine ⟨fun _ _ _ => trivial, fun x s hs hk _ _ => ?_⟩
  dsimp only [alertTerms]
  rw [hread]
  have hwait : s.clock ≤ (s.wait x.elapsed).clock := by
    dsimp only [AlertState.wait]
    omega
  exact ⟨hs.wait _, fun j _ => ⟨hwait, fun mail hmail _ => hmail⟩, hnext x s (hs.wait _) hk⟩

omit [DecidableEq ι] in
/-- A mail that a server takes for a rule out of its cooldown; if it is of the
watched rule, none of it waits for a stamp. -/
theorem Sound.deliver {s : AlertState ι} (h : Sound H watched s) {id : Nat} {rule : AlertRule}
    {now : Int} (hout : OutOfCooldown H now rule) (hnow : now ≤ s.clock)
    (hwatched : id = watched →
      s.rules.get? watched = some ⟨watched, rule⟩ ∧ ∀ mail ∈ s.pending, mail.rule ≠ watched) :
    Sound H watched (s.send i id) := by
  by_cases hid : id = watched
  · obtain ⟨hrule, hpending⟩ := hwatched hid
    rw [hid]
    exact h.send hrule hpending hnow hout
  · exact h.send_other hid

/-- Servers are tried for a rule out of its cooldown; each of them may take the
mail, whatever it says. -/
theorem outline_deliverMail {id : Nat} {rule : AlertRule} {message : EmailMessage} {now : Int}
    (hout : OutOfCooldown H now rule) (servers : List Str) :
    (alertTerms ι H watched).Outline i (fun _ => True) (fun _ => Mailing i id)
      (deliverMail id rule message servers) (Trying i id now) := by
  induction servers with
  | nil => exact fun s _ htrying => htrying.1
  | cons server servers ih =>
      refine ⟨fun _ _ _ => trivial, fun x s hs htrying _ hcond => ?_⟩
      have hwait : s.clock ≤ (s.wait x.elapsed).clock := by
        dsimp only [AlertState.wait]
        omega
      have hnow : now ≤ (s.wait x.elapsed).clock := Int.le_trans htrying.2 hwait
      dsimp only [alertTerms, alertEnv]
      cases htakes : x.takes with
      | false =>
          -- the dialogue has raised, and the next server is asked
          obtain ⟨text, herror⟩ : ∃ text, x.delivered = .error text := by
            unfold Tick.takes at htakes
            cases hdelivered : x.delivered with
            | ok u => simp [hdelivered] at htakes
            | error text => exact ⟨text, rfl⟩
          rw [herror]
          exact ⟨hs.wait _, fun j _ => ⟨hwait, fun mail hmail _ => hmail⟩, Trying i id now,
            stable_trying, ⟨htrying.1, hnow⟩, ih⟩
      | true =>
          have hsent : Sound H watched ((s.wait x.elapsed).send i id) :=
            (hs.wait _).deliver hout hnow fun hid => hcond hid htakes
          have hothers : ∀ j, j ≠ i → ∀ mail ∈ ((s.wait x.elapsed).send i id).pending,
              mail.sender = j → mail ∈ s.pending := by
            intro j hj mail hmail hsender
            rcases List.mem_cons.mp hmail with hnew | hold
            · rw [hnew] at hsender
              exact absurd hsender.symm hj
            · exact hold
          have htrying' : Trying i id now ((s.wait x.elapsed).send i id) := by
            refine ⟨fun mail hmail hsender => ?_, hnow⟩
            rcases List.mem_cons.mp hmail with hnew | hold
            · rw [hnew]
            · exact htrying.1 mail hold hsender
          refine ⟨hsent, fun j hj => ⟨hwait, hothers j hj⟩, Trying i id now, stable_trying, htrying', ?_⟩
          cases x.delivered with
          | ok u => exact fun _ _ h => h.1
          | error text => exact ih

variable {C : Clock H} {event : ActivityLog} {values : List (Str × Text)} {id : Nat}
  {rule : AlertRule} {skip rest : Prog alertSig Unit}

/-- The message is put together before any server is asked. -/
theorem outline_mailOf {config : SmtpConfig} {subject body : Text} {now : Int}
    {mail : Prog alertSig Bool} (hout : OutOfCooldown H now rule)
    (h : mailOf H config id rule subject body = .ok mail) :
    (alertTerms ι H watched).Outline i (fun _ => True) (fun _ => Mailing i id) mail
      (Trying i id now) := by
  unfold mailOf at h
  dsimp only at h
  split at h
  · rw [← Except.ok.inj h]
    exact fun s _ htrying => htrying.1
  · obtain ⟨message, -, h⟩ := bind_eq_ok h
    rw [← Except.ok.inj h]
    exact outline_deliverMail hout _

/-- The stamp of the rule that the event has sent its mails for. -/
theorem outline_stamp {now : Int} (hrest : AlertOutline H watched i rest (Idle i)) :
    AlertOutline H watched i (.call (.stamp id (C.datetime now)) fun _ => rest)
      (Stamping i id now) := by
  refine ⟨fun _ _ _ => trivial, fun x s hs hstamping _ hcond => ?_⟩
  have hwait : s.clock ≤ (s.wait x.elapsed).clock := by
    dsimp only [AlertState.wait]
    omega
  have hown : ∀ mail ∈ s.pending, mail.sender = i → mail.start ≤ H.instant (C.datetime now) := by
    intro mail hmail hsender
    rw [C.instant_datetime]
    exact (hstamping mail hmail hsender).2
  refine ⟨(hs.wait _).stamp hown hcond,
    fun j _ => ⟨hwait, fun mail hmail _ => List.mem_of_mem_filter hmail⟩, Idle i, stable_idle, ?_,
    hrest⟩
  intro mail hmail hsender
  obtain ⟨hmem, hnot⟩ := List.mem_filter.mp hmail
  exact of_decide_eq_true hnot ⟨hsender, (hstamping mail hmem hsender).1⟩

/-- The mail of a rule that is out of its cooldown, and its stamp. -/
theorem outline_sendOp {subject body : Text} {now : Int} (hout : OutOfCooldown H now rule)
    (hrest : AlertOutline H watched i rest (Idle i)) :
    AlertOutline H watched i (sendOp H C id rule subject body rest) (Checked i now) := by
  refine outline_read (fun _ _ => rfl) fun x s hs hchecked => ?_
  have hwait : s.clock ≤ (s.wait x.elapsed).clock := by
    dsimp only [AlertState.wait]
    omega
  refine ⟨Trying i id now, stable_trying,
    ⟨hchecked.1.mailing id, Int.le_trans hchecked.2 hwait⟩, ?_⟩
  dsimp only [alertEnv]
  cases hmail : x.config.bind fun config => mailOf H config id rule subject body with
  | error exc => exact fun _ _ _ => trivial
  | ok mail =>
      obtain ⟨config, -, hmailOf⟩ := bind_eq_ok hmail
      refine (outline_mailOf hout hmailOf).bind fun _ =>
        outline_read (fun _ _ => rfl) fun y s' hs' hmailing => ?_
      refine ⟨Stamping i id (s'.wait y.elapsed).clock, stable_stamping, ?_, outline_stamp hrest⟩
      exact fun mail hmail hsender => ⟨hmailing mail hmail hsender, hs'.started mail hmail⟩

/-- The outline of an attempt. -/
theorem outline_attemptOp {now : Int} (hout : OutOfCooldown H now rule)
    (hrest : AlertOutline H watched i rest (Idle i)) :
    AlertOutline H watched i (attemptOp H C values id rule rest) (Checked i now) := by
  unfold attemptOp
  cases renderAlertTemplate H (subjectTemplate rule) values with
  | error exc => exact fun _ _ _ => trivial
  | ok subject =>
      dsimp only
      cases renderAlertTemplate H (bodyTemplate rule) values with
      | error exc => exact fun _ _ _ => trivial
      | ok body => exact outline_sendOp hout hrest

/-- The outline of one rule. -/
theorem outline_ruleOp (hskip : AlertOutline H watched i skip (Idle i))
    (hrest : AlertOutline H watched i rest (Idle i)) :
    AlertOutline H watched i (ruleOp H C event values id rule skip rest) (Idle i) := by
  unfold ruleOp
  split
  · refine outline_read (fun _ _ => rfl) fun x s hs hidle => ?_
    refine ⟨Checked i (s.wait x.elapsed).clock, stable_checked, ⟨hidle, Int.le_refl _⟩, ?_⟩
    obtain ⟨-, -, hcool⟩ | ⟨-, ⟨hout, hcool⟩ | ⟨-, hcool⟩⟩ :=
      inCooldown_cases (H := H) (s.wait x.elapsed).clock rule
    · dsimp only [alertEnv]
      rw [hcool]
      exact fun _ _ _ => trivial
    · dsimp only [alertEnv]
      rw [hcool]
      exact outline_attemptOp hout hrest
    · dsimp only [alertEnv]
      rw [hcool]
      exact hskip.mono (fun _ _ hchecked => hchecked.1) fun _ _ h => h
  · exact hskip

/-- The outline of the loop over the rules. -/
theorem outline_evaluateRowsOp (rows : List (Row AlertRule)) (expired : Bool) :
    AlertOutline H watched i (evaluateRowsOp H C event values expired rows) (Idle i) := by
  induction rows generalizing expired with
  | nil => cases expired <;> exact fun _ _ _ => trivial
  | cons row rows ih =>
      cases expired with
      | false => exact outline_ruleOp (ih false) (ih true)
      | true =>
          refine outline_read (fun _ _ => rfl) fun x s hs hidle => ⟨Idle i, stable_idle, hidle, ?_⟩
          dsimp only [alertEnv]
          cases (s.wait x.elapsed).rules.get? row.id with
          | none => exact fun _ _ _ => trivial
          | some found => exact outline_ruleOp (ih true) (ih true)

/-- The outline of an event with its rules. -/
theorem outline_evaluateSelectedOp (rows : List (Row AlertRule)) :
    AlertOutline H watched i (evaluateSelectedOp H C event rows) (Idle i) := by
  unfold evaluateSelectedOp
  split
  · exact fun _ _ _ => trivial
  · refine outline_read (fun _ _ => rfl) fun x s hs hidle => ⟨Idle i, stable_idle, hidle, ?_⟩
    dsimp only [alertEnv]
    cases baseValues H x.dnsName event with
    | error exc => exact fun _ _ _ => trivial
    | ok values => exact outline_evaluateRowsOp rows false

variable (C event) in
/-- The outline of an event. -/
theorem outline_evaluateAlertRulesOp :
    AlertOutline H watched i (evaluateAlertRulesOp H C event) (Idle i) :=
  outline_read (fun _ _ => rfl) fun _ _ _ hidle =>
    ⟨Idle i, stable_idle, hidle, outline_evaluateSelectedOp _⟩

/-! ## events at the same time -/

/-- The events, before any of them is evaluated. -/
def emitting (C : Clock H) (events : ι → ActivityLog) (clock : Int) (rules : Table AlertRule) :
    Config alertSig ι (AlertState ι) Unit :=
  ⟨⟨clock, rules, [], []⟩, fun i => evaluateAlertRulesOp H C (events i)⟩

/-- As long as no event disturbs another one at a rule, two mails of the rule are
sent at least its cooldown apart. -/
theorem mails_spaced (C : Clock H) (events : ι → ActivityLog) (clock : Int)
    (rules : Table AlertRule) (id : Nat) (es : List (ι × Tick))
    (hm : (emitting C events clock rules).MeetsRun (alertEnv ι) (Undisturbed H id) es) :
    Spaced id ((emitting C events clock rules).turns (alertEnv ι) es).shared := by
  have hstart : (alertTerms ι H id).Outlined (fun _ _ => True) (fun _ _ _ => True)
      (emitting C events clock rules) := by
    refine ⟨⟨by simp [emitting], by simp [emitting], by simp [emitting], by simp [emitting, Spaced]⟩,
      fun i => ⟨Idle i, stable_idle, ?_, outline_evaluateAlertRulesOp C (events i)⟩⟩
    simp [emitting, Idle]
  exact (Terms.outlined_turns hstart hm).1.spaced

end

instance {ι : Type} (H : AlertHost) (id : Nat) (i : ι) (x : Tick) (o : AlertOp)
    (s : AlertState ι) : Decidable (Undisturbed H id i x o s) := by
  unfold Undisturbed
  split <;> infer_instance

instance {ι : Type} (id : Nat) (s : AlertState ι) : Decidable (Spaced id s) := by
  unfold Spaced
  infer_instance

/-! ## two events and a rule for one mail an hour -/

/-- The first two hours of a year; other times are counted. -/
def clockText (t : Int) : Str :=
  if t = 0 then lit "2026-01-01T00:00:00"
  else if t = 3600000000 then lit "2026-01-01T01:00:00"
  else (if 0 ≤ t then '+' else '-') :: List.replicate t.natAbs '.'

def clockInstant (s : Str) : Int :=
  match s with
  | '+' :: rest => rest.length
  | '-' :: rest => -rest.length
  | s => if s = lit "2026-01-01T01:00:00" then 3600000000 else 0

/-- The relay of `exampleHost`, with a clock. -/
def clockHost : AlertHost := { exampleHost with instant := fun d => clockInstant d.isoformat }

/-- A stamp is read back. -/
theorem clockInstant_clockText (t : Int) : clockInstant (clockText t) = t := by
  unfold clockText
  split
  · next h => rw [h]; rfl
  · split
    · next h => rw [h]; rfl
    · split
      · simp only [clockInstant, List.length_replicate]
        omega
      · simp only [clockInstant, List.length_replicate]
        omega

def clock : Clock clockHost := ⟨fun t => ⟨clockText t⟩, clockInstant_clockText⟩

/-- The event of `exampleRun`, twice. -/
def twice (_ : Fin 2) : ActivityLog := exampleRun.row

/-- A rule for one mail an hour, and one for every error. -/
def hourlyRules : Table AlertRule :=
  .ofList
    [{ exampleRule (lit "Error") with emailBodyTemplate := lit "An error.", cooldownMinutes := 60 },
      { exampleRule (lit "Error") with emailBodyTemplate := lit "An error." }]

/-- A relay that needs no login. -/
def relayConfig : SmtpConfig :=
  ⟨[lit "smtp.example"], 25, true, [], [], lit "dns@example.com", lit "none", 10, false⟩

/-- A step of an event after some microseconds; the server takes every mail. -/
def after (i : Fin 2) (elapsed : Nat) : Fin 2 × Tick :=
  (i, ⟨elapsed, .ok [], .ok relayConfig, .ok (), true⟩)

/-- The second event comes an hour after the mail of the first; at the rule without
a cooldown they overtake each other. -/
def inTurn : List (Fin 2 × Tick) :=
  List.replicate 10 (after 0 0) ++ after 1 3600000000 :: List.replicate 9 (after 1 0) ++
    [after 0 0, after 1 0, after 0 0, after 1 0]

/-- Both events read the rule before either of them stamps it. -/
def together : List (Fin 2 × Tick) := (List.replicate 5 [after 0 0, after 1 0]).flatten

theorem mails_spaced_inTurn :
    let s := ((emitting clock twice 0 hourlyRules).turns (alertEnv (Fin 2)) inTurn).shared
    (s.mails.filter (·.rule = 1)).map Mail.start = [3600000000, 0] ∧ Spaced 1 s :=
  ⟨by decide, mails_spaced clock twice 0 hourlyRules 1 inTurn (by decide)⟩

/-- Two mails of the rule are sent at the same time. -/
theorem not_spaced_together :
    ¬Spaced 1 ((emitting clock twice 0 hourlyRules).turns (alertEnv (Fin 2)) together).shared := by
  decide

end ApiToDns.Alerting
