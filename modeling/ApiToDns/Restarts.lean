import ApiToDns.Lib.Runs
import ApiToDns.Py.Str

/-!
# Restarts

The restart after a renewed certificate (`restart.py`, `app.py`,
`letsencrypt.save_config`).  The time of day is accepted by parsing it and
compared as text, so only some of the accepted spellings ever come.

* `strptimeHM` — the texts that are accepted, and what they denote;
* `scheduleStep` — checks, renewals and starts of the process;
* `happensAtAcceptedTime_iff` — the spellings for which the restart comes.
-/

namespace ApiToDns.Restarts

open Py

/-! ## the accepted times -/

section Times

variable (U : Ucd)

/-- `\d`. -/
def decimalDigit (c : Char) : Option Nat := (U.decimal c).filter (· < 10)

/-- The ways `(2[0-3]|[0-1]\d|\d)` matches, in order: the hour and the rest. -/
def hourMatches (s : Str) : List (Nat × Str) :=
  (match s with
    | '2' :: c :: rest => if '0' ≤ c ∧ c ≤ '3' then [(20 + (c.toNat - 48), rest)] else []
    | _ => []) ++
  (match s with
    | a :: b :: rest =>
        match decimalDigit U b with
        | some d => if a = '0' ∨ a = '1' then [(10 * (a.toNat - 48) + d, rest)] else []
        | none => []
    | _ => []) ++
  (match s with
    | a :: rest =>
        match decimalDigit U a with
        | some d => [(d, rest)]
        | none => []
    | [] => [])

/-- The first way `([0-5]\d|\d)` matches. -/
def minuteMatch : Str → Option (Nat × Str)
  | [] => none
  | a :: rest =>
      match rest with
      | [] => (decimalDigit U a).map fun d => (d, [])
      | b :: rest' =>
          match decimalDigit U b with
          | some d =>
              if '0' ≤ a ∧ a ≤ '5' then some (10 * (a.toNat - 48) + d, rest')
              else (decimalDigit U a).map fun d => (d, rest)
          | none => (decimalDigit U a).map fun d => (d, rest)

/-- `datetime.strptime(value, "%H:%M")`: the hour and the minute, `none` where
it raises `ValueError`. -/
def strptimeHM (value : Str) : Option (Nat × Nat) :=
  let found := (hourMatches U value).findSome? fun (hour, rest) =>
    match rest with
    | ':' :: rest => (minuteMatch U rest).map fun (minute, rest) => (hour, minute, rest)
    | _ => none
  match found with
  | some (hour, minute, []) => some (hour, minute)
  | _ => none

/-- `_valid_time`. -/
def validTime (value : Str) : Bool := (strptimeHM U value).isSome

/-- `DEFAULT_SCHEDULED_RESTART_TIME`. -/
def defaultScheduledRestartTime : Str := lit "03:00"

/-- The time `save_config` stores. -/
def scheduleTime (scheduledRestartTime : Str) : Str :=
  if validTime U scheduledRestartTime then scheduledRestartTime else defaultScheduledRestartTime

end Times

/-! ## local time -/

/-- A minute of local time. -/
structure LocalTime where
  date : Nat
  hour : Fin 24
  minute : Fin 60
deriving DecidableEq

/-- `%02d`. -/
def twoDigits (n : Nat) : Str := [Nat.digitChar (n / 10), Nat.digitChar (n % 10)]

/-- `current.strftime("%H:%M")`. -/
def strftimeHM (now : LocalTime) : Str :=
  twoDigits now.hour ++ ':' :: twoDigits now.minute

/-! ## the checks -/

/-- The source of the certificate in use. -/
inductive CertSource where
  | selfSigned
  | uploaded
  | letsencrypt
deriving DecidableEq, Repr

/-- What a check reads of the configuration. -/
structure RestartConfig where
  scheduledRestartEnabled : Bool
  scheduledRestartTime : Str
deriving DecidableEq

structure ScheduleState where
  config : Option RestartConfig
  /-- `_read_source()` -/
  source : Option CertSource
  /-- `letsencrypt_renewal_pending_restart` -/
  pending : Bool
  /-- `last_scheduled_restart_date`, where it is set -/
  lastDate : Option Nat
deriving DecidableEq

inductive ScheduleEvent where
  | check (now : LocalTime)
  /-- a certificate is renewed -/
  | renewed
  /-- the process starts -/
  | started
deriving DecidableEq

/-- `scheduled_restart_due`. -/
def scheduledRestartDue (configuredTime : Str) (now : LocalTime) (st : ScheduleState) :
    Bool × ScheduleState :=
  if strftimeHM now ≠ configuredTime then (false, st)
  else if st.lastDate = some now.date then (false, st)
  else (true, { st with lastDate := some now.date })

/-- `_maybe_scheduled_le_restart`; `true` where it restarts the application. -/
def maybeScheduledLeRestart (now : LocalTime) (st : ScheduleState) : Bool × ScheduleState :=
  match st.config with
  | none => (false, st)
  | some config =>
      if !config.scheduledRestartEnabled ∨ config.scheduledRestartTime = [] then (false, st)
      else if st.source ≠ some .letsencrypt then (false, st)
      else if !st.pending then (false, st)
      else
        match scheduledRestartDue config.scheduledRestartTime now st with
        | (false, st) => (false, st)
        | (true, st) => (true, { st with pending := false })

/-- `apply_le_renewal_restart_policy`. -/
def applyLeRenewalRestartPolicy (st : ScheduleState) : ScheduleState :=
  match st.config with
  | none => st
  | some config =>
      if config.scheduledRestartEnabled ∧ config.scheduledRestartTime ≠ [] then
        { st with pending := true }
      else st

/-- The events; the answer tells whether the application is restarted. -/
def scheduleStep : Machine ScheduleEvent Bool ScheduleState := fun event st =>
  match event with
  | .check now => maybeScheduledLeRestart now st
  | .renewed => (false, applyLeRenewalRestartPolicy st)
  | .started => (false, { st with pending := false })

/-! ## runs -/

/-- The state after the events. -/
def reached (st : ScheduleState) (events : List ScheduleEvent) : ScheduleState :=
  (scheduleStep.runAll events st).2

/-- A check after the events restarts the application. -/
def Fires (st : ScheduleState) (events : List ScheduleEvent) (now : LocalTime) : Prop :=
  (maybeScheduledLeRestart now (reached st events)).1 = true

/-- The times of the checks. -/
def checkTimes (events : List ScheduleEvent) : List LocalTime :=
  events.filterMap fun
    | .check now => some now
    | _ => none

/-- The dates of the checks are in order, as they are when there is a check in every
minute of local time; also on a day on which the clock is put forward, so that an hour is
left out, or back, so that an hour comes again. -/
def DatesInOrder (events : List ScheduleEvent) : Prop :=
  (checkTimes events).IsChain fun now next => now.date ≤ next.date

/-- The text denotes the hour and the minute. -/
def Denotes (U : Ucd) (time : Str) (now : LocalTime) : Prop :=
  strptimeHM U time = some (↑now.hour, ↑now.minute)

/-- A check at the denoted time restarts the application, if a renewal is
pending and no restart is recorded for the date. -/
def OnTime (U : Ucd) (time : Str) (st : ScheduleState) (events : List ScheduleEvent) : Prop :=
  ∀ pre now post, events = pre ++ .check now :: post → (reached st pre).pending = true →
    Denotes U time now → (reached st pre).lastDate ≠ some now.date → Fires st pre now

/-- No two checks of one date restart the application. -/
def OncePerDate (st : ScheduleState) (events : List ScheduleEvent) : Prop :=
  ∀ pre now mid now' post, events = pre ++ .check now :: (mid ++ .check now' :: post) →
    Fires st pre now → Fires st (pre ++ .check now :: mid) now' → now.date ≠ now'.date

/-- In every run under the stored configuration the restart comes at the time
that it denotes, and once a day at most. -/
def HappensAtAcceptedTime (U : Ucd) (config : RestartConfig) (source : Option CertSource) : Prop :=
  ∀ st events, st.config = some config → st.source = source → DatesInOrder events →
    OnTime U config.scheduledRestartTime st events ∧ OncePerDate st events

/-- Two digits, a colon and two digits, as `strftime` writes them. -/
def IsHHMM (time : Str) : Prop := time.length = 5 ∧ ∀ c ∈ time, isAscii c = true

instance (time : Str) : Decidable (IsHHMM time) :=
  inferInstanceAs (Decidable (time.length = 5 ∧ ∀ c ∈ time, isAscii c = true))

/-! ## reading a time -/

section Times

variable (U : Ucd)

/-- A digit has its value. -/
theorem decimalDigit_digitChar {d : Nat} (h : d < 10) :
    decimalDigit U (Nat.digitChar d) = some d := by
  have hdigit : (Nat.digitChar d).isDigit = true := by simp [Nat.isDigit_digitChar, h]
  rw [decimalDigit, U.decimal_of_isDigit hdigit, Nat.toNat_digitChar_sub_48_of_lt_ten h]
  simp [h]

variable {U}

/-- A digit is below ten. -/
theorem lt_of_decimalDigit {c : Char} {d : Nat} (h : decimalDigit U c = some d) : d < 10 := by
  simpa using (Option.filter_eq_some_iff.mp h).2

/-- An ASCII digit is the one of its value. -/
theorem eq_digitChar_of_decimalDigit {c : Char} {d : Nat} (h : decimalDigit U c = some d)
    (hc : isAscii c = true) : c = Nat.digitChar d := by
  have hdec := (Option.filter_eq_some_iff.mp h).1
  rw [U.decimal_ascii c hc] at hdec
  by_cases hdigit : c.isDigit = true
  · rw [if_pos hdigit, Option.some.injEq] at hdec
    rw [← hdec, digitChar_of_isDigit hdigit]
  · rw [if_neg hdigit] at hdec
    contradiction

/-- A character from `'0'` to a digit. -/
theorem isDigit_of_le {c e : Char} (h : '0' ≤ c) (he : c ≤ e) (hdigit : e ≤ '9') :
    c.isDigit = true := by
  have hle := Char.le_trans he hdigit
  simp only [Char.isDigit, Bool.and_eq_true, decide_eq_true_eq]
  exact ⟨h, hle⟩

/-- The order of characters is that of their code points. -/
theorem toNat_le_of_le {c e : Char} (h : c ≤ e) : c.toNat ≤ e.toNat := by
  simpa [Char.le_def, UInt32.le_iff_toNat_le] using h

/-- What is read of a text: one digit, or two of which the first one is ASCII. -/
inductive Digits (U : Ucd) : Str → Nat → Prop where
  | one {a : Char} {d : Nat} (h : decimalDigit U a = some d) : Digits U [a] d
  | two {a b : Char} {d e : Nat} (ha : a = Nat.digitChar d) (hd : d < 10)
      (hb : decimalDigit U b = some e) : Digits U [a, b] (10 * d + e)

/-- Two ASCII digits are the ones that the number is written with. -/
theorem Digits.eq_twoDigits {w : Str} {n : Nat} (h : Digits U w n) (hlen : w.length = 2)
    (hascii : ∀ c ∈ w, isAscii c = true) : w = twoDigits n := by
  cases h with
  | one h => simp at hlen
  | @two a b d e ha hd hb =>
      have he := lt_of_decimalDigit hb
      have htens : (10 * d + e) / 10 = d := by omega
      have hones : (10 * d + e) % 10 = e := by omega
      rw [twoDigits, htens, hones, ha, eq_digitChar_of_decimalDigit hb (hascii _ (by simp))]

/-- An hour or a minute has at most two digits. -/
theorem Digits.length_le {w : Str} {n : Nat} (h : Digits U w n) : w.length ≤ 2 := by
  cases h <;> simp

/-- The ways an hour is read. -/
theorem of_mem_hourMatches {s rest : Str} {hour : Nat} (h : (hour, rest) ∈ hourMatches U s) :
    hour < 24 ∧ ∃ w, s = w ++ rest ∧ Digits U w hour := by
  unfold hourMatches at h
  rw [List.mem_append, List.mem_append] at h
  rcases h with (h | h) | h
  · split at h
    · next c rest' =>
        split at h
        · next hc =>
            obtain ⟨rfl, rfl⟩ : hour = 20 + (c.toNat - 48) ∧ rest = rest' := by simpa using h
            have hdigit := isDigit_of_le hc.1 hc.2 (by decide)
            have hle := toNat_le_of_le hc.2
            have hthree : ('3' : Char).toNat = 51 := rfl
            refine ⟨by omega, ['2', c], rfl, ?_⟩
            refine Digits.two (d := 2) rfl (by omega) ?_
            have hdec := decimalDigit_digitChar U (d := c.toNat - 48) (by omega)
            rwa [digitChar_of_isDigit hdigit] at hdec
        · simp at h
    · simp at h
  · split at h
    · next a b rest' =>
        cases hb : decimalDigit U b with
        | none => simp [hb] at h
        | some d =>
            have hd := lt_of_decimalDigit hb
            simp only [hb] at h
            split at h
            · next ha =>
                obtain ⟨rfl, rfl⟩ : hour = 10 * (a.toNat - 48) + d ∧ rest = rest' := by
                  simpa using h
                have hone : a.toNat - 48 < 2 ∧ a = Nat.digitChar (a.toNat - 48) := by
                  rcases ha with rfl | rfl <;> decide
                exact ⟨by omega, [a, b], rfl, .two hone.2 (by omega) hb⟩
            · simp at h
    · simp at h
  · split at h
    · next a rest' =>
        cases ha : decimalDigit U a with
        | none => simp [ha] at h
        | some d =>
            have hd := lt_of_decimalDigit ha
            simp only [ha] at h
            obtain ⟨rfl, rfl⟩ : hour = d ∧ rest = rest' := by simpa using h
            exact ⟨by omega, [a], rfl, .one ha⟩
    · simp at h

/-- The way a minute is read. -/
theorem of_minuteMatch {s rest : Str} {minute : Nat} (h : minuteMatch U s = some (minute, rest)) :
    minute < 60 ∧ ∃ w, s = w ++ rest ∧ Digits U w minute := by
  have hone : ∀ {a : Char} {tail : Str},
      (decimalDigit U a).map (fun d => (d, tail)) = some (minute, rest) →
      minute < 60 ∧ ∃ w, a :: tail = w ++ rest ∧ Digits U w minute := by
    intro a tail h
    obtain ⟨d, hd, heq⟩ := Option.map_eq_some_iff.mp h
    obtain ⟨rfl, rfl⟩ := Prod.mk.inj heq
    have hlt := lt_of_decimalDigit hd
    exact ⟨by omega, [a], rfl, .one hd⟩
  unfold minuteMatch at h
  split at h
  · contradiction
  · next a rest' =>
      split at h
      · exact hone h
      · next b tail =>
          cases hb : decimalDigit U b with
          | none =>
              simp only [hb] at h
              exact hone h
          | some d =>
              have hd := lt_of_decimalDigit hb
              simp only [hb] at h
              split at h
              · next ha =>
                  obtain ⟨rfl, rfl⟩ : 10 * (a.toNat - 48) + d = minute ∧ tail = rest := by
                    simpa using h
                  have hdigit := isDigit_of_le ha.1 ha.2 (by decide)
                  have hle := toNat_le_of_le ha.2
                  have hfive : ('5' : Char).toNat = 53 := rfl
                  exact ⟨by omega, [a, b], rfl,
                    .two (digitChar_of_isDigit hdigit).symm (by omega) hb⟩
              · exact hone h

/-- What an accepted text looks like. -/
theorem of_strptimeHM {s : Str} {hour minute : Nat} (h : strptimeHM U s = some (hour, minute)) :
    hour < 24 ∧ minute < 60 ∧
      ∃ w v, s = w ++ ':' :: v ∧ Digits U w hour ∧ Digits U v minute := by
  unfold strptimeHM at h
  simp only at h
  split at h
  · next hour' minute' hfound =>
      obtain ⟨rfl, rfl⟩ : hour' = hour ∧ minute' = minute := by simpa using h
      obtain ⟨⟨hour₁, rest⟩, hmem, hread⟩ := List.exists_of_findSome?_eq_some hfound
      simp only at hread
      split at hread
      · next rest =>
          obtain ⟨⟨minute₁, rest'⟩, hminute, heq⟩ := Option.map_eq_some_iff.mp hread
          obtain ⟨rfl, rfl, rfl⟩ : hour₁ = hour' ∧ minute₁ = minute' ∧ rest' = [] := by
            simpa using heq
          obtain ⟨hlt, w, rfl, hw⟩ := of_mem_hourMatches hmem
          obtain ⟨hlt', v, rfl, hv⟩ := of_minuteMatch hminute
          exact ⟨hlt, hlt', w, v, by simp, hw, hv⟩
      · contradiction
  · contradiction

/-- Of five ASCII characters, an accepted text is what `strftime` writes. -/
theorem eq_of_strptimeHM {s : Str} {hour minute : Nat} (h : strptimeHM U s = some (hour, minute))
    (hs : IsHHMM s) : s = twoDigits hour ++ ':' :: twoDigits minute := by
  obtain ⟨-, -, w, v, rfl, hw, hv⟩ := of_strptimeHM h
  obtain ⟨hlen, hascii⟩ := hs
  have hwlen := hw.length_le
  have hvlen := hv.length_le
  rw [List.length_append, List.length_cons] at hlen
  rw [hw.eq_twoDigits (by omega) fun c hc => hascii c (by simp [hc]),
    hv.eq_twoDigits (by omega) fun c hc => hascii c (by simp [hc])]

variable (U)

/-- The readings of a written hour. -/
theorem hourMatches_twoDigits {hour : Nat} (h : hour < 24) (rest : Str) :
    hourMatches U (twoDigits hour ++ rest) =
      [(hour, rest), (hour / 10, Nat.digitChar (hour % 10) :: rest)] := by
  have hones := decimalDigit_digitChar U (d := hour % 10) (by omega)
  have hvalue := Nat.toNat_digitChar_sub_48_of_lt_ten (n := hour % 10) (by omega)
  have hcases : hour / 10 = 0 ∨ hour / 10 = 1 ∨ hour / 10 = 2 := by omega
  rcases hcases with hten | hten | hten
  · have htext : twoDigits hour = ['0', Nat.digitChar (hour % 10)] := by rw [twoDigits, hten]; rfl
    have hzero : decimalDigit U '0' = some 0 := decimalDigit_digitChar U (d := 0) (by omega)
    simp [hourMatches, htext, hten, hones, hzero]
    omega
  · have htext : twoDigits hour = ['1', Nat.digitChar (hour % 10)] := by rw [twoDigits, hten]; rfl
    have hone : decimalDigit U '1' = some 1 := decimalDigit_digitChar U (d := 1) (by omega)
    simp [hourMatches, htext, hten, hones, hone]
    omega
  · have htext : twoDigits hour = ['2', Nat.digitChar (hour % 10)] := by rw [twoDigits, hten]; rfl
    have htwo : decimalDigit U '2' = some 2 := decimalDigit_digitChar U (d := 2) (by omega)
    have hrange : ∀ n : Fin 4, '0' ≤ Nat.digitChar n ∧ Nat.digitChar n ≤ '3' := by decide
    have hle := hrange ⟨hour % 10, by omega⟩
    simp only at hle
    simp [hourMatches, htext, hten, hones, htwo, hle, hvalue]
    omega

/-- The reading of a written minute. -/
theorem minuteMatch_twoDigits {minute : Nat} (h : minute < 60) :
    minuteMatch U (twoDigits minute) = some (minute, []) := by
  have hones := decimalDigit_digitChar U (d := minute % 10) (by omega)
  have hvalue := Nat.toNat_digitChar_sub_48_of_lt_ten (n := minute / 10) (by omega)
  have hrange : ∀ n : Fin 6, '0' ≤ Nat.digitChar n ∧ Nat.digitChar n ≤ '5' := by decide
  have htens := hrange ⟨minute / 10, by omega⟩
  have hsum : 10 * (minute / 10) + minute % 10 = minute := by omega
  simp [minuteMatch, twoDigits, hones, htens, hvalue, hsum]

/-- What `strftime` writes is accepted. -/
theorem strptimeHM_strftimeHM (now : LocalTime) :
    strptimeHM U (strftimeHM now) = some (↑now.hour, ↑now.minute) := by
  unfold strptimeHM strftimeHM
  rw [hourMatches_twoDigits U now.hour.isLt]
  simp [minuteMatch_twoDigits U now.minute.isLt]

/-- What `save_config` stores is accepted. -/
theorem exists_strptimeHM_scheduleTime (time : Str) :
    ∃ hour minute, strptimeHM U (scheduleTime U time) = some (hour, minute) := by
  unfold scheduleTime
  by_cases hvalid : validTime U time = true
  · obtain ⟨⟨hour, minute⟩, hread⟩ := Option.isSome_iff_exists.mp hvalid
    exact ⟨hour, minute, by rw [if_pos hvalid, hread]⟩
  · have hdefault : strftimeHM ⟨0, 3, 0⟩ = defaultScheduledRestartTime := by decide
    exact ⟨3, 0, by rw [if_neg hvalid, ← hdefault, strptimeHM_strftimeHM]; rfl⟩

/-- A written time has five characters. -/
theorem isHHMM_strftimeHM (now : LocalTime) : IsHHMM (strftimeHM now) := by
  have hdigit : ∀ n : Fin 10, isAscii (Nat.digitChar n) = true := by decide
  have htwo : ∀ n < 60, ∀ c ∈ twoDigits n, isAscii c = true := by
    intro n hn c hc
    simp only [twoDigits, List.mem_cons, List.not_mem_nil, or_false] at hc
    rcases hc with rfl | rfl
    · exact hdigit ⟨n / 10, by omega⟩
    · exact hdigit ⟨n % 10, by omega⟩
  have hhour := now.hour.isLt
  refine ⟨rfl, ?_⟩
  intro c hc
  rw [strftimeHM, List.mem_append, List.mem_cons] at hc
  rcases hc with hc | rfl | hc
  · exact htwo _ (by omega) c hc
  · decide
  · exact htwo _ now.minute.isLt c hc

end Times

/-! ## what a check does -/

section Checks

variable {st : ScheduleState} {now : LocalTime}

/-- When a check restarts the application, and what it leaves. -/
theorem maybeScheduledLeRestart_eq {config : RestartConfig} (hconfig : st.config = some config) :
    maybeScheduledLeRestart now st =
      if config.scheduledRestartEnabled = true ∧ st.source = some .letsencrypt ∧
          st.pending = true ∧ strftimeHM now = config.scheduledRestartTime ∧
          st.lastDate ≠ some now.date then
        (true, { st with lastDate := some now.date, pending := false })
      else (false, st) := by
  have hne : strftimeHM now ≠ [] := by simp [strftimeHM, twoDigits]
  unfold maybeScheduledLeRestart scheduledRestartDue
  rw [hconfig]
  grind

/-- When a check restarts the application. -/
theorem fires_iff {config : RestartConfig} (hconfig : st.config = some config) :
    (maybeScheduledLeRestart now st).1 = true ↔
      config.scheduledRestartEnabled = true ∧ st.source = some .letsencrypt ∧
        st.pending = true ∧ strftimeHM now = config.scheduledRestartTime ∧
        st.lastDate ≠ some now.date := by
  rw [maybeScheduledLeRestart_eq hconfig]
  split
  · next h => simpa using h
  · next h => simpa using h

/-- No event changes the configuration or the source. -/
theorem frame_scheduleStep (event : ScheduleEvent) (st : ScheduleState) :
    (scheduleStep event st).2.config = st.config ∧
      (scheduleStep event st).2.source = st.source := by
  unfold scheduleStep
  cases event with
  | check now =>
      cases hconfig : st.config with
      | none => simp [maybeScheduledLeRestart, hconfig]
      | some config =>
          simp only [maybeScheduledLeRestart_eq hconfig]
          split <;> simp [hconfig]
  | renewed =>
      simp only [applyLeRenewalRestartPolicy]
      split
      · simp
      · split <;> simp
  | started => simp

/-- A check of the date that is recorded, and any other event, leaves the date. -/
theorem lastDate_scheduleStep {event : ScheduleEvent} {date : Nat} (hst : st.lastDate = some date)
    (hevent : ∀ now, event = .check now → now.date = date) :
    (scheduleStep event st).2.lastDate = some date := by
  unfold scheduleStep
  cases event with
  | check now =>
      have hdate := hevent now rfl
      cases hconfig : st.config with
      | none => simpa [maybeScheduledLeRestart, hconfig] using hst
      | some config =>
          rw [← hdate] at hst
          simp [maybeScheduledLeRestart_eq hconfig, hst, hdate]
  | renewed =>
      simp only [applyLeRenewalRestartPolicy]
      split
      · exact hst
      · split <;> exact hst
  | started => exact hst

end Checks

/-! ## what runs do -/

section Runs

variable {U : Ucd} {st : ScheduleState} {now : LocalTime}

/-- A run of two parts. -/
theorem reached_append (pre post : List ScheduleEvent) :
    reached st (pre ++ post) = reached (reached st pre) post := by
  simp [reached, Machine.runAll_append]

/-- The first event and those after it. -/
theorem reached_cons (event : ScheduleEvent) (events : List ScheduleEvent) :
    reached st (event :: events) = reached (scheduleStep event st).2 events := rfl

/-- No event changes the configuration or the source. -/
theorem frame_reached (events : List ScheduleEvent) :
    (reached st events).config = st.config ∧ (reached st events).source = st.source := by
  induction events generalizing st with
  | nil => simp [reached]
  | cons event events ih =>
      have hstep := frame_scheduleStep event st
      rw [reached_cons, ih.1, ih.2]
      exact hstep

/-- Checks of the date that is recorded leave it. -/
theorem lastDate_reached {events : List ScheduleEvent} {date : Nat}
    (hst : st.lastDate = some date) (hdates : ∀ now ∈ checkTimes events, now.date = date) :
    (reached st events).lastDate = some date := by
  induction events generalizing st with
  | nil => exact hst
  | cons event events ih =>
      have hstep : (scheduleStep event st).2.lastDate = some date :=
        lastDate_scheduleStep hst fun now hnow => hdates now (by simp [checkTimes, hnow])
      refine ih hstep fun now hnow => hdates now ?_
      cases event <;> simp_all [checkTimes]

/-- The dates of the checks do not go back. -/
theorem DatesInOrder.pairwise {events : List ScheduleEvent} (h : DatesInOrder events) :
    (checkTimes events).Pairwise fun now later => now.date ≤ later.date :=
  have : IsTrans LocalTime fun now later => now.date ≤ later.date :=
    ⟨fun _ _ _ h h' => Nat.le_trans h h'⟩
  List.isChain_iff_pairwise.mp h

/-- In every run, no two checks of a date restart the application. -/
theorem oncePerDate {config : RestartConfig} (hconfig : st.config = some config)
    {events : List ScheduleEvent} (hrun : DatesInOrder events) : OncePerDate st events := by
  intro pre now mid now' post hevents hfires hfires' hdate
  have hsorted := hrun.pairwise
  have htimes : checkTimes events =
      checkTimes pre ++ now :: (checkTimes mid ++ now' :: checkTimes post) := by
    simp [hevents, checkTimes, List.filterMap_append]
  rw [htimes, List.pairwise_append, List.pairwise_cons, List.pairwise_append] at hsorted
  obtain ⟨-, ⟨hafter, -, -, hmid⟩, -⟩ := hsorted
  have hbetween : ∀ t ∈ checkTimes mid, t.date = now.date := by
    intro t ht
    have hle : now.date ≤ t.date := hafter t (by simp [ht])
    have hle' : t.date ≤ now'.date := hmid t ht now' (by simp)
    omega
  have hconfig₁ : (reached st pre).config = some config := (frame_reached pre).1.trans hconfig
  have hfirst := (fires_iff hconfig₁).mp hfires
  have hrecorded : (reached st (pre ++ [.check now])).lastDate = some now.date := by
    rw [reached_append, reached_cons]
    show (maybeScheduledLeRestart now (reached st pre)).2.lastDate = _
    rw [maybeScheduledLeRestart_eq hconfig₁, if_pos hfirst]
  have hsplit : pre ++ .check now :: mid = (pre ++ [.check now]) ++ mid := by simp
  have hconfig₂ : (reached st (pre ++ .check now :: mid)).config = some config :=
    (frame_reached _).1.trans hconfig
  have hsecond := ((fires_iff hconfig₂).mp hfires').2.2.2.2
  rw [hsplit, reached_append, lastDate_reached hrecorded hbetween, hdate] at hsecond
  exact hsecond rfl

/-- Under a time of five ASCII characters a check at the denoted time restarts
the application. -/
theorem onTime {config : RestartConfig} (hconfig : st.config = some config)
    (henabled : config.scheduledRestartEnabled = true) (hsource : st.source = some .letsencrypt)
    (htime : IsHHMM config.scheduledRestartTime) (events : List ScheduleEvent) :
    OnTime U config.scheduledRestartTime st events := by
  intro pre now post hevents hpending hdenotes hdate
  have hconfig' : (reached st pre).config = some config := (frame_reached pre).1.trans hconfig
  have hsource' : (reached st pre).source = some .letsencrypt := (frame_reached pre).2.trans hsource
  have htext : strftimeHM now = config.scheduledRestartTime :=
    (eq_of_strptimeHM hdenotes htime).symm
  exact (fires_iff hconfig').mpr ⟨henabled, hsource', hpending, htext, hdate⟩

/-- The restart comes at the time that is accepted, and once a day at most,
when it is enabled, the certificate in use is from Let's Encrypt, and the time
is written with five ASCII characters. -/
theorem happensAtAcceptedTime_iff (U : Ucd) (time : Str) (enabled : Bool)
    (source : Option CertSource) :
    HappensAtAcceptedTime U ⟨enabled, scheduleTime U time⟩ source ↔
      enabled = true ∧ source = some .letsencrypt ∧ IsHHMM (scheduleTime U time) := by
  constructor
  · intro h
    obtain ⟨hour, minute, hread⟩ := exists_strptimeHM_scheduleTime U time
    obtain ⟨hhour, hminute, -⟩ := of_strptimeHM hread
    let now : LocalTime := ⟨0, ⟨hour, hhour⟩, ⟨minute, hminute⟩⟩
    have hdenotes : Denotes U (scheduleTime U time) now := hread
    have hontime := (h ⟨some ⟨enabled, scheduleTime U time⟩, source, true, none⟩
      [.check now] rfl rfl (by simp [DatesInOrder, checkTimes])).1
    have hfires := hontime [] now [] rfl rfl hdenotes (by simp [reached])
    obtain ⟨henabled, hsource, -, htext, -⟩ := (fires_iff rfl).mp hfires
    refine ⟨henabled, hsource, ?_⟩
    rw [show scheduleTime U time = strftimeHM now from htext.symm]
    exact isHHMM_strftimeHM _
  · rintro ⟨henabled, rfl, htime⟩ st events hconfig hsource hrun
    exact ⟨onTime hconfig henabled hsource htime events, oncePerDate hconfig hrun⟩

end Runs

/-- `3:05` is accepted, and no check ever compares equal to it. -/
theorem not_happensAtAcceptedTime :
    ¬HappensAtAcceptedTime .ascii ⟨true, scheduleTime .ascii (lit "3:05")⟩
      (some .letsencrypt) := by
  intro h
  have hontime := (h ⟨some ⟨true, scheduleTime .ascii (lit "3:05")⟩, some .letsencrypt, true, none⟩
    [.check ⟨0, 3, 5⟩] rfl rfl (by simp [DatesInOrder, checkTimes])).1
  have hfires := hontime [] ⟨0, 3, 5⟩ [] rfl rfl (by unfold Denotes; decide) (by simp [reached])
  exact absurd hfires (by unfold Fires; decide)

end ApiToDns.Restarts
