import ApiToDns.Lib.Runs
import ApiToDns.RateLimit
import Mathlib.Algebra.BigOperators.Group.Finset.Piecewise
import Mathlib.Algebra.Order.BigOperators.Group.Finset
import Mathlib.Tactic.Convert

/-!
# LoginLimit

How many of the logins from one address the limiter lets through in one
window.  Outside the DNS browser a request counts in the bucket of the API
key in its headers, which `POST /login` never checks.
-/

namespace ApiToDns

open Py

/-! ## sums -/

/-- As many as there is room for, when the room is enough or in one place. -/
theorem sum_min_eq {κ : Type} [DecidableEq κ] {ids : Finset κ} {n : κ → Nat} {M : Nat}
    (h : ∑ i ∈ ids, n i ≤ M ∨ ∀ i ∈ ids, ∀ j ∈ ids, 0 < n i → 0 < n j → i = j) :
    ∑ i ∈ ids, min (n i) M = min (∑ i ∈ ids, n i) M := by
  rcases h with hsum | hone
  · rw [Nat.min_eq_left hsum]
    refine Finset.sum_congr rfl fun i hi => Nat.min_eq_left ?_
    exact le_trans (Finset.single_le_sum (fun _ _ => Nat.zero_le _) hi) hsum
  · by_cases hsome : ∃ k ∈ ids, 0 < n k
    · obtain ⟨k, hk, hnk⟩ := hsome
      have hzero : ∀ x ∈ ids, x ≠ k → n x = 0 := by
        intro x hx hxk
        by_contra hx0
        exact hxk (hone x hx k hk (Nat.pos_of_ne_zero hx0) hnk)
      rw [Finset.sum_eq_single_of_mem k hk fun x hx hxk => by rw [hzero x hx hxk, Nat.zero_min],
        Finset.sum_eq_single_of_mem k hk hzero]
    · push Not at hsome
      have hzero : ∀ x ∈ ids, n x = 0 := fun x hx => Nat.le_zero.mp (hsome x hx)
      rw [Finset.sum_eq_zero hzero, Nat.zero_min]
      exact Finset.sum_eq_zero fun x hx => by rw [hzero x hx, Nat.zero_min]

/-- Room for `M` in each of several buckets is room for more than `M`, unless
all goes into one bucket. -/
theorem sum_min_le_iff {κ : Type} [DecidableEq κ] (ids : Finset κ) (n : κ → Nat) {M : Nat}
    (hM : 0 < M) :
    ∑ i ∈ ids, min (n i) M ≤ M ↔
      ∑ i ∈ ids, n i ≤ M ∨ ∀ i ∈ ids, ∀ j ∈ ids, 0 < n i → 0 < n j → i = j := by
  constructor
  · intro h
    by_contra hnot
    rw [not_or, not_le] at hnot
    obtain ⟨hsum, htwo⟩ := hnot
    push Not at htwo
    obtain ⟨i, hi, j, hj, hni, hnj, hne⟩ := htwo
    by_cases hfull : ∃ k ∈ ids, M ≤ n k
    · -- a full bucket, and another one that is not empty
      obtain ⟨k, hk, hMk⟩ := hfull
      obtain ⟨l, hl, hlk, hnl⟩ : ∃ l ∈ ids, l ≠ k ∧ 0 < n l := by
        by_cases hik : i = k
        · exact ⟨j, hj, by rw [← hik]; exact hne.symm, hnj⟩
        · exact ⟨i, hi, hik, hni⟩
      have hpair : ∑ x ∈ {k, l}, min (n x) M ≤ ∑ x ∈ ids, min (n x) M := by
        refine Finset.sum_le_sum_of_subset fun x hx => ?_
        grind
      rw [Finset.sum_pair hlk.symm] at hpair
      omega
    · push Not at hfull
      have hsame : ∑ x ∈ ids, min (n x) M = ∑ x ∈ ids, n x :=
        Finset.sum_congr rfl fun x hx => Nat.min_eq_left (hfull x hx).le
      omega
  · intro h
    rw [sum_min_eq h]
    exact Nat.min_le_right _ _

/-- Counted by kind or one by one. -/
theorem sum_count_eq_length (xs : List Str) : ∑ i ∈ xs.toFinset, xs.count i = xs.length := by
  convert List.sum_toFinset_count_eq_length xs

/-! ## a request alone -/

/-- What the database does to an attempt. -/
inductive Attempt where
  /-- the transaction commits, with or without the clean-up -/
  | commits (cleans : Bool)
  | locked
  | failed
deriving DecidableEq

/-- The limiter serving one request at `now`, whose attempts fare as listed. -/
def aloneHandler (L : Limits) (now : Nat) : Handler limiterSig (List Attempt × Buckets L)
  | .clock, s => (now, s)
  | .transact _ _, ([], t) => (.failed, [], t)
  | .transact key now, (.commits cleans :: tries, t) =>
      (.count (t.transact cleans now key).1, tries, (t.transact cleans now key).2)
  | .transact _ _, (.locked :: tries, t) => (.locked, tries, t)
  | .transact _ _, (.failed :: tries, t) => (.failed, tries, t)

/-- The attempt that commits, among the first `left` ones: whether it
cleans up. -/
def landing : Nat → List Attempt → Option Bool
  | _ + 1, .commits cleans :: _ => some cleans
  | left + 1, .locked :: tries => landing left tries
  | _, _ => none

/-- A login that counts alone lands, or gives up. -/
theorem run_attempts {L : Limits} (now clock maxRequests : Nat) (key : BucketKey) (left : Nat)
    (tries : List Attempt) (t : Buckets L) :
    ∃ rest, (attempts key now maxRequests left).run (aloneHandler L clock) (tries, t) =
      match landing left tries with
      | some cleans =>
          (decide (maxRequests < (t.transact cleans now key).1), rest, (t.transact cleans now key).2)
      | none => (true, rest, t) := by
  induction left generalizing tries with
  | zero => exact ⟨tries, by cases tries <;> rfl⟩
  | succ left ih =>
      cases tries with
      | nil => exact ⟨[], rfl⟩
      | cons attempt tries =>
          cases attempt with
          | commits cleans => exact ⟨tries, rfl⟩
          | locked => exact ih tries
          | failed => exact ⟨tries, rfl⟩

/-! ## logins -/

/-- A `POST /login` in a window: its headers, the second of the window at
which it reads the clock, and how its attempts fare. -/
structure Login (L : Limits) where
  xApiKey : Option Str
  authorization : Option Str
  session : Option Str
  second : Fin (L .login).window
  tries : List Attempt

/-- The login gets through to the table. -/
def Login.lands {L : Limits} (l : Login L) : Bool :=
  (landing rateLimitDbLockAttempts l.tries).isSome

/-- Two logins that differ in the headers with keys only. -/
def Login.SameButKeys {L : Limits} (l l' : Login L) : Prop :=
  l.session = l'.session ∧ l.second = l'.second ∧ l.tries = l'.tries

namespace LimiterHost

variable (H : LimiterHost) (client : Option Str) (w : Nat)

def loginRequest (l : Login H.limits) : LimitedRequest where
  path := LimitedRoute.login.text
  xApiKey := l.xApiKey
  authorization := l.authorization
  session := l.session
  client := client

/-- The limiter serving logins from one address in the window `w`; it answers
whether the limit is exceeded. -/
def loginLimiter : Machine (Login H.limits) Bool (Buckets H.limits) := fun l t =>
  let r := (H.rateLimitExceeded (H.loginRequest client l)).run
    (aloneHandler H.limits (w * (H.limits .login).window + l.second)) (l.tries, t)
  (r.1, r.2.2)

/-- How many of the logins are let through. -/
def admitted (t : Buckets H.limits) (logins : List (Login H.limits)) : Nat :=
  ((H.loginLimiter client w).runAll logins t).1.count false

/-- The bucket of an identity in the window. -/
def loginKey (identity : Str) : BucketKey := ⟨.login, identity, w * (H.limits .login).window⟩

def loginIdentity (l : Login H.limits) : Str := H.identityHash (H.loginRequest client l)

/-- The logins that no failure of the database turns away. -/
def passing (logins : List (Login H.limits)) : List (Login H.limits) :=
  if H.disabled then logins else logins.filter Login.lands

/-- How many of the logins the buckets they name have room for. -/
def admissible (t : Buckets H.limits) (logins : List (Login H.limits)) : Nat :=
  if H.disabled then logins.length
  else
    ∑ identity ∈ ((H.passing logins).map (H.loginIdentity client)).toFinset,
      min (((H.passing logins).map (H.loginIdentity client)).count identity)
        ((H.limits .login).maxRequests - t.countOf (H.loginKey w identity))

/-- The logins are within the limit, or all count in one bucket: they carry
one and the same key, or none of them carries any. -/
def WithinLimit (logins : List (Login H.limits)) : Prop :=
  (H.passing logins).length ≤ (H.limits .login).maxRequests ∨
    H.disabled = false ∧ ∀ l ∈ H.passing logins, ∀ l' ∈ H.passing logins,
      H.keyDigest (H.loginRequest client l) = H.keyDigest (H.loginRequest client l')

/-- No login has been counted in the window. -/
def FreshWindow (t : Buckets H.limits) : Prop :=
  ∀ identity, t.row (H.loginKey w identity) = none

variable {H client w}

/-- The login is no page of the browser. -/
theorem not_isDnsBrowserPath_login : isDnsBrowserPath LimitedRoute.login.text = false := by decide

/-- The login is a limited route. -/
theorem matchRoute_login : matchRoute LimitedRoute.login.text = some .login := by decide

/-- Logins from one address share a bucket when they name the same key. -/
theorem loginIdentity_inj {l l' : Login H.limits} :
    H.loginIdentity client l = H.loginIdentity client l' ↔
      H.keyDigest (H.loginRequest client l) = H.keyDigest (H.loginRequest client l') := by
  have hid : ∀ l : Login H.limits, H.loginIdentity client l =
      (H.keyDigest (H.loginRequest client l)).elim (ipIdentity client) (lit "key:" ++ ·) := by
    intro l
    unfold loginIdentity identityHash
    rw [show (H.loginRequest client l).path = LimitedRoute.login.text from rfl,
      not_isDnsBrowserPath_login]
    cases H.keyDigest (H.loginRequest client l) <;> rfl
  rw [hid l, hid l']
  cases H.keyDigest (H.loginRequest client l) with
  | none =>
      cases H.keyDigest (H.loginRequest client l') with
      | none => simp
      | some d => simp [ipIdentity, lit]
  | some d =>
      cases H.keyDigest (H.loginRequest client l') with
      | none => simp [ipIdentity, lit]
      | some d' => simp

/-- A disabled limiter lets every login pass. -/
theorem loginLimiter_of_disabled (h : H.disabled = true) (l : Login H.limits)
    (t : Buckets H.limits) : H.loginLimiter client w l t = (false, t) := by
  simp [loginLimiter, rateLimitExceeded, h]

/-- What the limiter does with one login. -/
theorem loginLimiter_eq (h : H.disabled = false) (l : Login H.limits) (t : Buckets H.limits) :
    H.loginLimiter client w l t =
      match landing rateLimitDbLockAttempts l.tries with
      | some cleans =>
          let counted := t.transact cleans (w * (H.limits .login).window + l.second)
            (H.loginKey w (H.loginIdentity client l))
          (decide ((H.limits .login).maxRequests < counted.1), counted.2)
      | none => (true, t) := by
  have hstart : w * (H.limits .login).window + (l.second : Nat) -
      (w * (H.limits .login).window + (l.second : Nat)) % (H.limits .login).window =
        w * (H.limits .login).window := by
    rw [Nat.mul_comm, Nat.mul_add_mod, Nat.mod_eq_of_lt l.second.isLt, Nat.add_sub_cancel]
  have hroute : matchRoute (H.loginRequest client l).path = some .login := matchRoute_login
  unfold loginLimiter rateLimitExceeded
  simp only [h, Bool.false_eq_true, if_false, hroute, Prog.run_call]
  dsimp only [aloneHandler]
  obtain ⟨rest, hrun⟩ := run_attempts (L := H.limits) (w * (H.limits .login).window + l.second)
    (w * (H.limits .login).window + l.second) (H.limits .login).maxRequests
    (H.bucketKey .login (H.loginRequest client l) (w * (H.limits .login).window + l.second))
    rateLimitDbLockAttempts l.tries t
  rw [hrun, bucketKey, hstart]
  cases landing rateLimitDbLockAttempts l.tries <;> rfl

/-- A login counts in its window. -/
theorem le_expiresAt_loginKey (second : Fin (H.limits .login).window) (identity : Str) :
    w * (H.limits .login).window + second ≤ (H.loginKey w identity).expiresAt H.limits :=
  Nat.add_le_add_left (Nat.le_of_lt second.isLt) _

/-- The answer to one login and its bucket afterwards. -/
theorem loginLimiter_lands (h : H.disabled = false) {l : Login H.limits} (hl : l.lands = true)
    (t : Buckets H.limits) :
    (H.loginLimiter client w l t).1 = decide ((H.limits .login).maxRequests <
        t.countOf (H.loginKey w (H.loginIdentity client l)) + 1) ∧
      ∀ identity, (H.loginLimiter client w l t).2.countOf (H.loginKey w identity) =
        t.countOf (H.loginKey w identity) +
          if identity = H.loginIdentity client l then 1 else 0 := by
  obtain ⟨cleans, hcleans⟩ := Option.isSome_iff_exists.mp hl
  have hle := fun identity => le_expiresAt_loginKey (H := H) (w := w) l.second identity
  rw [loginLimiter_eq h, hcleans]
  dsimp only
  refine ⟨by rw [Buckets.fst_transact_of_le t cleans (hle _)], fun identity => ?_⟩
  rw [Buckets.countOf_transact t cleans (hle identity)]
  simp [loginKey]

/-- A login that cannot be counted is refused. -/
theorem loginLimiter_not_lands (h : H.disabled = false) {l : Login H.limits}
    (hl : l.lands = false) (t : Buckets H.limits) : H.loginLimiter client w l t = (true, t) := by
  have hnone : landing rateLimitDbLockAttempts l.tries = none := by
    simpa [Login.lands] using hl
  rw [loginLimiter_eq h, hnone]

/-! ## counting -/

/-- The first login and those after it. -/
theorem admitted_cons (t : Buckets H.limits) (l : Login H.limits) (logins : List (Login H.limits)) :
    H.admitted client w t (l :: logins) =
      (if (H.loginLimiter client w l t).1 then 0 else 1) +
        H.admitted client w (H.loginLimiter client w l t).2 logins := by
  unfold admitted
  rw [Machine.runAll_cons, List.count_cons]
  cases (H.loginLimiter client w l t).1 <;> simp [Nat.add_comm]

/-- A disabled limiter admits every login. -/
theorem admitted_of_disabled (h : H.disabled = true) (t : Buckets H.limits)
    (logins : List (Login H.limits)) : H.admitted client w t logins = logins.length := by
  unfold admitted
  have hrun : (H.loginLimiter client w).runAll logins t = (logins.map fun _ => false, t) :=
    Machine.runAll_of_stay fun l _ => loginLimiter_of_disabled h l t
  rw [hrun]
  simp

/-- The logins let through are those the buckets have room for, summed over
any identities that include the ones presented. -/
theorem admitted_eq_sum (h : H.disabled = false) (ids : Finset Str) (t : Buckets H.limits)
    {logins : List (Login H.limits)}
    (hids : ∀ l ∈ logins, l.lands = true → H.loginIdentity client l ∈ ids) :
    H.admitted client w t logins =
      ∑ identity ∈ ids,
        min (((logins.filter Login.lands).map (H.loginIdentity client)).count identity)
          ((H.limits .login).maxRequests - t.countOf (H.loginKey w identity)) := by
  induction logins generalizing t with
  | nil => simp [admitted]
  | cons l logins ih =>
      have ih := fun t => ih t fun l' hl' => hids l' (List.mem_cons_of_mem _ hl')
      rw [admitted_cons]
      cases hl : l.lands with
      | false =>
          rw [loginLimiter_not_lands h hl, List.filter_cons_of_neg (by simp [hl]), ih]
          simp
      | true =>
          obtain ⟨hans, hcount⟩ := loginLimiter_lands (w := w) h hl t
          have hmem := hids l List.mem_cons_self hl
          rw [hans, ih, List.filter_cons_of_pos hl, List.map_cons]
          -- the bucket of this login has one more, and room for one less
          have hterm : ∀ identity ∈ ids,
              min ((H.loginIdentity client l ::
                  (logins.filter Login.lands).map (H.loginIdentity client)).count identity)
                ((H.limits .login).maxRequests - t.countOf (H.loginKey w identity)) =
              (if identity = H.loginIdentity client l then
                if (H.limits .login).maxRequests < t.countOf (H.loginKey w identity) + 1 then 0
                else 1 else 0) +
              min (((logins.filter Login.lands).map (H.loginIdentity client)).count identity)
                ((H.limits .login).maxRequests -
                  (H.loginLimiter client w l t).2.countOf (H.loginKey w identity)) := by
            intro identity _
            rw [hcount identity, List.count_cons]
            by_cases heq : identity = H.loginIdentity client l
            · simp only [heq, beq_self_eq_true, if_true]
              split <;> omega
            · have hne : (H.loginIdentity client l == identity) = false := by
                simpa using fun hs => heq hs.symm
              simp [heq, hne]
          rw [Finset.sum_congr rfl hterm, Finset.sum_add_distrib, Finset.sum_ite_eq' ids,
            if_pos hmem]
          simp

/-- What is admitted is what the buckets admit. -/
theorem admitted_eq_admissible (t : Buckets H.limits) (logins : List (Login H.limits)) :
    H.admitted client w t logins = H.admissible client w t logins := by
  unfold admissible
  cases h : H.disabled with
  | true => simp [admitted_of_disabled h]
  | false =>
      simp only [Bool.false_eq_true, if_false]
      have hpass : H.passing logins = logins.filter Login.lands := by simp [passing, h]
      rw [hpass]
      refine admitted_eq_sum h _ t fun l hl hlands => ?_
      rw [List.mem_toFinset]
      exact List.mem_map_of_mem (List.mem_filter.mpr ⟨hl, hlands⟩)

/-- When the logins keep to the limit. -/
theorem withinLimit_iff (h : H.disabled = false) {logins : List (Login H.limits)} :
    H.WithinLimit client logins ↔
      let ids := (H.passing logins).map (H.loginIdentity client)
      ∑ i ∈ ids.toFinset, ids.count i ≤ (H.limits .login).maxRequests ∨
        ∀ i ∈ ids.toFinset, ∀ j ∈ ids.toFinset, 0 < ids.count i → 0 < ids.count j → i = j := by
  unfold WithinLimit
  dsimp only
  rw [sum_count_eq_length, List.length_map]
  refine or_congr_right ?_
  simp only [h, true_and, List.mem_toFinset, List.mem_map, List.count_pos_iff]
  constructor
  · intro hkeys i hi j hj _ _
    obtain ⟨l, hl, rfl⟩ := hi
    obtain ⟨l', hl', rfl⟩ := hj
    exact loginIdentity_inj.mpr (hkeys l hl l' hl')
  · intro hids l hl l' hl'
    exact loginIdentity_inj.mp (hids _ ⟨l, hl, rfl⟩ _ ⟨l', hl', rfl⟩ ⟨l, hl, rfl⟩ ⟨l', hl', rfl⟩)

/-- What a fresh window admits. -/
theorem admissible_fresh (h : H.disabled = false) {t : Buckets H.limits}
    (ht : H.FreshWindow w t) (logins : List (Login H.limits)) :
    H.admissible client w t logins =
      let ids := (H.passing logins).map (H.loginIdentity client)
      ∑ i ∈ ids.toFinset, min (ids.count i) (H.limits .login).maxRequests := by
  unfold admissible
  simp only [h, Bool.false_eq_true, if_false]
  refine Finset.sum_congr rfl fun i _ => ?_
  rw [Buckets.countOf, ht i]
  rfl

/-- From the start of the window the limit holds for logins within it and for
those that share a bucket, and for no others. -/
theorem admissible_le_iff {t : Buckets H.limits} (ht : H.FreshWindow w t)
    (logins : List (Login H.limits)) :
    H.admissible client w t logins ≤ (H.limits .login).maxRequests ↔
      H.WithinLimit client logins := by
  cases h : H.disabled with
  | true => simp [admissible, WithinLimit, passing, h]
  | false =>
      rw [admissible_fresh h ht, withinLimit_iff h]
      exact sum_min_le_iff _ _ (H.limits .login).maxRequests_pos

/-- Within the limit as many are admitted as may be. -/
theorem admissible_eq_of_withinLimit {t : Buckets H.limits} (ht : H.FreshWindow w t)
    {logins : List (Login H.limits)} (hw : H.WithinLimit client logins) :
    H.admissible client w t logins =
      min (H.passing logins).length (H.limits .login).maxRequests := by
  cases h : H.disabled with
  | true =>
      have hle : logins.length ≤ (H.limits .login).maxRequests := by
        simpa [WithinLimit, passing, h] using hw
      simp [admissible, passing, h, hle]
  | false =>
      rw [admissible_fresh h ht]
      dsimp only
      rw [sum_min_eq ((withinLimit_iff h).mp hw), sum_count_eq_length, List.length_map]

/-- The keys do not matter to how many pass. -/
theorem length_passing_eq {logins logins' : List (Login H.limits)}
    (h : List.Forall₂ Login.SameButKeys logins logins') :
    (H.passing logins).length = (H.passing logins').length := by
  unfold passing
  split
  · exact h.length_eq
  · induction h with
    | nil => rfl
    | @cons l l' ls ls' hl hls ih =>
        have hlands : l.lands = l'.lands := by
          unfold Login.lands
          rw [hl.2.2]
        rw [List.filter_cons, List.filter_cons, hlands]
        split
        · rw [List.length_cons, List.length_cons, ih]
        · exact ih

/-- The limiter lets through what the buckets have room for.  From the start
of a window that is within the limit exactly for logins that are, and for
those that share a bucket; and changing the keys of such logins changes how
many get through exactly when it makes them others. -/
theorem logins_limited_iff (H : LimiterHost) (client : Option Str) (w : Nat) (t : Buckets H.limits)
    (logins : List (Login H.limits)) :
    (H.admitted client w t logins ≤ (H.limits .login).maxRequests ↔
        H.admissible client w t logins ≤ (H.limits .login).maxRequests) ∧
      (H.FreshWindow w t →
        (H.admitted client w t logins ≤ (H.limits .login).maxRequests ↔
          H.WithinLimit client logins) ∧
        ∀ logins', List.Forall₂ Login.SameButKeys logins logins' → H.WithinLimit client logins →
          (H.admitted client w t logins' = H.admitted client w t logins ↔
            H.WithinLimit client logins')) := by
  simp only [admitted_eq_admissible]
  refine ⟨trivial, fun ht => ⟨admissible_le_iff ht logins, fun logins' hsame hw => ?_⟩⟩
  have hle := (admissible_le_iff ht logins).mpr hw
  constructor
  · intro heq
    rw [← admissible_le_iff ht, heq]
    exact hle
  · intro hw'
    rw [admissible_eq_of_withinLimit ht hw, admissible_eq_of_withinLimit ht hw',
      length_passing_eq hsame]

end LimiterHost

/-! ## two logins a minute -/

/-- A host that allows one login a minute. -/
def onePerMinute : LimiterHost where
  ucd := .ascii
  getenv name := if name = lit "RATE_LIMIT_LOGIN" then some (lit "1:60") else none
  sha256Hex key :=
    if key = lit "a" then lit "ca978112ca1bbdcafac231b39a23dc4da786eff8147c4e72b9807785afee48bb"
    else lit "3e23e8160039594a33894f6564e1b1348bbd7a0088d42c4acb73eeaed59c009d"
  sessionUsername _ := none

/-- A login with a key, at the start of a window. -/
def keyedLogin (key : Option Str) : Login onePerMinute.limits :=
  ⟨key, none, none, ⟨0, (onePerMinute.limits .login).window_pos⟩, [.commits false]⟩

/-- An empty table is a fresh window. -/
theorem freshWindow_empty (w : Nat) : onePerMinute.FreshWindow w .empty := fun _ => rfl

/-- Two logins without a key: the second one is refused. -/
theorem logins_limited_keyless :
    onePerMinute.admitted (some (lit "203.0.113.10")) 0 .empty [keyedLogin none, keyedLogin none] ≤
      (onePerMinute.limits .login).maxRequests :=
  ((LimiterHost.logins_limited_iff onePerMinute (some (lit "203.0.113.10")) 0 .empty
    [keyedLogin none, keyedLogin none]).2 (freshWindow_empty 0)).1.mpr
    (.inr ⟨by decide, by decide⟩)

/-- Two logins with a key each: both get through. -/
theorem rotating_keys_admitted :
    ¬ onePerMinute.admitted (some (lit "203.0.113.10")) 0 .empty
        [keyedLogin (some (lit "a")), keyedLogin (some (lit "b"))] ≤
      (onePerMinute.limits .login).maxRequests := by
  decide

end ApiToDns
