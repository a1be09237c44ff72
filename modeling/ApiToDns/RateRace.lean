import ApiToDns.Lib.Outline
import ApiToDns.LoginLimit
import Mathlib.Data.Fintype.Card
import Mathlib.Data.Fintype.BigOperators

/-!
# RateRace

Requests that the limiter checks at the same time: the clock goes on between
their steps, attempts to count fail and are made again, and a transaction may
delete the buckets that have expired by the clock its own request has read.

A request is counted in the window in which it has read the clock, however
late.  Its bucket may have been deleted by then, and is begun anew.
-/

namespace ApiToDns

open Py

/-- One step of the world: the time that passes before an operation, and how
an attempt fares. -/
structure RaceTurn where
  elapsed : Nat
  attempt : Attempt
deriving DecidableEq

/-- The clock and the table, and what has happened: the counts read by the
transactions that committed, and the attempts that failed. -/
structure RaceState (ι : Type) (L : Limits) where
  clock : Nat
  buckets : Buckets L
  counted : List (ι × BucketKey × Nat)
  failures : List (ι × Attempt)

section

variable {ι : Type} {L : Limits}

def raceEnv (ι : Type) (L : Limits) : Env limiterSig ι RaceTurn (RaceState ι L) where
  ready _ _ _ := true
  reply i x o s :=
    let clock := s.clock + x.elapsed
    match o with
    | .clock => (clock, { s with clock })
    | .transact key now =>
        match x.attempt with
        | .commits cleans =>
            let r := s.buckets.transact cleans now key
            (.count r.1, { s with clock, buckets := r.2, counted := (i, key, r.1) :: s.counted })
        | .locked => (.locked, { s with clock, failures := (i, .locked) :: s.failures })
        | .failed => (.failed, { s with clock, failures := (i, .failed) :: s.failures })

namespace RaceState

variable (s : RaceState ι L)

/-- The transactions that let a request into the bucket. -/
def grants (key : BucketKey) : List (ι × BucketKey × Nat) :=
  s.counted.filter fun e => e.2.1 = key ∧ e.2.2 ≤ (L key.route).maxRequests

variable [DecidableEq ι] (i : ι)

/-- What the request `i` has been counted as. -/
def countedOf : List (BucketKey × Nat) := (s.counted.filter fun e => e.1 = i).map Prod.snd

/-- The failures the request `i` has met. -/
def failuresOf : List Attempt := (s.failures.filter fun e => e.1 = i).map Prod.snd

/-- The database work of the request has failed for good: on the last of its
attempts, or other than by a lock. -/
def FailedForGood : Prop :=
  .failed ∈ s.failuresOf i ∨ rateLimitDbLockAttempts ≤ (s.failuresOf i).count .locked

end RaceState

/-- A transaction finds the bucket of its request, or is the first to let a
request into it: no clean-up has deleted the bucket since. -/
def keepsCount : Cond limiterSig ι RaceTurn (RaceState ι L) := fun _ x o s =>
  match o, x.attempt with
  | .transact key now, .commits cleans =>
      (if cleans then s.buckets.cleanup now else s.buckets).row key = none → s.grants key = []
  | _, _ => True

/-- No bucket has let in more than its count, nor more than the limit. -/
def WithinCounts (s : RaceState ι L) : Prop :=
  ∀ key, (s.grants key).length ≤ (L key.route).maxRequests ∧
    ∀ b, s.buckets.row key = some b → (s.grants key).length ≤ b.count

/-- The requests that were let through, after one more. -/
theorem grants_cons (s : RaceState ι L) (i : ι) (key key' : BucketKey) (n clock : Nat)
    (t : Buckets L) :
    (RaceState.mk clock t ((i, key, n) :: s.counted) s.failures).grants key' =
      if key = key' ∧ n ≤ (L key'.route).maxRequests then (i, key, n) :: s.grants key'
      else s.grants key' := by
  simp [RaceState.grants, List.filter_cons]

/-- The rows after a request. -/
theorem row_transact (t : Buckets L) (cleans : Bool) (now : Nat) (key key' : BucketKey) :
    (t.transact cleans now key).2.row key' =
      if key' = key then
        some (Buckets.counted (L := L) key ((if cleans then t.cleanup now else t).row key))
      else (if cleans then t.cleanup now else t).row key' := by
  show (Buckets.upsert _ key).row key' = _
  by_cases h : key' = key
  · rw [if_pos h, h, Buckets.row_upsert_self]
  · rw [if_neg h, Buckets.row_upsert_of_ne _ h]

/-- A clean-up leaves a bucket as it is or deletes it. -/
theorem row_of_cleaned {t : Buckets L} {cleans : Bool} {now : Nat} {key : BucketKey} {b : Bucket}
    (h : (if cleans then t.cleanup now else t).row key = some b) : t.row key = some b := by
  cases cleans
  · exact h
  · exact (Option.filter_eq_some_iff.mp h).1

/-- A commit keeps the counts. -/
theorem withinCounts_commits {s : RaceState ι L} (h : WithinCounts s) {i : ι} {key : BucketKey}
    {now clock : Nat} {cleans : Bool}
    (hkeeps : (if cleans then s.buckets.cleanup now else s.buckets).row key = none →
      s.grants key = []) :
    WithinCounts (⟨clock, (s.buckets.transact cleans now key).2,
      (i, key, (s.buckets.transact cleans now key).1) :: s.counted, s.failures⟩ : RaceState ι L) := by
  intro key'
  rw [grants_cons]
  dsimp only
  rw [row_transact]
  have hold := h key'
  by_cases heq : key' = key
  · subst heq
    simp only [true_and, if_true, Option.some.injEq, forall_eq']
    rw [Buckets.fst_transact, Buckets.countOf]
    cases hrow : (if cleans then s.buckets.cleanup now else s.buckets).row key' with
    | none =>
        -- a bucket begun anew has let nobody in
        rw [hkeeps hrow]
        simp only [Buckets.counted, Option.map_none, Option.getD_none]
        split <;> simp_all
    | some b =>
        have hb := hold.2 b (row_of_cleaned hrow)
        simp only [Buckets.counted, Option.map_some, Option.getD_some]
        split
        · simp only [List.length_cons]
          omega
        · omega
  · have hne : key ≠ key' := fun hkey => heq hkey.symm
    simp only [hne, heq, false_and, if_false]
    exact ⟨hold.1, fun b hb => hold.2 b (row_of_cleaned hb)⟩

/-- A step that keeps its row keeps the counts. -/
theorem withinCounts_reply {i : ι} {x : RaceTurn} {o : LimiterOp} {s : RaceState ι L}
    (h : WithinCounts s) (hkeeps : keepsCount i x o s) :
    WithinCounts ((raceEnv ι L).reply i x o s).2 := by
  cases o with
  | clock => exact h
  | transact key now =>
      obtain ⟨elapsed, attempt⟩ := x
      cases attempt with
      | commits cleans => exact withinCounts_commits h hkeeps
      | locked => exact h
      | failed => exact h

/-! ## one request among others -/

section

variable [DecidableEq ι]

/-- What a request relies on the others for: they are not counted, and do not
fail, in its name. -/
def raceTerms (ι : Type) [DecidableEq ι] (L : Limits) :
    Terms limiterSig ι RaceTurn (RaceState ι L) where
  env := raceEnv ι L
  cond _ _ _ _ := True
  inv _ := True
  rely i s s' := s'.countedOf i = s.countedOf i ∧ s'.failuresOf i = s.failuresOf i

/-- What a request that got the answer `exceeded` has met. -/
def RaceState.Answered (L : Limits) (i : ι) (exceeded : Bool) (s : RaceState ι L) : Prop :=
  (s.FailedForGood i → exceeded = true) ∧
    (exceeded = false → ∀ e ∈ s.countedOf i, e.2 ≤ (L e.1.route).maxRequests)

/-- The others leave what an actor has logged. -/
theorem stable_logs (i : ι) (P : List (BucketKey × Nat) → List Attempt → Prop) :
    (raceTerms ι L).Stable i fun s => P (s.countedOf i) (s.failuresOf i) := by
  intro s s' _ _ hrely h
  rw [hrely.1, hrely.2]
  exact h

/-- The step of one actor is what the others rely on. -/
theorem rely_reply {i j : ι} (hj : j ≠ i) (x : RaceTurn) (o : LimiterOp) (s : RaceState ι L) :
    (raceTerms ι L).rely j s ((raceEnv ι L).reply i x o s).2 := by
  have hij : i ≠ j := fun h => hj h.symm
  obtain ⟨elapsed, attempt⟩ := x
  cases o with
  | clock => exact ⟨rfl, rfl⟩
  | transact key now =>
      cases attempt <;>
        simp [raceTerms, raceEnv, RaceState.countedOf, RaceState.failuresOf, hij]

/-- A request that has met locks only, and not too many of them, is not
counted yet and has not failed for good. -/
theorem outline_attempts (i : ι) (key : BucketKey) (now left : Nat)
    (hleft : left ≤ rateLimitDbLockAttempts) :
    (raceTerms ι L).Outline i (fun s => ¬ s.FailedForGood i) (RaceState.Answered L i)
      (attempts key now (L key.route).maxRequests left) fun s =>
        s.countedOf i = [] ∧
          s.failuresOf i = List.replicate (rateLimitDbLockAttempts - left) .locked := by
  induction left with
  | zero =>
      intro s _ _
      exact ⟨fun _ => rfl, fun h => by cases h⟩
  | succ left ih =>
      have hlive : ∀ s : RaceState ι L, s.failuresOf i =
          List.replicate (rateLimitDbLockAttempts - (left + 1)) .locked → ¬ s.FailedForGood i := by
        intro s hs
        simp only [RaceState.FailedForGood, hs, List.mem_replicate, List.count_replicate_self]
        simp
        omega
      refine ⟨fun s _ hs => hlive s hs.2, fun x s _ hs _ _ =>
        ⟨trivial, fun j hj => rely_reply hj x _ s, ?_⟩⟩
      obtain ⟨elapsed, attempt⟩ := x
      cases attempt with
      | commits cleans =>
          refine ⟨_, stable_logs i fun counted failures =>
            counted = [(key, (s.buckets.transact cleans now key).1)] ∧
              failures = List.replicate (rateLimitDbLockAttempts - (left + 1)) .locked, ?_, ?_⟩
          · have hcounted := hs.1
            simp only [RaceState.countedOf] at hcounted
            exact ⟨by simp [raceTerms, raceEnv, RaceState.countedOf, hcounted], hs.2⟩
          · intro s' _ hs'
            refine ⟨fun hfailed => absurd hfailed (hlive s' hs'.2), fun hans e he => ?_⟩
            rw [hs'.1, List.mem_singleton] at he
            subst he
            simpa [raceTerms, raceEnv] using hans
      | locked =>
          refine ⟨_, stable_logs i fun counted failures => counted = [] ∧
            failures = List.replicate (rateLimitDbLockAttempts - left) .locked, ?_, ih (by omega)⟩
          have hfailures := hs.2
          simp only [RaceState.failuresOf] at hfailures
          have hone : rateLimitDbLockAttempts - left = rateLimitDbLockAttempts - (left + 1) + 1 := by
            omega
          refine ⟨hs.1, ?_⟩
          rw [hone, List.replicate_succ]
          simp [raceTerms, raceEnv, RaceState.failuresOf, hfailures]
      | failed =>
          refine ⟨fun _ => True, fun _ _ _ _ _ _ => trivial, trivial, fun _ _ _ => ?_⟩
          exact ⟨fun _ => rfl, fun h => by cases h⟩

/-- The outline of the limiter. -/
theorem outline_rateLimitExceeded (H : LimiterHost) (req : LimitedRequest) (i : ι) :
    (raceTerms ι H.limits).Outline i (fun s => ¬ s.FailedForGood i)
      (RaceState.Answered H.limits i) (H.rateLimitExceeded req) fun s =>
        s.countedOf i = [] ∧ s.failuresOf i = [] := by
  have hlive : ∀ s : RaceState ι H.limits, s.failuresOf i = [] → ¬ s.FailedForGood i := by
    intro s hs
    simp [RaceState.FailedForGood, hs, rateLimitDbLockAttempts]
  have hunlimited : (raceTerms ι H.limits).Outline i (fun s => ¬ s.FailedForGood i)
      (RaceState.Answered H.limits i) (.ret false) fun s =>
        s.countedOf i = [] ∧ s.failuresOf i = [] := by
    intro s _ hs
    exact ⟨fun hfailed => absurd hfailed (hlive s hs.2), fun _ e he => by simp [hs.1] at he⟩
  unfold LimiterHost.rateLimitExceeded
  split
  · exact hunlimited
  · cases matchRoute req.path with
    | none => exact hunlimited
    | some route =>
        refine ⟨fun s _ hs => hlive s hs.2, fun x s _ hs _ _ =>
          ⟨trivial, fun j hj => rely_reply hj x _ s, _,
            stable_logs i fun counted failures => counted = [] ∧ failures = [], ?_, ?_⟩⟩
        · exact hs
        · have h := outline_attempts (L := H.limits) i
            (H.bucketKey route req (s.clock + x.elapsed)) (s.clock + x.elapsed)
            rateLimitDbLockAttempts (le_refl _)
          rw [Nat.sub_self, List.replicate_zero] at h
          exact h

end

end

/-! ## requests at the same time -/

namespace LimiterHost

variable {ι : Type} (H : LimiterHost)

/-- The requests about to be checked. -/
def race (requests : ι → LimitedRequest) (clock : Nat) (t : Buckets H.limits) :
    Config limiterSig ι (RaceState ι H.limits) Bool :=
  ⟨⟨clock, t, [], []⟩, fun i => H.rateLimitExceeded (requests i)⟩

/-- The request has been let through, and was counted in the bucket. -/
def AdmittedFor (c : Config limiterSig ι (RaceState ι H.limits) Bool) (key : BucketKey) (i : ι) :
    Prop :=
  c.answer? id i = some false ∧ ∃ n, (i, key, n) ∈ c.shared.counted

section

variable {H} [DecidableEq ι] {requests : ι → LimitedRequest} {clock : Nat} {t : Buckets H.limits}
  {es : List (ι × RaceTurn)}

variable (requests clock t es) in
/-- Every run keeps the outline. -/
theorem outlined_race : (raceTerms ι H.limits).Outlined (fun i s => ¬ s.FailedForGood i)
    (RaceState.Answered H.limits) ((H.race requests clock t).turns (raceEnv ι H.limits) es) := by
  have hrun : (H.race requests clock t).MeetsRun (raceTerms ι H.limits).env
      (raceTerms ι H.limits).cond es := Config.meetsRun_of_forall (fun _ _ _ _ => trivial) es
  refine Terms.outlined_turns ⟨trivial, fun i => ?_⟩ hrun
  exact ⟨_, stable_logs i fun counted failures => counted = [] ∧ failures = [], ⟨rfl, rfl⟩,
    outline_rateLimitExceeded H (requests i) i⟩

/-- A request that cannot be counted is refused. -/
theorem answer_of_failedForGood {i : ι}
    (h : ((H.race requests clock t).turns (raceEnv ι H.limits) es).shared.FailedForGood i) :
    ((H.race requests clock t).turns (raceEnv ι H.limits) es).answer? id i = some true := by
  have hout := outlined_race requests clock t es
  cases hi : ((H.race requests clock t).turns (raceEnv ι H.limits) es).procs i with
  | ret exceeded =>
      rw [Config.answer?_of_ret hi, (hout.post_of_ret hi).1 h]
      rfl
  | call o k => exact absurd h (hout.live_of_call hi)

/-- A request that is admitted was let through. -/
theorem mem_grants_of_admittedFor {key : BucketKey} {i : ι}
    (h : H.AdmittedFor ((H.race requests clock t).turns (raceEnv ι H.limits) es) key i) :
    i ∈ (((H.race requests clock t).turns (raceEnv ι H.limits) es).shared.grants key).map
      Prod.fst := by
  obtain ⟨hans, n, hn⟩ := h
  have hout := outlined_race requests clock t es
  cases hi : ((H.race requests clock t).turns (raceEnv ι H.limits) es).procs i with
  | ret exceeded =>
      rw [Config.answer?_of_ret hi, Option.some.injEq] at hans
      have hle := (hout.post_of_ret hi).2 hans (key, n) (List.mem_map.mpr ⟨(i, key, n), by simp [hn]⟩)
      exact List.mem_map.mpr ⟨(i, key, n), by simp [RaceState.grants, hn, hle]⟩
  | call o k =>
      rw [Config.answer?_of_call hi] at hans
      contradiction

/-- However their steps fall, a request whose database work fails for good is
rejected; and no bucket lets in more than its limit, as long as no clean-up
deletes it between two requests that it counts. -/
theorem race_admits_limit (H : LimiterHost) (requests : ι → LimitedRequest) (clock : Nat)
    (t : Buckets H.limits) (es : List (ι × RaceTurn)) :
    let c := (H.race requests clock t).turns (raceEnv ι H.limits) es
    (∀ i, c.shared.FailedForGood i → c.answer? id i = some true) ∧
      ((H.race requests clock t).MeetsRun (raceEnv ι H.limits) keepsCount es →
        ∀ key (admitted : Finset ι), (∀ i ∈ admitted, H.AdmittedFor c key i) →
          admitted.card ≤ (H.limits key.route).maxRequests) := by
  refine ⟨fun i => answer_of_failedForGood, fun hm key admitted hadmitted => ?_⟩
  have hcounts := Config.inv_turns (I := WithinCounts)
    (fun i x o s hs _ hkeeps => withinCounts_reply hs hkeeps)
    (fun key => by simp [race, RaceState.grants]) hm
  -- every request that got in has its own entry
  have hsub : admitted ⊆ ((((H.race requests clock t).turns (raceEnv ι H.limits) es).shared.grants
      key).map Prod.fst).toFinset := fun i hi =>
    List.mem_toFinset.mpr (mem_grants_of_admittedFor (hadmitted i hi))
  calc admitted.card
      ≤ _ := Finset.card_le_card hsub
    _ ≤ _ := List.toFinset_card_le _
    _ = _ := List.length_map _
    _ ≤ _ := (hcounts key).1

end

end LimiterHost

/-! ## a bucket deleted under way -/

/-- A request from one address to a route that `onePerMinute` limits to one. -/
def raceRequest (_ : Fin 3) : LimitedRequest :=
  ⟨lit "/login", none, none, none, some (lit "203.0.113.10")⟩

def raceKey : BucketKey := ⟨.login, lit "ip:203.0.113.10", 0⟩

/-- Two requests of one minute, the first one let in before the second reads
the clock. -/
def raceInTurn : List (Fin 3 × RaceTurn) :=
  [(0, ⟨10, .commits true⟩), (0, ⟨0, .locked⟩), (0, ⟨1, .commits true⟩),
    (1, ⟨5, .commits true⟩), (1, ⟨0, .commits true⟩)]

/-- A request reads the clock late in its minute, and is held up while another
one is let in and a third, of the next minute, cleans up. -/
def raceHeldUp : List (Fin 3 × RaceTurn) :=
  [(0, ⟨59, .commits false⟩), (1, ⟨0, .commits false⟩), (1, ⟨0, .commits false⟩),
    (2, ⟨2, .commits true⟩), (2, ⟨0, .commits true⟩), (0, ⟨0, .commits false⟩)]

instance {H : LimiterHost} {ι : Type} [DecidableEq ι] (i : ι) (x : RaceTurn) (o : LimiterOp)
    (s : RaceState ι H.limits) : Decidable (keepsCount i x o s) := by
  unfold keepsCount
  split <;> infer_instance

/-- Of two requests in turn one gets in. -/
theorem race_admits_limit_in_turn :
    ({0} : Finset (Fin 3)).card ≤ (onePerMinute.limits .login).maxRequests :=
  (LimiterHost.race_admits_limit onePerMinute raceRequest 0 .empty raceInTurn).2 (by decide)
    raceKey {0} fun i hi => by
      rw [Finset.mem_singleton] at hi
      subst hi
      exact ⟨by decide, 1, by decide⟩

/-- Both requests of the minute get in. -/
theorem held_up_request_admitted :
    ¬ ∀ admitted : Finset (Fin 3),
      (∀ i ∈ admitted, onePerMinute.AdmittedFor ((onePerMinute.race raceRequest 0 .empty).turns
        (raceEnv (Fin 3) onePerMinute.limits) raceHeldUp) raceKey i) →
        admitted.card ≤ (onePerMinute.limits .login).maxRequests := by
  intro h
  have htwo := h {0, 1} fun i hi => by
    rw [Finset.mem_insert, Finset.mem_singleton] at hi
    rcases hi with rfl | rfl
    · exact ⟨by decide, 1, by decide⟩
    · exact ⟨by decide, 1, by decide⟩
  exact absurd htwo (by decide)

end ApiToDns
