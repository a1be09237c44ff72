import ApiToDns.Lib.Outline
import ApiToDns.LetsEncrypt

/-!
# Enrollments

Enrollment operations that run at the same time: they share the stored
enrollment and the row with the progress, and only the asynchronous start asks
whether another one is in progress.

A flow is an order, from its preparation to the end of its clean-up: it is
unfinished while its enrollment is stored or an operation is at it.
-/

namespace ApiToDns

open Py

/-! ## the world -/

/-- The choices of the world for one operation: the exception it raises, and
what ACME, the provider and the tables answer. -/
structure EnrollTurn where
  raised : Option LeExc := none
  challenges : List Challenge := []
  records : List (List Str) := []
  zone : Option LeZone := none
  due : Bool := false

/-- What an operation has destroyed. -/
inductive Harm (ι : Type) where
  /-- the stored enrollment of a flow it is not at -/
  | enrollment (actor : ι) (flow : Nat)
  /-- the progress of another one's unfinished flow -/
  | progress (actor owner : ι)
deriving DecidableEq

/-- The settings, and what has happened: who wrote the progress last, which
flow each operation is at (a cancel may be at none), the order each operation
has got, and the harm done. -/
structure EnrollState (ι : Type) where
  progress : Option EnrollmentProgress
  owner : Option ι
  config : Option LeConfig
  enrollment : Option Enrollment
  nextUri : Nat
  acting : List (ι × Option Nat)
  prepared : List (ι × Nat)
  harmed : List (Harm ι)

section

variable {ι : Type}

namespace EnrollState

variable (s : EnrollState ι)

def storedFlow : Option Nat := s.enrollment.map (·.order.uri)

/-- Between the preparation of its order and the end of its clean-up. -/
def Unfinished (flow : Nat) : Prop :=
  s.storedFlow = some flow ∨ ∃ e ∈ s.acting, e.2 = some flow

instance (flow : Nat) : Decidable (s.Unfinished flow) := by
  unfold Unfinished
  infer_instance

variable [DecidableEq ι] (i : ι)

/-- The operation is at a flow. -/
def act (flow : Option Nat) : EnrollState ι :=
  { s with acting := (i, flow) :: s.acting.filter fun e => e.1 ≠ i }

def leave : EnrollState ι := { s with acting := s.acting.filter fun e => e.1 ≠ i }

/-- The harm of replacing or clearing the stored enrollment. -/
def enrollmentHarm : List (Harm ι) :=
  match s.storedFlow with
  | some flow => if (i, some flow) ∈ s.acting then [] else [.enrollment i flow]
  | none => []

/-- The harm of writing the progress. -/
def progressHarm : List (Harm ι) :=
  match s.owner with
  | some owner =>
      if owner ≠ i ∧ (enrollmentIsRunning s.progress = true ∨
          ∃ e ∈ s.prepared, e.1 = owner ∧ s.Unfinished e.2) then [.progress i owner]
      else []
  | none => []

def setEnrollment (enrollment : Option Enrollment) : EnrollState ι :=
  { s with enrollment, harmed := s.enrollmentHarm i ++ s.harmed }

def setProgress (progress : EnrollmentProgress) : EnrollState ι :=
  { s with progress := some progress, owner := some i, harmed := s.progressHarm i ++ s.harmed }

end EnrollState

variable [DecidableEq ι]

/-- The operations; an operation that has reported its end is at no flow. -/
def enrollEnv (ι : Type) [DecidableEq ι] : Env leSig ι EnrollTurn (EnrollState ι) where
  ready _ _ _ := true
  reply i x o s :=
    match x.raised, o with
    | some exc, .respond => (.error exc, s.leave i)
    | some exc, _ => (.error exc, s)
    | none, .tryBegin =>
        if enrollmentIsRunning s.progress then (.ok false, s)
        else (.ok true, s.setProgress i ⟨.starting, false⟩)
    | none, .progress progress =>
        (.ok (), if progress.done then (s.setProgress i progress).leave i
          else s.setProgress i progress)
    | none, .isInProgress => (.ok (enrollmentIsRunning s.progress), s)
    | none, .markFinished => (.ok (), s.setProgress i ⟨.error, true⟩)
    | none, .saveConfig config => (.ok (), { s with config := some config })
    | none, .getConfig => (.ok s.config, s)
    | none, .writeConfig config => (.ok (), { s with config := some config })
    | none, .certDue => (.ok x.due, s)
    | none, .newOrder _ =>
        (.ok ⟨s.nextUri, x.challenges⟩,
          { s.act i (some s.nextUri) with nextUri := s.nextUri + 1
                                          prepared := (i, s.nextUri) :: s.prepared })
    | none, .pollAndFinalize _ => (.ok (), s)
    | none, .installCert => (.ok (), s)
    | none, .getEnrollment => (.ok s.enrollment, s.act i s.storedFlow)
    | none, .writeEnrollment enrollment => (.ok (), s.setEnrollment i (some enrollment))
    | none, .clearEnrollment => (.ok (), s.setEnrollment i none)
    | none, .zoneRow _ => (.ok x.zone, s)
    | none, .createTxt .. => (.ok (), s)
    | none, .deleteTxt .. => (.ok (), s)
    | none, .getTxt .. => (.ok x.records, s)
    | none, .audit _ => (.ok (), s)
    | none, .deleteZone _ => (.ok (), s)
    | none, .respond => (.ok (), s.leave i)

/-- Operations are at a flow one at a time, none begins while an enrollment is
stored, and a `finally` marks the progress of its own worker. -/
def oneAtATime : Cond leSig ι EnrollTurn (EnrollState ι) := fun i x o s =>
  match x.raised, o with
  | none, .newOrder _ => s.enrollment = none ∧ ∀ e ∈ s.acting, e.1 = i
  | none, .getEnrollment => ∀ e ∈ s.acting, e.1 = i
  | none, .tryBegin =>
      enrollmentIsRunning s.progress = false → s.enrollment = none ∧ s.acting = []
  | none, .markFinished => s.owner = some i
  | _, _ => True

/-- One operation at most is at a flow, which is the stored one if there is
one, and no harm has been done. -/
structure Exclusive (s : EnrollState ι) : Prop where
  one : ∀ e ∈ s.acting, ∀ e' ∈ s.acting, e = e'
  own : ∀ e ∈ s.acting, ∀ flow, s.storedFlow = some flow → e.2 = some flow
  fresh : ∀ flow, s.Unfinished flow → flow < s.nextUri
  unharmed : s.harmed = []

omit [DecidableEq ι] in
/-- One flow at most is unfinished. -/
theorem Exclusive.unfinished_unique {s : EnrollState ι} (h : Exclusive s) {flow flow' : Nat}
    (hf : s.Unfinished flow) (hf' : s.Unfinished flow') : flow = flow' := by
  rcases hf with hs | ⟨e, he, hflow⟩ <;> rcases hf' with hs' | ⟨e', he', hflow'⟩
  · exact Option.some.inj (hs.symm.trans hs')
  · exact Option.some.inj ((h.own e' he' flow hs).symm.trans hflow')
  · exact Option.some.inj (hflow.symm.trans (h.own e he flow' hs'))
  · rw [h.one e he e' he'] at hflow
    exact Option.some.inj (hflow.symm.trans hflow')

/-! ## what each operation keeps -/

/-- An actor that leaves keeps the flows apart. -/
theorem Exclusive.leave {s : EnrollState ι} (h : Exclusive s) (i : ι) : Exclusive (s.leave i) where
  one e he e' he' := h.one e (List.mem_filter.mp he).1 e' (List.mem_filter.mp he').1
  own e he := h.own e (List.mem_filter.mp he).1
  fresh flow hflow := by
    rcases hflow with hs | ⟨e, he, hf⟩
    · exact h.fresh flow (.inl hs)
    · exact h.fresh flow (.inr ⟨e, (List.mem_filter.mp he).1, hf⟩)
  unharmed := h.unharmed

/-- An operation that is alone turns to the stored flow. -/
theorem Exclusive.act {s : EnrollState ι} (h : Exclusive s) {i : ι}
    (halone : ∀ e ∈ s.acting, e.1 = i) : Exclusive (s.act i s.storedFlow) := by
  have honly : ∀ e ∈ (s.act i s.storedFlow).acting, e = (i, s.storedFlow) := by
    intro e he
    rcases List.mem_cons.mp he with heq | hmem
    · exact heq
    · have hne := (List.mem_filter.mp hmem).2
      simp [halone e (List.mem_filter.mp hmem).1] at hne
  exact {
    one := fun e he e' he' => (honly e he).trans (honly e' he').symm
    own := fun e he flow hflow => by rw [honly e he]; exact hflow
    fresh := fun flow hflow => by
      rcases hflow with hs | ⟨e, he, hf⟩
      · exact h.fresh flow (.inl hs)
      · rw [honly e he] at hf
        exact h.fresh flow (.inl hf)
    unharmed := h.unharmed }

/-- An operation that is alone gets an order, nothing being stored. -/
theorem Exclusive.newOrder {s : EnrollState ι} (h : Exclusive s) {i : ι}
    (hnone : s.enrollment = none) (halone : ∀ e ∈ s.acting, e.1 = i) :
    Exclusive { s.act i (some s.nextUri) with
      nextUri := s.nextUri + 1, prepared := (i, s.nextUri) :: s.prepared } := by
  have honly : ∀ e ∈ (s.act i (some s.nextUri)).acting, e = (i, some s.nextUri) := by
    intro e he
    rcases List.mem_cons.mp he with heq | hmem
    · exact heq
    · have hne := (List.mem_filter.mp hmem).2
      simp [halone e (List.mem_filter.mp hmem).1] at hne
  have hstored : s.storedFlow = none := by simp [EnrollState.storedFlow, hnone]
  exact {
    one := fun e he e' he' => (honly e he).trans (honly e' he').symm
    own := fun e he flow hflow => by
      rw [show s.storedFlow = some flow from hflow] at hstored
      cases hstored
    fresh := fun flow hflow => by
      show flow < s.nextUri + 1
      rcases hflow with hs | ⟨e, he, hf⟩
      · exact Nat.lt_succ_of_lt (h.fresh flow (.inl hs))
      · rw [honly e he, Option.some.injEq] at hf
        omega
    unharmed := h.unharmed }

/-- An operation at its flow does no harm to the enrollment. -/
theorem enrollmentHarm_eq_nil {s : EnrollState ι} (h : Exclusive s) {i : ι} {f : Option Nat}
    (hi : (i, f) ∈ s.acting) : s.enrollmentHarm i = [] := by
  unfold EnrollState.enrollmentHarm
  cases hstored : s.storedFlow with
  | none => rfl
  | some flow =>
      have hf : f = some flow := h.own _ hi flow hstored
      rw [hf] at hi
      exact if_pos hi

/-- An operation at its flow may store its enrollment. -/
theorem Exclusive.setEnrollment {s : EnrollState ι} (h : Exclusive s) {i : ι}
    {enrollment : Option Enrollment} {f : Option Nat} (hi : (i, f) ∈ s.acting)
    (hf : ∀ e, enrollment = some e → f = some e.order.uri) :
    Exclusive (s.setEnrollment i enrollment) where
  one := h.one
  own e he flow hflow := by
    obtain ⟨en, hen, huri⟩ := Option.map_eq_some_iff.mp hflow
    rw [h.one e he _ hi, hf en hen, huri]
  fresh flow hflow := by
    rcases hflow with hs | hacting
    · obtain ⟨en, hen, huri⟩ := Option.map_eq_some_iff.mp hs
      exact h.fresh flow (.inr ⟨_, hi, by rw [hf en hen, huri]⟩)
    · exact h.fresh flow (.inr hacting)
  unharmed := by simp [EnrollState.setEnrollment, enrollmentHarm_eq_nil h hi, h.unharmed]

/-- A harmless write of the progress keeps the flows apart. -/
theorem Exclusive.setProgress {s : EnrollState ι} (h : Exclusive s) {i : ι}
    {progress : EnrollmentProgress} (hi : s.progressHarm i = []) :
    Exclusive (s.setProgress i progress) :=
  ⟨h.one, h.own, h.fresh, by simp [EnrollState.setProgress, hi, h.unharmed]⟩

/-- The owner of the progress does no harm to it. -/
theorem progressHarm_of_owner {s : EnrollState ι} {i : ι} (hi : s.owner = some i) :
    s.progressHarm i = [] := by
  simp [EnrollState.progressHarm, hi]

/-- Nothing is unfinished when nothing is stored and nobody is at a flow. -/
theorem progressHarm_of_idle {s : EnrollState ι} {i : ι}
    (hrow : enrollmentIsRunning s.progress = false) (hnone : s.enrollment = none)
    (hidle : s.acting = []) : s.progressHarm i = [] := by
  have hfinished : ∀ flow, ¬ s.Unfinished flow := by
    intro flow hflow
    simp [EnrollState.Unfinished, EnrollState.storedFlow, hnone, hidle] at hflow
  unfold EnrollState.progressHarm
  cases s.owner with
  | none => rfl
  | some owner => simp [hrow, hfinished]

/-- What an operation has to know: that the progress is its own, and that it
is at a flow. -/
def Needs (i : ι) : LeOp → EnrollState ι → Prop
  | .progress _, s => s.owner = some i
  | .writeEnrollment e, s => (i, some e.order.uri) ∈ s.acting
  | .clearEnrollment, s => ∃ f, (i, f) ∈ s.acting
  | _, _ => True

/-- A step that meets its needs keeps the flows apart. -/
theorem exclusive_reply {i : ι} {x : EnrollTurn} {o : LeOp} {s : EnrollState ι} (h : Exclusive s)
    (hcond : oneAtATime i x o s) (hneeds : Needs i o s) :
    Exclusive ((enrollEnv ι).reply i x o s).2 := by
  obtain ⟨raised, challenges, records, zone, due⟩ := x
  cases raised with
  | some exc => cases o <;> first | exact h.leave i | exact h
  | none =>
      cases o with
      | tryBegin =>
          dsimp only [enrollEnv]
          cases hrow : enrollmentIsRunning s.progress with
          | true => exact h
          | false => exact h.setProgress (progressHarm_of_idle hrow (hcond hrow).1 (hcond hrow).2)
      | progress progress =>
          dsimp only [enrollEnv]
          have hset : Exclusive (s.setProgress i progress) :=
            h.setProgress (progressHarm_of_owner hneeds)
          split
          · exact hset.leave i
          · exact hset
      | markFinished => exact h.setProgress (progressHarm_of_owner hcond)
      | newOrder config => exact h.newOrder hcond.1 hcond.2
      | getEnrollment => exact h.act hcond
      | writeEnrollment e =>
          exact h.setEnrollment hneeds fun e' he' => by rw [Option.some.inj he']
      | clearEnrollment =>
          obtain ⟨f, hf⟩ := hneeds
          exact h.setEnrollment hf fun e he => by cases he
      | respond => exact h.leave i
      | saveConfig config => exact ⟨h.one, h.own, h.fresh, h.unharmed⟩
      | writeConfig config => exact ⟨h.one, h.own, h.fresh, h.unharmed⟩
      | _ => exact h

/-- A worker's progress is in progress. -/
def OwnsProgress (i : ι) (s : EnrollState ι) : Prop :=
  s.owner = some i ∧ enrollmentIsRunning s.progress = true

/-- The others keep a worker's progress and what it is at. -/
def enrollTerms (ι : Type) [DecidableEq ι] : Terms leSig ι EnrollTurn (EnrollState ι) where
  env := enrollEnv ι
  cond := oneAtATime
  inv := Exclusive
  rely i s s' := (OwnsProgress i s → OwnsProgress i s') ∧
    ∀ f, (i, f) ∈ s.acting → (i, f) ∈ s'.acting

/-- The other actors stay in their flows. -/
theorem mem_act {s : EnrollState ι} {i j : ι} (hj : j ≠ i) {f f' : Option Nat}
    (h : (j, f) ∈ s.acting) : (j, f) ∈ (s.act i f').acting :=
  List.mem_cons_of_mem _ (List.mem_filter.mpr ⟨h, by simpa using hj⟩)

/-- They stay when one leaves. -/
theorem mem_leave {s : EnrollState ι} {i j : ι} (hj : j ≠ i) {f : Option Nat}
    (h : (j, f) ∈ s.acting) : (j, f) ∈ (s.leave i).acting :=
  List.mem_filter.mpr ⟨h, by simpa using hj⟩

/-- The step of one actor is what the others rely on. -/
theorem rely_reply_enroll {i j : ι} (hj : j ≠ i) {x : EnrollTurn} {o : LeOp} {s : EnrollState ι}
    (hcond : oneAtATime i x o s) (hneeds : Needs i o s) :
    (enrollTerms ι).rely j s ((enrollEnv ι).reply i x o s).2 := by
  have hnot : s.owner = some i → ¬ OwnsProgress j s := fun hi hown =>
    hj (Option.some.inj (hown.1.symm.trans hi))
  obtain ⟨raised, challenges, records, zone, due⟩ := x
  cases raised with
  | some exc =>
      cases o <;> first
        | exact ⟨id, fun f h => mem_leave hj h⟩
        | exact ⟨id, fun _ h => h⟩
  | none =>
      cases o with
      | tryBegin =>
          dsimp only [enrollEnv]
          cases hrow : enrollmentIsRunning s.progress with
          | true => exact ⟨id, fun _ h => h⟩
          | false =>
              refine ⟨fun hown => ?_, fun _ h => h⟩
              rw [hown.2] at hrow
              cases hrow
      | progress progress =>
          dsimp only [enrollEnv]
          split
          · exact ⟨fun hown => absurd hown (hnot hneeds), fun f h => mem_leave hj h⟩
          · exact ⟨fun hown => absurd hown (hnot hneeds), fun _ h => h⟩
      | markFinished => exact ⟨fun hown => absurd hown (hnot hcond), fun _ h => h⟩
      | newOrder config => exact ⟨id, fun f h => mem_act hj h⟩
      | getEnrollment => exact ⟨id, fun f h => mem_act hj h⟩
      | respond => exact ⟨id, fun f h => mem_leave hj h⟩
      | _ => exact ⟨id, fun _ h => h⟩

/-! ## one operation among others -/

/-- The progress is the worker's own, if it has one, and it is at the flow. -/
def Knows (i : ι) (async : Bool) (at_ : Option (Option Nat)) (s : EnrollState ι) : Prop :=
  (async = true → OwnsProgress i s) ∧ ∀ f, at_ = some f → (i, f) ∈ s.acting

/-- The others leave what an actor knows. -/
theorem stable_knows (i : ι) (async : Bool) (at_ : Option (Option Nat)) :
    (enrollTerms ι).Stable i (Knows i async at_) :=
  fun _ _ _ _ hrely h => ⟨fun ha => hrely.1 (h.1 ha), fun f hf => hrely.2 f (h.2 f hf)⟩

/-- Operations that change neither what is stored nor what is known. -/
def Steady (async : Bool) : LeOp → Prop
  | .progress progress => async = true ∧ progress.done = false
  | .tryBegin | .markFinished | .newOrder _ | .getEnrollment | .writeEnrollment _
  | .clearEnrollment | .respond => False
  | _ => True

variable {i : ι} {async : Bool} {at_ : Option (Option Nat)}

/-- A steady step leaves what its actor knows. -/
theorem knows_reply {x : EnrollTurn} {o : LeOp} {s : EnrollState ι} (ho : Steady async o)
    (h : Knows i async at_ s) : Knows i async at_ ((enrollEnv ι).reply i x o s).2 := by
  obtain ⟨raised, challenges, records, zone, due⟩ := x
  cases raised with
  | some exc => cases o <;> first | contradiction | exact h
  | none =>
      cases o with
      | progress progress =>
          dsimp only [enrollEnv]
          rw [ho.2]
          exact ⟨fun _ => ⟨rfl, by simp [EnrollState.setProgress, enrollmentIsRunning, ho.2]⟩, h.2⟩
      | _ => first | contradiction | exact h

omit [DecidableEq ι] in

/-- A steady step needs no more than that. -/
theorem needs_of_steady {o : LeOp} {s : EnrollState ι} (ho : Steady async o)
    (h : Knows i async at_ s) : Needs i o s := by
  cases o with
  | progress progress => exact (h.1 ho.1).1
  | _ => first | contradiction | trivial

abbrev EnrollOutline (i : ι) {α : Type} (post : α → EnrollState ι → Prop) (p : Prog leSig α)
    (K : EnrollState ι → Prop) : Prop :=
  (enrollTerms ι).Outline i (fun _ => True) post p K

/-- The outline of one operation. -/
theorem outline_askLe {o : LeOp} {K : EnrollState ι → Prop}
    {K' : Except LeExc o.Answer → EnrollState ι → Prop} (hneeds : ∀ s, K s → Needs i o s)
    (hstable : ∀ r, (enrollTerms ι).Stable i (K' r))
    (hnext : ∀ x s, K s → K' ((enrollEnv ι).reply i x o s).1 ((enrollEnv ι).reply i x o s).2) :
    EnrollOutline i K' o.ask.prog K := by
  refine ⟨fun _ _ _ => trivial, fun x s hs hk _ hcond => ?_⟩
  exact ⟨exclusive_reply hs hcond (hneeds s hk), fun j hj => rely_reply_enroll hj hcond (hneeds s hk),
    K' _, hstable _, hnext x s hk, fun _ _ h => h⟩

/-- A program of such operations. -/
abbrev SteadyProg (async : Bool) {α : Type} (p : Prog leSig α) : Prop :=
  p.Ensures (fun _ _ => True) (Steady async) fun _ => True

/-- The outline of a steady program. -/
theorem outline_steady {α : Type} {p : Prog leSig α} (hp : SteadyProg async p) :
    EnrollOutline i (fun _ => Knows i async at_) p (Knows i async at_) := by
  induction p with
  | ret a => exact fun _ _ h => h
  | call o k ih =>
      refine ⟨fun _ _ _ => trivial, fun x s hs hk _ hcond => ?_⟩
      have hneeds := needs_of_steady hp.1 hk
      exact ⟨exclusive_reply hs hcond hneeds, fun j hj => rely_reply_enroll hj hcond hneeds, _,
        stable_knows i async at_, knows_reply hp.1 hk, ih _ (hp.2 _ trivial)⟩

end

section

variable {U : Ucd} {async : Bool} {zoneId : Nat}

/-- One steady operation. -/
theorem steady_ask {o : LeOp} (ho : Steady async o) : SteadyProg async o.ask.prog :=
  ⟨ho, fun _ _ => trivial⟩

/-- Steady programs one after the other. -/
theorem SteadyProg.bind {α β : Type} {c : LeCode β} {f : β → LeCode α}
    (hc : SteadyProg async c.prog) (hf : ∀ b, SteadyProg async (f b).prog) :
    SteadyProg async (c >>= f).prog := by
  rw [Code.prog_bind]
  refine Prog.Ensures.bind hc fun r _ => ?_
  cases r with
  | ok b => exact hf b
  | error exc => trivial

/-- Reporting a phase is steady. -/
theorem steady_reportPhase {phase : EnrollmentPhase} :
    SteadyProg async (reportPhase async phase).prog := by
  cases async with
  | false => trivial
  | true => exact steady_ask ⟨rfl, rfl⟩

/-- Creating a challenge is steady. -/
theorem steady_createDnsTxtChallenge {c : Challenge} :
    SteadyProg async (createDnsTxtChallenge U zoneId c).prog := by
  refine .bind (steady_ask trivial) fun zone => ?_
  cases zone with
  | none => trivial
  | some zone => exact .bind (steady_ask trivial) fun _ => steady_ask trivial

/-- Deleting a challenge is steady. -/
theorem steady_deleteDnsTxtChallenge {c : Challenge} :
    SteadyProg async (deleteDnsTxtChallenge U zoneId c).prog := by
  refine .bind (steady_ask trivial) fun zone => ?_
  cases zone with
  | none => trivial
  | some zone => exact .bind (steady_ask trivial) fun _ => steady_ask trivial

/-- Looking for a record is steady. -/
theorem steady_verifyAttempts {zone : LeZone} {name value : Str} {n : Nat} :
    SteadyProg async (verifyAttempts async zone name value n).prog := by
  induction n with
  | zero => trivial
  | succ n ih =>
      refine .bind steady_reportPhase fun _ => .bind (steady_ask trivial) fun records =>
        .bind (steady_ask trivial) fun _ => ?_
      split
      · trivial
      · exact ih

/-- Verifying a challenge is steady. -/
theorem steady_verifyDnsTxtChallenge {total : Nat} {c : Challenge} :
    SteadyProg async (verifyDnsTxtChallenge U async zoneId total c).prog := by
  refine .bind (steady_ask trivial) fun zone => ?_
  cases zone with
  | none => trivial
  | some zone => exact steady_verifyAttempts

/-- Cleaning up challenges is steady. -/
theorem steady_cleanupDnsTxtChallenges {cs : List Challenge} :
    SteadyProg async (cleanupDnsTxtChallenges U zoneId cs) := by
  induction cs with
  | nil => trivial
  | cons c cs ih => exact Prog.Ensures.bind steady_deleteDnsTxtChallenge fun _ _ => ih

/-- Provisioning challenges is steady. -/
theorem steady_provisionChallenges {total : Nat} {cs provisioned : List Challenge} :
    SteadyProg async (provisionChallenges U async zoneId total cs provisioned) := by
  induction cs generalizing provisioned with
  | nil => trivial
  | cons c cs ih =>
      refine Prog.Ensures.bind steady_createDnsTxtChallenge fun r _ => ?_
      cases r with
      | error exc => trivial
      | ok u =>
          refine Prog.Ensures.bind steady_verifyDnsTxtChallenge fun r _ => ?_
          cases r with
          | error exc => trivial
          | ok u => exact ih

/-- Attaching challenges is steady. -/
theorem steady_attachDnsChallenges {order : Order} :
    SteadyProg async (attachDnsChallenges U async zoneId order) := by
  refine Prog.Ensures.bind steady_reportPhase fun r _ => ?_
  cases r with
  | error exc => trivial
  | ok u =>
      refine Prog.Ensures.bind steady_provisionChallenges fun r _ => ?_
      obtain ⟨result, provisioned⟩ := r
      cases result with
      | ok u => trivial
      | error exc =>
          cases exc with
          | letsEncryptError msg =>
              exact Prog.Ensures.bind steady_cleanupDnsTxtChallenges fun _ _ => trivial
          | other msg => trivial

/-- Attaching them to an enrollment is steady. -/
theorem steady_attachChallengesToEnrollment {automatedOnly : Bool} {config : LeConfig}
    {order : Order} :
    SteadyProg async (attachChallengesToEnrollment U async automatedOnly config order).prog := by
  unfold attachChallengesToEnrollment
  split
  · exact steady_attachDnsChallenges
  · split <;> trivial
  · split <;> trivial

/-- Deleting challenges is steady. -/
theorem steady_deleteChallenges {cs : List Challenge} :
    SteadyProg async (deleteChallenges U zoneId cs).prog := by
  induction cs with
  | nil => trivial
  | cons c cs ih => exact .bind steady_deleteDnsTxtChallenge fun _ => ih

/-- Deleting those of an enrollment is steady. -/
theorem steady_deleteEnrollmentChallenges {e : Enrollment} :
    SteadyProg async (deleteEnrollmentChallenges U e).prog := by
  unfold deleteEnrollmentChallenges
  split
  · trivial
  · exact steady_deleteChallenges

/-- Cleaning up those of an enrollment is steady. -/
theorem steady_cleanupEnrollmentChallenges {config : LeConfig} {order : Order} :
    SteadyProg async (cleanupEnrollmentChallenges U config order) := by
  unfold cleanupEnrollmentChallenges
  split
  · trivial
  · exact steady_cleanupDnsTxtChallenges

/-- Finalizing an order is steady. -/
theorem steady_acmeFinalizeOrder {e : Enrollment} :
    SteadyProg async (acmeFinalizeOrder e).prog := by
  unfold acmeFinalizeOrder
  rw [Code.prog_tryCatch]
  refine Prog.Ensures.bind (steady_ask trivial) fun r _ => ?_
  cases r <;> trivial

end

section

variable {ι : Type} [DecidableEq ι] {i : ι} {U : Ucd} {async : Bool} {at_ : Option (Option Nat)}

omit [DecidableEq ι] in

/-- What an operation knows apart from its flow. -/
theorem Knows.weaken {s : EnrollState ι} (h : Knows i async at_ s) : Knows i async none s :=
  ⟨h.1, fun f hf => by cases hf⟩

/-- A program of steady operations, then the rest. -/
theorem outline_steady_bind {α β : Type} {c : LeCode β} {f : β → LeCode α}
    {post : Except LeExc α → EnrollState ι → Prop} (hc : SteadyProg async c.prog)
    (hf : ∀ b, EnrollOutline i post (f b).prog (Knows i async at_))
    (herr : ∀ exc s, Knows i async at_ s → post (.error exc) s) :
    EnrollOutline i post (c >>= f).prog (Knows i async at_) :=
  Terms.Outline.bindCode (outline_steady hc) hf fun exc s _ h => herr exc s h

/-- An operation that gets an order is at its flow. -/
def GotOrder (i : ι) (async : Bool) (at_ : Option (Option Nat)) :
    Except LeExc Order → EnrollState ι → Prop
  | .ok order => Knows i async (some (some order.uri))
  | .error _ => Knows i async at_

/-- An operation that reads the stored enrollment is at its flow. -/
def TookUp (i : ι) (async : Bool) (at_ : Option (Option Nat)) :
    Except LeExc (Option Enrollment) → EnrollState ι → Prop
  | .ok e => Knows i async (some (e.map (·.order.uri)))
  | .error _ => Knows i async at_

/-- The outline of an order. -/
theorem outline_acmePrepareOrder {config : LeConfig} :
    EnrollOutline i (GotOrder i async at_) (acmePrepareOrder config).prog (Knows i async at_) := by
  have hask : EnrollOutline i (GotOrder i async at_) (LeOp.ask (.newOrder config)).prog
      (Knows i async at_) := by
    refine outline_askLe (o := .newOrder config) (fun _ _ => trivial) (fun r => ?_) fun x s h => ?_
    · cases r <;> exact stable_knows i async _
    · obtain ⟨raised, challenges, records, zone, due⟩ := x
      cases raised with
      | some exc => exact h
      | none =>
          refine ⟨h.1, fun f hf => ?_⟩
          rw [← Option.some.inj hf]
          exact List.mem_cons_self
  exact Terms.Outline.tryCatch hask (fun exc => fun _ _ h => h) fun _ _ _ h => h

/-- The outline of taking up the enrollment. -/
theorem outline_getEnrollment :
    EnrollOutline i (TookUp i async at_) (LeOp.ask .getEnrollment).prog (Knows i async at_) := by
  refine outline_askLe (o := .getEnrollment) (fun _ _ => trivial) (fun r => ?_) fun x s h => ?_
  · cases r <;> exact stable_knows i async _
  · obtain ⟨raised, challenges, records, zone, due⟩ := x
    cases raised with
    | some exc => exact h
    | none =>
        refine ⟨h.1, fun f hf => ?_⟩
        rw [← Option.some.inj hf]
        exact List.mem_cons_self

/-- The outline of writing the enrollment. -/
theorem outline_writeEnrollment {e : Enrollment} :
    EnrollOutline i (fun _ => Knows i async (some (some e.order.uri)))
      (LeOp.ask (.writeEnrollment e)).prog (Knows i async (some (some e.order.uri))) := by
  refine outline_askLe (fun s h => h.2 _ rfl) (fun _ => stable_knows i async _) fun x s h => ?_
  obtain ⟨raised, challenges, records, zone, due⟩ := x
  cases raised <;> exact h

/-- The outline of clearing the enrollment. -/
theorem outline_clearEnrollment {f : Option Nat} :
    EnrollOutline i (fun _ => Knows i async (some f)) (LeOp.ask .clearEnrollment).prog
      (Knows i async (some f)) := by
  refine outline_askLe (fun s h => ⟨f, h.2 f rfl⟩) (fun _ => stable_knows i async _) fun x s h => ?_
  obtain ⟨raised, challenges, records, zone, due⟩ := x
  cases raised <;> exact h

/-- The outline of going on with an enrollment. -/
theorem outline_continueEnrollment :
    EnrollOutline i (fun _ => Knows i async none) (continueEnrollment U async).prog
      (Knows i async at_) := by
  refine Terms.Outline.bindCode outline_getEnrollment (fun enrollment => ?_)
    fun _ _ _ h => h.weaken
  cases enrollment with
  | none => exact fun _ _ h => h.weaken
  | some e =>
      refine outline_steady_bind steady_reportPhase (fun _ => ?_) fun _ _ h => h.weaken
      refine outline_steady_bind steady_acmeFinalizeOrder (fun _ => ?_) fun _ _ h => h.weaken
      refine outline_steady_bind steady_reportPhase (fun _ => ?_) fun _ _ h => h.weaken
      refine outline_steady_bind (steady_ask trivial) (fun _ => ?_) fun _ _ h => h.weaken
      refine outline_steady_bind (steady_ask trivial) (fun _ => ?_) fun _ _ h => h.weaken
      refine Terms.Outline.bindCode outline_clearEnrollment (fun _ => ?_) fun _ _ _ h => h.weaken
      exact outline_steady_bind steady_deleteEnrollmentChallenges (fun _ _ _ h => h.weaken)
        fun _ _ h => h.weaken

/-- The outline of attaching, or clearing after a failure. -/
theorem outline_attachOrClear {config : LeConfig} {order : Order} {f : Option Nat} :
    EnrollOutline i (fun _ => Knows i async (some f)) (attachOrClear U async config order).prog
      (Knows i async (some f)) := by
  refine Terms.Outline.tryCatch (outline_steady steady_attachChallengesToEnrollment)
    (fun exc => ?_) fun _ _ _ h => h
  cases exc with
  | letsEncryptError msg =>
      exact Terms.Outline.bindCode outline_clearEnrollment (fun _ _ _ h => h) fun _ _ _ h => h
  | other msg => exact fun _ _ h => h

/-- The outline of starting an enrollment. -/
theorem outline_startEnrollment {config : LeConfig} :
    EnrollOutline i (fun _ => Knows i async none) (startEnrollment U async config).prog
      (Knows i async none) := by
  refine outline_steady_bind steady_reportPhase (fun _ => ?_) fun _ _ h => h
  refine outline_steady_bind (steady_ask trivial) (fun _ => ?_) fun _ _ h => h
  refine outline_steady_bind steady_reportPhase (fun _ => ?_) fun _ _ h => h
  refine Terms.Outline.bindCode outline_acmePrepareOrder (fun order => ?_) fun _ _ _ h => h
  refine Terms.Outline.bindCode outline_attachOrClear (fun status => ?_) fun _ _ _ h => h.weaken
  refine Terms.Outline.bindCode outline_writeEnrollment (fun _ => ?_) fun _ _ _ h => h.weaken
  split
  · exact outline_continueEnrollment
  · exact fun _ _ h => h.weaken

/-- The outline of cancelling an enrollment. -/
theorem outline_cancelEnrollment :
    EnrollOutline i (fun _ => Knows i async none) (cancelEnrollment U).prog (Knows i async at_) := by
  refine Terms.Outline.bindCode outline_getEnrollment (fun enrollment => ?_)
    fun _ _ _ h => h.weaken
  cases enrollment with
  | none => exact outline_clearEnrollment.mono (fun _ _ h => h) fun _ _ h => h.weaken
  | some e =>
      refine outline_steady_bind steady_deleteEnrollmentChallenges (fun _ => ?_)
        fun _ _ h => h.weaken
      exact outline_clearEnrollment.mono (fun _ _ h => h) fun _ _ h => h.weaken

/-- The outline of a renewal that is due. -/
theorem outline_renewDueCertificate {config : LeConfig} :
    EnrollOutline i (fun _ => Knows i false none) (renewDueCertificate U config).prog
      (Knows i false none) := by
  refine Terms.Outline.bindCode outline_acmePrepareOrder (fun order => ?_) fun _ _ _ h => h
  have hrenew : EnrollOutline i (fun _ => Knows i false (some (some order.uri)))
      (renewCertificate U config order).prog (Knows i false (some (some order.uri))) := by
    refine outline_steady_bind steady_attachChallengesToEnrollment (fun _ => ?_) fun _ _ h => h
    refine Terms.Outline.bindCode outline_writeEnrollment (fun _ => ?_) fun _ _ _ h => h
    refine outline_steady_bind steady_acmeFinalizeOrder (fun _ => ?_) fun _ _ h => h
    exact outline_steady_bind (steady_ask trivial) (fun _ _ _ h => h) fun _ _ h => h
  refine Terms.Outline.bind hrenew fun renewed => ?_
  refine Terms.Outline.bind (outline_steady steady_cleanupEnrollmentChallenges) fun _ => ?_
  refine Terms.Outline.bind outline_clearEnrollment fun cleared => ?_
  cases cleared <;> exact fun _ _ h => h.weaken

/-- The outline of the renewal check. -/
theorem outline_maybeRenewCertificate :
    EnrollOutline i (fun _ => Knows i false none) (maybeRenewCertificate U).prog
      (Knows i false none) := by
  refine outline_steady_bind (steady_ask trivial) (fun due => ?_) fun _ _ h => h
  refine outline_steady_bind (steady_ask trivial) (fun config => ?_) fun _ _ h => h
  cases config with
  | none => exact fun _ _ h => h
  | some config =>
      dsimp only
      split
      · exact Terms.Outline.bindCode outline_renewDueCertificate (fun _ _ _ h => h)
          fun _ _ _ h => h
      · exact fun _ _ h => h

/-- The outline of deleting a zone. -/
theorem outline_zoneDelete {zoneId : Nat} :
    EnrollOutline i (fun _ => Knows i false none) (zoneDelete U zoneId).prog
      (Knows i false none) := by
  have hdetach : EnrollOutline i (fun _ => Knows i false none)
      (detachDnsZoneFromLetsencrypt U zoneId).prog (Knows i false none) := by
    refine outline_steady_bind (steady_ask trivial) (fun config => ?_) fun _ _ h => h
    refine Terms.Outline.bindCode outline_getEnrollment (fun enrollment => ?_)
      fun _ _ _ h => h
    have hcancel : EnrollOutline i (fun _ => Knows i false none)
        (cancelWithZone U zoneId enrollment).prog
        (Knows i false (some (enrollment.map (·.order.uri)))) := by
      unfold cancelWithZone
      split
      · exact outline_cancelEnrollment
      · exact fun _ _ h => h.weaken
    refine Terms.Outline.bindCode hcancel (fun _ => ?_) fun _ _ _ h => h
    split
    · exact fun _ _ h => h
    · exact outline_steady (steady_ask trivial)
  refine outline_steady_bind (steady_ask trivial) (fun row => ?_) fun _ _ h => h
  cases row with
  | none => exact fun _ _ h => h
  | some zone =>
      exact Terms.Outline.bindCode hdetach (fun _ => outline_steady (steady_ask trivial))
        fun _ _ _ h => h

/-- The end of an operation needs to know nothing. -/
theorem outline_end {o : LeOp} (hneeds : ∀ s : EnrollState ι, Needs i o s) :
    EnrollOutline i (fun _ _ => True) o.ask.prog fun _ => True :=
  outline_askLe (fun s _ => hneeds s) (fun _ _ _ _ _ _ _ => trivial) fun _ _ _ => trivial

/-- The outline of the worker. -/
theorem outline_runLeAutoEnrollment {config : LeConfig} :
    EnrollOutline i (fun _ _ => True) (runLeAutoEnrollment U config).prog (Knows i true none) := by
  have hreport : ∀ progress : EnrollmentProgress,
      EnrollOutline i (fun _ _ => True) (LeOp.ask (.progress progress)).prog (Knows i true none) :=
    fun _ => outline_askLe (fun _ h => (h.1 rfl).1) (fun _ _ _ _ _ _ _ => trivial)
      fun _ _ _ => trivial
  have hsync : EnrollOutline i (fun _ _ => True) (runLeAutoEnrollmentSync U config).prog
      (Knows i true none) := by
    -- an exception leaves the worker its progress, unless it has reported its end
    have hbody : EnrollOutline i (fun r s => r = .ok () ∨ Knows i true none s)
        (do
          let _ ← startEnrollment U true config
          let _ ← LeOp.ask (.audit .letsencrypt)
          LeOp.ask (.progress ⟨.complete, true⟩) : LeCode Unit).prog (Knows i true none) := by
      refine Terms.Outline.bindCode outline_startEnrollment (fun _ => ?_) fun _ _ _ h => .inr h
      refine outline_steady_bind (steady_ask trivial) (fun _ => ?_) fun _ _ h => .inr h
      refine ⟨fun _ _ _ => trivial, fun x s hs hk _ hcond => ?_⟩
      have hneeds : Needs i (.progress ⟨.complete, true⟩) s := (hk.1 rfl).1
      refine ⟨exclusive_reply hs hcond hneeds, fun j hj => rely_reply_enroll hj hcond hneeds, ?_⟩
      obtain ⟨raised, challenges, records, zone, due⟩ := x
      cases raised with
      | some exc => exact ⟨_, stable_knows i true none, hk, fun _ _ h => .inr h⟩
      | none => exact ⟨fun _ => True, fun _ _ _ _ _ _ => trivial, trivial, fun _ _ _ => .inl rfl⟩
    refine Terms.Outline.tryCatch hbody (fun exc => ?_) fun _ _ _ _ => trivial
    exact (hreport ⟨.error, true⟩).mono (fun s _ h => h.resolve_left (by simp)) fun _ _ h => h
  refine Terms.Outline.bind hsync fun _ => ?_
  refine Terms.Outline.bindCode (outline_end fun _ => trivial) (fun running => ?_)
    fun _ _ _ _ => trivial
  split
  · exact outline_end fun _ => trivial
  · exact fun _ _ _ => trivial

/-- The outline of the request that starts it. -/
theorem outline_settingsLetsencryptStartAsync {config : LeConfig} :
    EnrollOutline i (fun _ _ => True) (settingsLetsencryptStartAsync U config).prog
      (Knows i false none) := by
  have hbegin : EnrollOutline i
      (fun r s => r = .ok true → Knows i true none s) (LeOp.ask .tryBegin).prog
      (Knows i false none) := by
    refine outline_askLe (o := .tryBegin) (fun _ _ => trivial) (fun r => ?_) fun x s _ => ?_
    · exact fun s s' hs hs' hrely h hr => stable_knows i true none s s' hs hs' hrely (h hr)
    · obtain ⟨raised, challenges, records, zone, due⟩ := x
      cases raised with
      | some exc => exact fun h => by cases h
      | none =>
          dsimp only [enrollEnv]
          cases enrollmentIsRunning s.progress with
          | true => exact fun h => by cases h
          | false => exact fun _ => ⟨fun _ => ⟨rfl, rfl⟩, fun f hf => by cases hf⟩
  refine Terms.Outline.bindCode hbegin (fun began => ?_) fun _ _ _ _ => trivial
  cases began with
  | false =>
      have hend : EnrollOutline i (fun _ _ => True)
          (LeOp.ask (.audit .letsencrypt) >>= fun _ => (pure () : LeCode Unit)).prog fun _ => True :=
        Terms.Outline.bindCode (outline_end fun _ => trivial) (fun _ _ _ _ => trivial)
          fun _ _ _ _ => trivial
      exact hend.mono (fun _ _ _ => trivial) fun _ _ h => h
  | true =>
      have hrun : EnrollOutline i (fun _ _ => True)
          (LeOp.ask (.audit .letsencrypt) >>= fun _ => runLeAutoEnrollment U config).prog (Knows i true none) :=
        outline_steady_bind (steady_ask (o := .audit .letsencrypt) trivial)
          (fun _ => outline_runLeAutoEnrollment) fun _ _ _ => trivial
      exact hrun.mono (fun s _ h => h rfl) fun _ _ h => h

/-- The outline of a request to its end. -/
theorem outline_endWith {α : Type} {c : LeCode α} {post : Except LeExc α → EnrollState ι → Prop}
    (h : EnrollOutline i post c.prog (Knows i false none)) :
    EnrollOutline i (fun _ _ => True) (endWith c) (Knows i false none) :=
  Terms.Outline.bind (h.mono (fun _ _ h => h) fun _ _ _ => trivial) fun _ =>
    Terms.Outline.bind (outline_end fun _ => trivial) fun _ _ _ _ => trivial

/-- The outline of each request. -/
theorem outline_leRequest (req : LeRequest) :
    EnrollOutline i (fun _ _ => True) (req.prog U) (Knows i false none) := by
  cases req with
  | start config => exact outline_endWith outline_startEnrollment
  | startAsync config => exact outline_endWith outline_settingsLetsencryptStartAsync
  | continue_ => exact outline_endWith outline_continueEnrollment
  | cancel => exact outline_endWith outline_cancelEnrollment
  | renew => exact outline_endWith outline_maybeRenewCertificate
  | zoneDelete zoneId => exact outline_endWith outline_zoneDelete

end

/-! ## operations at the same time -/

section

variable {ι : Type} [DecidableEq ι]

/-- The operations, when none has begun. -/
def enrolling (U : Ucd) (requests : ι → LeRequest) (progress : Option EnrollmentProgress)
    (config : Option LeConfig) (enrollment : Option Enrollment) :
    Config leSig ι (EnrollState ι) Unit :=
  ⟨⟨progress, none, config, enrollment, (enrollment.map (·.order.uri + 1)).getD 0, [], [], []⟩,
    fun i => (requests i).prog U⟩

/-- As long as operations are at an enrollment one at a time and none begins
while one is stored, one flow at most is unfinished, and none loses its
enrollment or its progress to another one. -/
theorem one_flow_at_a_time (U : Ucd) (requests : ι → LeRequest)
    (progress : Option EnrollmentProgress) (config : Option LeConfig)
    (enrollment : Option Enrollment) (es : List (ι × EnrollTurn))
    (hm : (enrolling U requests progress config enrollment).MeetsRun (enrollEnv ι) oneAtATime es) :
    let s := ((enrolling U requests progress config enrollment).turns (enrollEnv ι) es).shared
    (∀ flow flow', s.Unfinished flow → s.Unfinished flow' → flow = flow') ∧ s.harmed = [] := by
  have hinit : Exclusive (enrolling U requests progress config enrollment).shared := by
    refine ⟨by simp [enrolling], by simp [enrolling], fun flow hflow => ?_, rfl⟩
    rcases hflow with hs | ⟨e, he, -⟩
    · obtain ⟨e, he, rfl⟩ := Option.map_eq_some_iff.mp hs
      have hsome : enrollment = some e := he
      simp [enrolling, hsome]
    · cases he
  have hstart : (enrollTerms ι).Outlined (fun _ _ => True) (fun _ _ _ => True)
      (enrolling U requests progress config enrollment) := by
    refine ⟨hinit, fun i => ⟨Knows i false none, stable_knows i false none, ?_,
      outline_leRequest (requests i)⟩⟩
    exact ⟨nofun, nofun⟩
  have hend : Exclusive ((enrolling U requests progress config enrollment).turns (enrollEnv ι)
      es).shared := (Terms.outlined_turns hstart hm).1
  exact ⟨fun flow flow' hf hf' => hend.unfinished_unique hf hf', hend.unharmed⟩

instance (i : ι) (x : EnrollTurn) (o : LeOp) (s : EnrollState ι) :
    Decidable (oneAtATime i x o s) := by
  unfold oneAtATime
  split <;> infer_instance

end

/-! ## a start while another one waits -/

/-- A certificate whose challenge is published by hand. -/
def manualConfig : LeConfig := ⟨.dns01, none, lit "example.com", false⟩

def twoStarts (_ : Fin 2) : LeRequest := .start manualConfig

def startAndCancel : Fin 2 → LeRequest
  | 0 => .start manualConfig
  | 1 => .cancel

def enrollQuiet : EnrollTurn := {}

/-- The first operation to its end, then the second one. -/
def enrollScript : List (Fin 2 × EnrollTurn) :=
  List.replicate 4 (0, enrollQuiet) ++ List.replicate 3 (1, enrollQuiet)

theorem one_flow_start_and_cancel :
    ((enrolling .ascii startAndCancel none none none).turns (enrollEnv (Fin 2))
      enrollScript).shared.harmed = [] :=
  (one_flow_at_a_time .ascii startAndCancel none none none enrollScript (by decide)).2

/-- The second start gets an order, and replaces the enrollment that waits for
its manual challenge. -/
theorem second_start_replaces :
    let before := ((enrolling .ascii twoStarts none none none).turns (enrollEnv (Fin 2))
      (enrollScript.take 6)).shared
    let after := ((enrolling .ascii twoStarts none none none).turns (enrollEnv (Fin 2))
      enrollScript).shared
    before.Unfinished 0 ∧ before.Unfinished 1 ∧ after.harmed = [.enrollment 1 0] := by
  decide

end ApiToDns
