import ApiToDns.Backup.Validate
import ApiToDns.Lib.Outline

/-!
# Backup.Importing

Imports of backups that run at the same time (`settings_backup_import_async`
and its worker): who may begin is decided by the row with the progress of the
restore, which every worker writes and none owns.

`restore_payload` is cut down to the order of its progress writes and of what
it does between them.
-/

namespace ApiToDns.Backup

open Py

/-! ## progress -/

/-- The phases that are written; what reads as idle is a missing row. -/
inductive RestorePhase where
  | starting
  | validate
  | database
  | sslFiles
  | applicationSecrets
  | complete
  | error
deriving DecidableEq, Repr

/-- The row `backup_restore_progress`. -/
structure RestoreProgress where
  phase : RestorePhase
  percent : Nat
  message : Str
  done : Bool := false
  error : Option Str := none
  resultStatus : Option Str := none
  restarting : Bool := false
deriving DecidableEq

/-- `_restore_is_running`. -/
def restoreIsRunning : Option RestoreProgress → Bool
  | none => false
  | some progress => !progress.done

def startingProgress : RestoreProgress := ⟨.starting, 0, lit "Starting restore…", false, none, none, false⟩

def completeProgress (restarting : Bool) : RestoreProgress where
  phase := .complete
  percent := 100
  message := if restarting then lit "Restarting application…" else lit "Restore complete."
  done := true
  resultStatus := some (lit "success")
  restarting := restarting

def failedProgress (error : Str) : RestoreProgress where
  phase := .error
  percent := 100
  message := lit "Restore failed."
  done := true
  error := some (error.take 500)
  resultStatus := some (lit "error")

def endedUnexpectedly : RestoreProgress where
  phase := .error
  percent := 100
  message := lit "Restore worker ended unexpectedly."
  done := true
  error := some (lit "Restore worker ended unexpectedly.")
  resultStatus := some (lit "error")

/-! ## imports -/

/-- What a restore does besides writing its progress. -/
inductive RestoreWork where
  /-- `load_backup_bytes` -/
  | load
  | validate
  /-- the transaction -/
  | database
  | sslFiles
  | applicationSecrets
deriving DecidableEq, Repr

inductive ImportOp where
  /-- `try_begin_restore`; it holds the write lock from its check to its
  commit -/
  | tryBegin
  /-- `write_restore_progress` with `done=False` -/
  | progress (phase : RestorePhase) (percent : Nat) (message : Str)
  | work (what : RestoreWork)
  /-- an activity event and its commit -/
  | activity
  /-- `write_restore_progress` with `done=True` -/
  | finish (progress : RestoreProgress)
  /-- `perform_application_restart` -/
  | restart
  /-- `is_restore_in_progress`, in `mark_restore_worker_finished` -/
  | isInProgress
  /-- the write of `mark_restore_worker_finished` -/
  | markFinished

abbrev ImportOp.Answer : ImportOp → Type
  | tryBegin | isInProgress => Bool
  | _ => Unit

/-- An operation answers or raises an exception with a text. -/
abbrev importSig : Sig := ⟨ImportOp, fun o => Except Str o.Answer⟩

def ask (o : ImportOp) : Code Str importSig o.Answer := ExceptT.mk (.call o .ret)

/-- The operations one after the other, up to the first that raises. -/
def runSteps : List ImportOp → Code Str importSig Unit
  | [] => pure ()
  | o :: rest => do
      let _ ← ask o
      runSteps rest

/-- An import request that has passed its checks: the categories selected, and
whether the restore adopts the keys of the archive. -/
structure Import where
  categories : List Category
  adoptsArchiveKeys : Bool

namespace Import

variable (imp : Import)

def touchesDb : Bool :=
  imp.categories.any fun c =>
    c ∈ [Category.settings, .users, .zones, .apiKeys, .alertRules, .activityLogs]

/-- `restarting`, as `restore_payload` returns it. -/
def restarting : Bool :=
  (.applicationSecrets ∈ imp.categories && imp.adoptsArchiveKeys) ||
    .sslFiles ∈ imp.categories || .settings ∈ imp.categories

/-- `restore_payload`, in its order. -/
def restorePayloadSteps : List ImportOp :=
  [.progress .validate 5 (lit "Validating backup archive…"), .work .validate] ++
    (if imp.touchesDb then
      [.progress .database 15 (lit "Restoring database categories…"), .work .database,
        .progress .database 70 (lit "Database categories restored…")]
    else []) ++
    (if .sslFiles ∈ imp.categories then
      [.progress .sslFiles 85 (lit "Restoring SSL certificate files…"), .work .sslFiles]
    else []) ++
    (if .applicationSecrets ∈ imp.categories then
      if imp.adoptsArchiveKeys then
        [.progress .applicationSecrets 95 (lit "Writing application secrets…"),
          .work .applicationSecrets]
      else
        [.progress .applicationSecrets 95
          (lit "Re-encrypting backup secrets for this installation…")]
    else [])

/-- `_run_backup_import_sync`. -/
def runBackupImportSync : Code Str importSig Unit :=
  tryCatch
    (do
      runSteps (.work .load :: imp.restorePayloadSteps)
      runSteps ([.activity, .finish (completeProgress imp.restarting)] ++
        if imp.restarting then [.restart] else []))
    fun error => runSteps [.activity, .finish (failedProgress error)]

/-- `mark_restore_worker_finished`. -/
def markRestoreWorkerFinished : Code Str importSig Unit := do
  let running ← ask .isInProgress
  runSteps (if running then [.markFinished] else [])

/-- `_run_backup_import`: the worker, and its `finally`. -/
def runBackupImport : Prog importSig Unit := do
  let _ ← imp.runBackupImportSync.prog
  let _ ← markRestoreWorkerFinished.prog
  .ret ()

/-- `settings_backup_import_async`, from `try_begin_restore` on, and the task
it creates. -/
def settingsBackupImportAsync : Prog importSig Unit :=
  .call .tryBegin fun
    | .ok true => imp.runBackupImport
    | _ => .ret ()

end Import

/-! ## the row, and what has happened -/

/-- The row, and what has happened: the workers that have begun and have not
done their part since, each step of restore work with the workers that were
restoring at the time, and who has marked the progress of a worker that was
restoring. -/
structure ImportState (ι : Type) where
  row : Option RestoreProgress
  restoring : List ι
  worked : List (ι × List ι)
  harmed : List (ι × ι)

section

variable {ι : Type} [DecidableEq ι]

namespace ImportState

variable (i : ι) (s : ImportState ι)

def work : ImportState ι := { s with worked := (i, s.restoring) :: s.worked }

/-- The worker has come to the end of its restore. -/
def leave : ImportState ι := { s with restoring := s.restoring.filter (· ≠ i) }

/-- The worker marks the progress done or failed. -/
def mark (progress : RestoreProgress) : ImportState ι where
  row := some progress
  restoring := s.restoring.filter (· ≠ i)
  worked := s.worked
  harmed := (s.restoring.filter (· ≠ i)).map (fun j => (i, j)) ++ s.harmed

end ImportState

/-- The operations; the world says which of them raise. -/
def importEnv (ι : Type) [DecidableEq ι] : Env importSig ι (Option Str) (ImportState ι) where
  ready _ _ _ := true
  reply i raised o s :=
    match raised, o with
    -- a worker whose `finally` raises is over
    | some error, .isInProgress => (.error error, s.leave i)
    | some error, .markFinished => (.error error, s.leave i)
    | some error, .work _ => (.error error, s.work i)
    | some error, _ => (.error error, s)
    | none, .tryBegin =>
        if restoreIsRunning s.row then (.ok false, s)
        else (.ok true, { s with row := some startingProgress, restoring := i :: s.restoring })
    | none, .progress phase percent message =>
        (.ok (), { s with row := some ⟨phase, percent, message, false, none, none, false⟩ })
    | none, .work _ => (.ok (), s.work i)
    | none, .activity => (.ok (), s)
    | none, .restart => (.ok (), s)
    | none, .finish progress => (.ok (), s.mark i progress)
    | none, .isInProgress =>
        if restoreIsRunning s.row then (.ok true, s) else (.ok false, s.leave i)
    | none, .markFinished => (.ok (), s.mark i endedUnexpectedly)

/-- A worker that marks the progress done or failed has not done so before, or
finds no restore in progress. -/
def marksOwn : Cond importSig ι (Option Str) (ImportState ι) := fun i raised o s =>
  match raised, o with
  | none, .finish _ => i ∈ s.restoring ∨ restoreIsRunning s.row = false
  | none, .markFinished => i ∈ s.restoring ∨ restoreIsRunning s.row = false
  | _, _ => True

/-- One restore at most is under way, and the row says so; nobody has done
restore work but a worker alone, or marked the progress of another one. -/
structure OneRestore (s : ImportState ι) : Prop where
  one : s.restoring.length ≤ 1
  running : s.restoring ≠ [] → restoreIsRunning s.row = true
  alone : ∀ e ∈ s.worked, e.2 = [e.1]
  unharmed : s.harmed = []

/-- A worker keeps the others in the list of those that restore. -/
def importTerms (ι : Type) [DecidableEq ι] : Terms importSig ι (Option Str) (ImportState ι) where
  env := importEnv ι
  cond := marksOwn
  inv := OneRestore
  rely i s s' := i ∈ s.restoring → i ∈ s'.restoring

/-- An import that leaves keeps the restores apart. -/
theorem OneRestore.leave {s : ImportState ι} (h : OneRestore s) (i : ι) :
    OneRestore (s.leave i) where
  one := le_trans (List.length_filter_le _ _) h.one
  running hne := h.running fun hnil => hne (by simp [ImportState.leave, hnil])
  alone := h.alone
  unharmed := h.unharmed

omit [DecidableEq ι] in

/-- An import that restores is the only one. -/
theorem OneRestore.eq_singleton {s : ImportState ι} (h : OneRestore s) {i : ι}
    (hi : i ∈ s.restoring) : s.restoring = [i] := by
  obtain ⟨row, restoring, worked, harmed⟩ := s
  have hone := h.one
  dsimp only at hi hone ⊢
  match restoring, hi with
  | [j], hi => rw [List.mem_singleton.mp hi]
  | j :: k :: rest, _ =>
      rw [List.length_cons, List.length_cons] at hone
      omega

/-- With nobody else restoring, no harm is done. -/
theorem OneRestore.mark {s : ImportState ι} (h : OneRestore s) {i : ι} {progress : RestoreProgress}
    (hown : i ∈ s.restoring ∨ restoreIsRunning s.row = false) : OneRestore (s.mark i progress) := by
  have halone : s.restoring.filter (· ≠ i) = [] := by
    rcases hown with hi | hrow
    · rw [h.eq_singleton hi]
      simp
    · have hnil : s.restoring = [] := by
        by_contra hne
        rw [h.running hne] at hrow
        contradiction
      rw [hnil]
      rfl
  unfold ImportState.mark
  rw [halone]
  exact ⟨by simp, by simp, h.alone, h.unharmed⟩

omit [DecidableEq ι] in

/-- An import that restores may go on. -/
theorem OneRestore.work {s : ImportState ι} (h : OneRestore s) {i : ι} (hi : i ∈ s.restoring) :
    OneRestore (s.work i) where
  one := h.one
  running := h.running
  alone := by
    intro e he
    rcases List.mem_cons.mp he with rfl | he
    · exact h.eq_singleton hi
    · exact h.alone e he
  unharmed := h.unharmed

/-- Every operation keeps the state in order, a step of restore work when its
worker is restoring. -/
theorem oneRestore_reply {i : ι} {raised : Option Str} {o : ImportOp} {s : ImportState ι}
    (h : OneRestore s) (hown : marksOwn i raised o s)
    (hwork : ∀ what, o = .work what → i ∈ s.restoring) :
    OneRestore ((importEnv ι).reply i raised o s).2 := by
  cases raised with
  | some error =>
      cases o with
      | isInProgress => exact h.leave i
      | markFinished => exact h.leave i
      | work what => exact h.work (hwork what rfl)
      | tryBegin => exact h
      | progress phase percent message => exact h
      | activity => exact h
      | finish progress => exact h
      | restart => exact h
  | none =>
      cases o with
      | tryBegin =>
          show OneRestore (if restoreIsRunning s.row then _ else _ : Except Str Bool × _).2
          cases hrow : restoreIsRunning s.row with
          | true => exact h
          | false =>
              have hnil : s.restoring = [] := by
                by_contra hne
                rw [h.running hne] at hrow
                contradiction
              exact ⟨by simp [hnil], fun _ => rfl, h.alone, h.unharmed⟩
      | progress phase percent message => exact ⟨h.one, fun _ => rfl, h.alone, h.unharmed⟩
      | work what => exact h.work (hwork what rfl)
      | activity => exact h
      | restart => exact h
      | finish progress => exact h.mark hown
      | isInProgress =>
          show OneRestore (if restoreIsRunning s.row then _ else _ : Except Str Bool × _).2
          cases restoreIsRunning s.row with
          | true => exact h
          | false => exact h.leave i
      | markFinished => exact h.mark hown

/-- No operation of a worker takes another one off the list. -/
theorem mem_restoring_reply {i j : ι} (hij : j ≠ i) (raised : Option Str) (o : ImportOp)
    (s : ImportState ι) (hj : j ∈ s.restoring) :
    j ∈ ((importEnv ι).reply i raised o s).2.restoring := by
  have hfilter : j ∈ s.restoring.filter (· ≠ i) := by simp [hj, hij]
  cases raised <;> cases o <;> try exact hj
  all_goals first | exact hfilter | skip
  all_goals
    unfold importEnv
    dsimp only
    split
  all_goals first | exact hj | exact hfilter | exact List.mem_cons_of_mem _ hj

/-! ## one worker among others -/

/-- The step of one import is what the others rely on. -/
theorem rely_import {i j : ι} (hj : j ≠ i) (raised : Option Str) (o : ImportOp)
    (s : ImportState ι) : (importTerms ι).rely j s ((importEnv ι).reply i raised o s).2 :=
  mem_restoring_reply hj raised o s

/-- No other import ends a restore. -/
theorem stable_restoring (i : ι) : (importTerms ι).Stable i fun s => i ∈ s.restoring :=
  fun _ _ _ _ hrely h => hrely h

/-- The operations before the progress is marked. -/
def ImportOp.restores : ImportOp → Prop
  | progress .. | work _ | activity => True
  | _ => False

/-- The operations that are no step of restore work. -/
def ImportOp.isQuiet : ImportOp → Prop
  | work _ => False
  | _ => True

variable {i : ι}

/-- What a program says when nothing is asked of its end. -/
abbrev ImportOutline (i : ι) {α : Type} (p : Prog importSig α) (K : ImportState ι → Prop) : Prop :=
  (importTerms ι).Outline i (fun _ => True) (fun _ _ => True) p K

/-- The outline of one step. -/
theorem outline_ask {o : ImportOp} {K J : ImportState ι → Prop} (hstable : (importTerms ι).Stable i J)
    (hwork : ∀ what, o = .work what → ∀ s, K s → i ∈ s.restoring)
    (hnext : ∀ raised s, K s → J ((importEnv ι).reply i raised o s).2) :
    (importTerms ι).Outline i (fun _ => True) (fun _ => J) (ask o).prog K := by
  refine ⟨fun _ _ _ => trivial, fun raised s hs hk _ hown => ?_⟩
  exact ⟨oneRestore_reply hs hown fun what hwhat => hwork what hwhat s hk,
    fun j hj => rely_import hj raised o s, J, hstable, hnext raised s hk, fun _ _ h => h⟩

/-- Restore work leaves the worker restoring, whether or not it raises. -/
theorem outline_restoring {ops : List ImportOp} (hops : ∀ o ∈ ops, o.restores) :
    (importTerms ι).Outline i (fun _ => True) (fun _ s => i ∈ s.restoring) (runSteps ops).prog
      fun s => i ∈ s.restoring := by
  induction ops with
  | nil => exact fun _ _ h => h
  | cons o ops ih =>
      refine Terms.Outline.bindCode (outline_ask (stable_restoring i) (fun _ _ _ h => h) ?_)
        (fun _ => ih fun o ho => hops o (List.mem_cons_of_mem _ ho)) fun _ _ _ h => h
      intro raised s hs
      have ho := hops o List.mem_cons_self
      cases o <;> first | contradiction | (cases raised <;> exact hs)

/-- The outline of steps that touch no restore. -/
theorem outline_quiet {ops : List ImportOp} (hops : ∀ o ∈ ops, o.isQuiet) :
    ImportOutline i (runSteps ops).prog fun _ => True := by
  induction ops with
  | nil => exact fun _ _ _ => trivial
  | cons o ops ih =>
      refine Terms.Outline.bindCode (outline_ask (J := fun _ => True) (fun _ _ _ _ _ _ => trivial) ?_ fun _ _ _ => trivial)
        (fun _ => ih fun o ho => hops o (List.mem_cons_of_mem _ ho)) fun _ _ _ _ => trivial
      rintro what rfl
      exact (hops _ List.mem_cons_self).elim

/-- The steps of a restore. -/
theorem restores_restorePayloadSteps (imp : Import) :
    ∀ o ∈ .work .load :: imp.restorePayloadSteps, o.restores := by
  intro o ho
  unfold Import.restorePayloadSteps at ho
  simp only [List.mem_cons, List.mem_append, List.not_mem_nil, or_false] at ho
  rcases ho with rfl | (((rfl | rfl) | ho) | ho) | ho
  · trivial
  · trivial
  · trivial
  all_goals
    repeat' split at ho
    all_goals grind [ImportOp.restores]

/-- The outline of the worker. -/
theorem outline_runBackupImport (imp : Import) :
    ImportOutline i imp.runBackupImport fun s => i ∈ s.restoring := by
  have hbody : ImportOutline i imp.runBackupImportSync.prog fun s => i ∈ s.restoring := by
    refine Terms.Outline.tryCatch (M := fun _ _ => True) ?_ (fun error => ?_) fun _ _ _ _ => trivial
    · refine Terms.Outline.bindCode (outline_restoring (restores_restorePayloadSteps imp))
        (fun _ => (outline_quiet ?_).mono (fun _ _ _ => trivial) fun _ _ h => h)
        fun _ _ _ _ => trivial
      intro o ho
      cases imp.restarting <;> simp at ho <;> grind [ImportOp.isQuiet]
    · refine outline_quiet fun o ho => ?_
      simp at ho
      grind [ImportOp.isQuiet]
  have hfinally : ImportOutline i Import.markRestoreWorkerFinished.prog fun _ => True := by
    refine Terms.Outline.bindCode (outline_ask (fun _ _ _ _ _ _ => trivial)
      (fun _ h => by cases h) fun _ _ _ => trivial) (fun running => outline_quiet ?_)
      fun _ _ _ _ => trivial
    intro o ho
    cases running <;> simp at ho
    subst ho
    trivial
  exact hbody.bind fun _ => hfinally.bind fun _ _ _ _ => trivial

/-- The outline of the request that starts it. -/
theorem outline_settingsBackupImportAsync (imp : Import) :
    ImportOutline i imp.settingsBackupImportAsync fun _ => True := by
  refine ⟨fun _ _ _ => trivial, fun raised s hs _ _ hown => ?_⟩
  refine ⟨oneRestore_reply hs hown (fun _ h => by cases h),
    fun j hj => rely_import hj raised .tryBegin s, ?_⟩
  cases raised with
  | some error => exact ⟨fun _ => True, fun _ _ _ _ _ _ => trivial, trivial, fun _ _ _ => trivial⟩
  | none =>
      dsimp only [importTerms, importEnv]
      cases restoreIsRunning s.row with
      | true => exact ⟨fun _ => True, fun _ _ _ _ _ _ => trivial, trivial, fun _ _ _ => trivial⟩
      | false =>
          exact ⟨_, stable_restoring i, List.mem_cons_self, outline_runBackupImport imp⟩

/-! ## imports at the same time -/

/-- The requests, before any of them has begun. -/
def importing (imports : ι → Import) (row : Option RestoreProgress) :
    Config importSig ι (ImportState ι) Unit :=
  ⟨⟨row, [], [], []⟩, fun i => (imports i).settingsBackupImportAsync⟩

/-- As long as no worker that has marked its own progress marks one that is in
progress, one restore at most is under way, its work is done by its worker
alone, and nobody marks it but that worker. -/
theorem one_restore_at_a_time (imports : ι → Import) (row : Option RestoreProgress)
    (es : List (ι × Option Str))
    (hm : (importing imports row).MeetsRun (importEnv ι) marksOwn es) :
    OneRestore ((importing imports row).turns (importEnv ι) es).shared := by
  have hstart : (importTerms ι).Outlined (fun _ _ => True) (fun _ _ _ => True)
      (importing imports row) := by
    refine ⟨⟨by simp [importing], fun h => absurd rfl h, by simp [importing], rfl⟩, fun i => ?_⟩
    exact ⟨fun _ => True, fun _ _ _ _ _ _ => trivial, trivial,
      outline_settingsBackupImportAsync (imports i)⟩
  exact (Terms.outlined_turns hstart hm).1

instance (i : ι) (raised : Option Str) (o : ImportOp) (s : ImportState ι) :
    Decidable (marksOwn i raised o s) := by
  unfold marksOwn
  split <;> infer_instance

end

/-! ## a worker between its end and its `finally` -/

def usersImport (_ : Fin 3) : Import := ⟨[.users], false⟩

/-- Two restores in turn: the first has run its `finally` when the second
begins. -/
def importsInTurn : List (Fin 3 × Option Str) :=
  List.replicate 10 (0, none) ++ List.replicate 2 (1, none)

/-- The second restore begins when the first is done but has not run its
`finally`, and a third one right after that. -/
def importsOverlapping : List (Fin 3 × Option Str) :=
  List.replicate 9 (0, none) ++ [(1, none), (0, none), (0, none), (2, none), (2, none), (1, none)]

theorem one_restore_at_a_time_in_turn :
    OneRestore ((importing usersImport none).turns (importEnv (Fin 3)) importsInTurn).shared :=
  one_restore_at_a_time usersImport none importsInTurn (by decide)

/-- The `finally` of the first restore marks the second one failed, and the
third one works at the same time as the second. -/
theorem restores_overlap :
    let s := ((importing usersImport none).turns (importEnv (Fin 3)) importsOverlapping).shared
    s.harmed = [(0, 1)] ∧ s.worked.take 2 = [(1, [2, 1]), (2, [2, 1])] ∧ ¬ OneRestore s := by
  refine ⟨by decide, by decide, fun h => ?_⟩
  exact absurd h.unharmed (by decide)

end ApiToDns.Backup
