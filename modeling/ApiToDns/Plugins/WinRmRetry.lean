import ApiToDns.Plugins.WinRm

/-!
# Plugins.WinRmRetry

How `_run_ps_with_retry` runs a script (`plugins/microsoft.py`), and the script
of a change line by line.  What a line does to the values of the record set is
its `Step`; PowerShell stops at the first line that fails, since every script
that changes something sets `$ErrorActionPreference`.
-/

namespace ApiToDns.Microsoft

open Py

/-! ## attempts -/

/-- What a session returns for a script, decoded. -/
structure PsResult where
  statusCode : Int
  stdErr : Str
  stdOut : Str

/-- The sessions under `_run_ps_with_retry`; an error is what opening one or
running the script raises. -/
abbrev sessionSig : Sig := ⟨WinRmOp, fun _ => Except Exc PsResult⟩

/-- `_WINRM_MAX_ATTEMPTS`. -/
def maxAttempts : Nat := 3

/-- `_ACCESS_DENIED_MARKERS`. -/
def accessDeniedMarkers : List Str := [
  lit "access is denied", lit "access denied", lit "logon failure",
  lit "unknown user name or bad password", lit "the user name or password is incorrect",
  lit "authorization failed", lit "authentication failed", lit "fault code 5", lit "fault_code>5<",
  lit "permission denied", lit "denied access"]

section

variable (U : Ucd)

/-- `_looks_like_access_denied`. -/
def looksLikeAccessDenied (text : Str) : Bool :=
  accessDeniedMarkers.any fun marker => contains (U.lower text) marker

/-- `str(exc)`. -/
def excText : Exc → Str
  | .valueError msg | .validationError msg | .patchMergeError msg | .providerDisabled msg
  | .runtimeError msg | .importError msg | .other msg => msg

/-- What an attempt ends in. -/
inductive Attempt where
  | returns (result : PsResult)
  | raises (exc : Exc)
  | again

/-- `except RuntimeError`. -/
def onRuntimeError (isLast : Bool) (exc : Exc) : Attempt :=
  if looksLikeAccessDenied U (excText exc) then .raises exc
  else if isLast then .raises exc
  else .again

/-- `combined`: all that a script printed. -/
def PsResult.combined (result : PsResult) : Str := result.stdErr ++ ['\n'] ++ result.stdOut

/-- The exception for a script that failed; of its output it has one stream. -/
def PsResult.failure (result : PsResult) : Exc :=
  .runtimeError (lit "WinRM/PowerShell failed (" ++ intStr result.statusCode ++ lit "): " ++
    if result.stdErr = [] then result.stdOut else result.stdErr)

/-- One turn of the loop. -/
def attempt (isLast : Bool) : Except Exc PsResult → Attempt
  | .ok result =>
      if result.statusCode = 0 then .returns result
      else if looksLikeAccessDenied U result.combined then onRuntimeError U isLast result.failure
      else if isLast then onRuntimeError U isLast result.failure
      else .again
  | .error (.importError msg) => .raises (.importError msg)
  | .error (.runtimeError msg) => onRuntimeError U isLast (.runtimeError msg)
  | .error (.providerDisabled msg) => onRuntimeError U isLast (.providerDisabled msg)
  | .error exc =>
      if looksLikeAccessDenied U (excText exc) then
        .raises (.runtimeError (lit "WinRM access denied: " ++ excText exc))
      else if isLast then
        .raises (.runtimeError (lit "WinRM failed after " ++ natStr maxAttempts ++
          lit " attempts: " ++ excText exc))
      else .again

/-- The loop of `_run_ps_with_retry`, with a number of attempts left.  After
the last one it would return nothing. -/
def attemptPs (o : WinRmOp) : Nat → Prog sessionSig (Except Exc PsResult)
  | 0 => .ret (.error (.other (lit "AttributeError")))
  | left + 1 => .call o fun reply =>
      match attempt U (left = 0) reply with
      | .returns result => .ret (.ok result)
      | .raises exc => .ret (.error exc)
      | .again => attemptPs o left

/-- `_run_ps_with_retry`. -/
def runPsWithRetry (o : WinRmOp) : Prog sessionSig (Except Exc PsResult) := attemptPs U o maxAttempts

/-- The calls of the client are run with retries. -/
def retried {σ : Type} (h : Handler sessionSig σ) : Handler winRmSig σ :=
  fun o s =>
    let (result, s') := (runPsWithRetry U o).run h s
    (PsResult.stdOut <$> result, s')

end

/-! ## lines -/

/-- What a line of a change does to the values of the record set. -/
inductive Step where
  | setting
  | remove
  | add (value : Str)

/-- The values after a line. -/
def Step.after (stored : List Str) : Step → List Str
  | setting => stored
  | remove => []
  | add value => stored ++ [value]

/-- The steps of the lines of a change. -/
def updateSteps (values : List Str) : List Step :=
  List.replicate 6 .setting ++ [.remove] ++ values.map .add

/-- The lines of the script of a change, each with its step. -/
def updateLines (U : Ucd) (server zone name : Str) (rt : RecordType) (ttl : Int)
    (values : List Str) : Except Exc (List (Step × Script)) := do
  let lines ← addRecordLines U rt values
  let settings := header server zone name ++
    [[code "$TtlSeconds = ", number ttl], [code "Import-Module DnsServer -ErrorAction Stop"]]
  return settings.map (.setting, ·) ++ [(.remove, removeLine (winrmRrType U rt.text))] ++
    (values.map .add).zip lines

section

variable {U : Ucd} {server zone name : Str} {rt : RecordType} {ttl : Int} {values : List Str}
  {lines : List Script}

/-- A CNAME is added with its first value. -/
theorem length_addRecordLines (hsingle : rt = .cname → ∃ value, values = [value])
    (h : addRecordLines U rt values = .ok lines) : lines.length = values.length := by
  cases rt with
  | a | aaaa | txt | ns | ptr =>
      rw [← Except.ok.inj h]
      exact List.length_map ..
  | cname =>
      obtain ⟨value, rfl⟩ := hsingle rfl
      rw [← Except.ok.inj h]
      rfl
  | mx | srv | caa => exact (mapM_eq_ok_iff.mp h).length_eq.symm
  | soa => contradiction

/-- The script is its lines. -/
theorem updateScript_eq (hsingle : rt = .cname → ∃ value, values = [value]) :
    updateScript U server zone name rt ttl values =
      (fun lines => joinLines (lines.map Prod.snd)) <$> updateLines U server zone name rt ttl values := by
  unfold updateScript updateLines
  cases h : addRecordLines U rt values with
  | error e => rfl
  | ok lines =>
      have hlen := length_addRecordLines hsingle h
      have hzip : ((values.map Step.add).zip lines).map Prod.snd = lines :=
        List.map_snd_zip (by rw [List.length_map, hlen])
      change Except.ok _ = Except.ok _
      simp [hzip, header]

/-- The steps of an update. -/
theorem map_fst_updateLines {lines : List (Step × Script)}
    (hsingle : rt = .cname → ∃ value, values = [value])
    (h : updateLines U server zone name rt ttl values = .ok lines) :
    lines.map Prod.fst = updateSteps values := by
  unfold updateLines at h
  obtain ⟨added, hadded, h⟩ := bind_eq_ok h
  have hlen := length_addRecordLines hsingle hadded
  have hzip : ((values.map Step.add).zip added).map Prod.fst = values.map Step.add :=
    List.map_fst_zip (by rw [List.length_map, hlen])
  rw [← Except.ok.inj h]
  simp [hzip, header, updateSteps, List.replicate]

/-! ## the values while the lines run -/

/-- The line that removes what there is. -/
def removeIndex : Nat := 6

/-- Added values come at the end. -/
theorem foldl_add (stored values : List Str) :
    (values.map Step.add).foldl Step.after stored = stored ++ values := by
  induction values generalizing stored with
  | nil => simp
  | cons value values ih =>
      rw [List.map_cons, List.foldl_cons, ih, Step.after, List.append_assoc, List.singleton_append]

/-- Before its turn the removal has done nothing, and after it there is what was
added since. -/
theorem foldl_take_updateSteps (stored values : List Str) (index : Nat) :
    ((updateSteps values).take index).foldl Step.after stored =
      if index ≤ removeIndex then stored else values.take (index - (removeIndex + 1)) := by
  have hsettings : ∀ n, (List.replicate n Step.setting).foldl Step.after stored = stored := by
    intro n
    induction n with
    | zero => rfl
    | succ n ih => rwa [List.replicate_succ, List.foldl_cons]
  unfold removeIndex
  split
  · next hle =>
      rw [updateSteps, List.append_assoc, List.take_append, List.length_replicate,
        Nat.sub_eq_zero_of_le hle, List.take_zero, List.append_nil, List.take_replicate, hsettings]
  · next hlt =>
      have hall : (List.replicate 6 Step.setting ++ [Step.remove]).take index =
          List.replicate 6 Step.setting ++ [Step.remove] := by
        refine List.take_of_length_le ?_
        rw [List.length_append, List.length_replicate, List.length_singleton]
        omega
      rw [updateSteps, List.take_append, hall, List.foldl_append, List.foldl_append, hsettings,
        List.length_append, List.length_replicate, List.length_singleton, ← List.map_take, foldl_add]
      rfl

end

/-! ## attempts that fail -/

section

variable {U : Ucd} {σ : Type} {h : Handler sessionSig σ} {stored : σ → List Str} {o : WinRmOp}

/-- The script did not run to its end. -/
def Failed (reply : Except Exc PsResult) : Prop := ∀ r, reply = .ok r → r.statusCode ≠ 0

/-- A runtime error is raised or tried again. -/
theorem onRuntimeError_cases (isLast : Bool) (exc : Exc) :
    onRuntimeError U isLast exc = .raises exc ∨
      isLast = false ∧ onRuntimeError U isLast exc = .again := by
  unfold onRuntimeError
  split
  · exact .inl rfl
  · cases isLast <;> simp

/-- An attempt that fails raises or is followed by another. -/
theorem attempt_of_failed {reply : Except Exc PsResult} (hfailed : Failed reply) (isLast : Bool) :
    (∃ exc, attempt U isLast reply = .raises exc) ∨
      isLast = false ∧ attempt U isLast reply = .again := by
  have hruntime := fun exc => (onRuntimeError_cases (U := U) isLast exc).imp_left fun h =>
    (⟨exc, h⟩ : ∃ exc', onRuntimeError U isLast exc = .raises exc')
  cases reply with
  | ok result =>
      have hstatus := hfailed result rfl
      rw [attempt, if_neg hstatus]
      split
      · exact hruntime _
      · cases isLast with
        | true => exact hruntime _
        | false => exact .inr ⟨rfl, rfl⟩
  | error exc =>
      cases exc with
      | importError msg => exact .inl ⟨_, rfl⟩
      | runtimeError msg => exact hruntime _
      | providerDisabled msg => exact hruntime _
      | valueError msg | validationError msg | patchMergeError msg | other msg =>
          rw [attempt] <;> try (intros; contradiction)
          cases looksLikeAccessDenied U (excText _) with
          | true => exact .inl ⟨_, rfl⟩
          | false => cases isLast with
            | true => exact .inl ⟨_, rfl⟩
            | false => exact .inr ⟨rfl, rfl⟩

/-- A script that fails on every attempt does what it does on one attempt, if
doing that again does nothing more. -/
theorem run_attemptPs_failed (effect : List Str → List Str)
    (hagain : ∀ values, effect (effect values) = effect values)
    (hfailed : ∀ s, Failed (h o s).1) (heffect : ∀ s, stored (h o s).2 = effect (stored s))
    (left : Nat) (s : σ) :
    ∃ exc s', (attemptPs U o (left + 1)).run h s = (.error exc, s') ∧
      stored s' = effect (stored s) := by
  induction left generalizing s with
  | zero =>
      rw [attemptPs, Prog.run_call]
      rcases attempt_of_failed (U := U) (hfailed s) true with ⟨exc, hraises⟩ | ⟨hlast, -⟩
      · simp only [decide_true, hraises]
        exact ⟨exc, _, rfl, heffect s⟩
      · contradiction
  | succ left ih =>
      rw [attemptPs, Prog.run_call, decide_eq_false (Nat.succ_ne_zero left)]
      rcases attempt_of_failed (U := U) (hfailed s) false with ⟨exc, hraises⟩ | ⟨-, hagain'⟩
      · rw [hraises]
        exact ⟨exc, _, rfl, heffect s⟩
      · rw [hagain']
        obtain ⟨exc, s', hrun, hstored⟩ := ih (h o s).2
        exact ⟨exc, s', hrun, by rw [hstored, heffect, hagain]⟩

end

end ApiToDns.Microsoft
