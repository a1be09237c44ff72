import ApiToDns.CloudflareFailure
import ApiToDns.Plugins.WinRmRetry

/-!
# ReplaceFailure

A replace that fails at a step, at Cloudflare and at a Microsoft server.  Both
clients remove before they add, so both can leave nothing of a record set that
was there (`replace_survives_iff`).
-/

namespace ApiToDns.Microsoft

open Py Code

/-- Where a replace fails: at the lookup before it, or at a line of its script. -/
inductive FailingStep where
  | lookup
  | line (index : Nat)

/-- There is something left, and every wanted value that was there is. -/
def Survives (desired before after : List Str) : Prop :=
  after ≠ [] ∧ ∀ value ∈ desired, value ∈ before → value ∈ after

/-- It does no harm to fail up to the line that removes what there is, nor once
all values that were there are added again, and one at least. -/
def SafeAt (desired before : List Str) : FailingStep → Prop
  | .lookup => True
  | .line index => index ≤ removeIndex ∨
      (removeIndex + 1 < index ∧
        ∀ value ∈ desired, value ∈ before → value ∈ desired.take (index - (removeIndex + 1)))

section

variable {σ : Type}

/-- The scripts of a replace at a server that fails at the same step every time
it is tried: the lines before the failing one are done. -/
def FailsAt (h : Handler sessionSig σ) (stored : σ → List Str) (lookup : WinRmOp) (server : Str)
    (lines : List (Step × Script)) : FailingStep → Prop
  | .lookup => ∀ s, Failed (h lookup s).1
  | .line index => index < lines.length ∧ (∀ s, ¬Failed (h lookup s).1) ∧
      ∀ s, Failed (h ⟨server, joinLines (lines.map Prod.snd)⟩ s).1 ∧
        stored (h ⟨server, joinLines (lines.map Prod.snd)⟩ s).2 =
          ((lines.take index).map Prod.fst).foldl Step.after (stored s)

variable {P : Platform} {h : Handler sessionSig σ} {stored : σ → List Str} {s s' : σ} {e : Exc}
  {host zone name : Str} {rt : RecordType} {ttl : Int} {values desired : List Str}
  {lines : List (Step × Script)} {failing : FailingStep}

/-- The script of the lookup. -/
def lookupOp (P : Platform) (host zone name : Str) (rt : RecordType) : WinRmOp :=
  ⟨host, recordExistsScript host zone name (winrmRrType P.ucd rt.text)⟩

/-- What a script prints is the answer. -/
theorem run_runPs (o : WinRmOp) (s : σ) :
    (runPs o.server o.script).run (retried P.ucd h) s =
      (PsResult.stdOut <$> ((runPsWithRetry P.ucd o).run h s).1, ((runPsWithRetry P.ucd o).run h s).2) :=
  rfl

/-- A script that fails raises. -/
theorem run_runPs_error {o : WinRmOp} {exc : Exc} (hrun : (runPsWithRetry P.ucd o).run h s = (.error exc, s')) :
    (runPs o.server o.script).run (retried P.ucd h) s = (.error exc, s') := by
  rw [run_runPs, hrun]
  rfl

/-- The script of a change that fails at a line. -/
theorem run_update_failed {index : Nat} (hsingle : rt = .cname → ∃ value, desired = [value])
    (hlines : updateLines P.ucd host zone name rt ttl desired = .ok lines)
    (hfails : FailsAt h stored (lookupOp P host zone name rt) host lines (.line index)) (s : σ) :
    ∃ exc s', (runPs host (joinLines (lines.map Prod.snd))).run (retried P.ucd h) s = (.error exc, s') ∧
      stored s' = if index ≤ removeIndex then stored s else desired.take (index - (removeIndex + 1)) := by
  obtain ⟨-, -, hstop⟩ := hfails
  have heffect : ∀ s, stored (h ⟨host, joinLines (lines.map Prod.snd)⟩ s).2 =
      if index ≤ removeIndex then stored s else desired.take (index - (removeIndex + 1)) := by
    intro s
    rw [(hstop s).2, List.map_take, map_fst_updateLines hsingle hlines, foldl_take_updateSteps]
  obtain ⟨exc, s', hrun, hstored⟩ := run_attemptPs_failed (U := P.ucd)
    (fun old => if index ≤ removeIndex then old else desired.take (index - (removeIndex + 1)))
    (fun old => by split <;> rfl) (fun s => (hstop s).1) heffect 2 s
  exact ⟨exc, s', run_runPs_error hrun, hstored⟩

/-- When the RRset survives an update that stops at a line. -/
theorem survives_iff_safeAt {index : Nat} (hindex : index < (updateSteps desired).length)
    {before after : List Str} (hbefore : before ≠ [])
    (hafter : after = if index ≤ removeIndex then before else desired.take (index - (removeIndex + 1))) :
    Survives desired before after ↔ SafeAt desired before (.line index) := by
  rw [SafeAt]
  split at hafter
  · next hle =>
      rw [hafter]
      exact iff_of_true ⟨hbefore, fun _ _ hmem => hmem⟩ (.inl hle)
  · next hlt =>
      rw [updateSteps, List.length_append, List.length_append, List.length_map,
        List.length_replicate, List.length_singleton] at hindex
      have hne : after ≠ [] ↔ removeIndex + 1 < index := by
        rw [hafter, Ne, ← List.length_eq_zero_iff, List.length_take]
        unfold removeIndex at hlt ⊢
        omega
      rw [Survives, hne, or_iff_right hlt, hafter]

/-- A lookup that fails raises and changes nothing. -/
theorem run_lookup_failed (hlook : ∀ s, stored (h (lookupOp P host zone name rt) s).2 = stored s)
    (hfails : ∀ s, Failed (h (lookupOp P host zone name rt) s).1) (s : σ) :
    ∃ exc s', (recordExists P host zone name (winrmRrType P.ucd rt.text)).run (retried P.ucd h) s =
      (.error exc, s') ∧ stored s' = stored s := by
  obtain ⟨exc, s', hrun, hstored⟩ :=
    run_attemptPs_failed (U := P.ucd) id (fun _ => rfl) hfails hlook 2 s
  have hps : (runPs host (lookupOp P host zone name rt).script).run (retried P.ucd h) s =
      (.error exc, s') := run_runPs_error hrun
  exact ⟨exc, s', run_bind_error hps _, hstored⟩

/-- A lookup that works changes nothing. -/
theorem run_lookup_ok (hlook : ∀ s, stored (h (lookupOp P host zone name rt) s).2 = stored s)
    (hworks : ∀ s, ¬Failed (h (lookupOp P host zone name rt) s).1) (s : σ) :
    ∃ existed s', (recordExists P host zone name (winrmRrType P.ucd rt.text)).run (retried P.ucd h) s =
      (.ok existed, s') ∧ stored s' = stored s := by
  have hreply := hworks s
  simp only [Failed, not_forall, not_not] at hreply
  obtain ⟨result, hok, hstatus⟩ := hreply
  have hrun : (runPs host (lookupOp P host zone name rt).script).run (retried P.ucd h) s =
      (.ok result.stdOut, (h (lookupOp P host zone name rt) s).2) := by
    have hattempts : (runPsWithRetry P.ucd (lookupOp P host zone name rt)).run h s =
        (.ok result, (h (lookupOp P host zone name rt) s).2) := by
      change (attemptPs P.ucd (lookupOp P host zone name rt) 3).run h s = _
      rw [attemptPs, Prog.run_call, hok, attempt, if_pos hstatus]
      rfl
    refine (run_runPs (lookupOp P host zone name rt) s).trans ?_
    rw [hattempts]
    rfl
  exact ⟨_, _, run_bind_ok hrun _, hlook s⟩

/-- A replace that fails at a step, with values there. -/
structure FailedReplace (P : Platform) (h : Handler sessionSig σ) (stored : σ → List Str)
    (rt : RecordType) (desired : List Str) (failing : FailingStep) (payload : DnsRecordRequest)
    (server : Json) (dnsZone : Str) (s s' : σ) : Prop where
  step : ∃ host zone lines,
    target P server dnsZone = .ok (host, zone) ∧
    updateLines P.ucd host zone (dnsRelativeName P.ucd zone payload.recordName) rt
      (ttlOrDefault payload.ttl) desired = .ok lines ∧
    (∀ s, stored (h (lookupOp P host zone (dnsRelativeName P.ucd zone payload.recordName) rt) s).2 =
      stored s) ∧
    FailsAt h stored (lookupOp P host zone (dnsRelativeName P.ucd zone payload.recordName) rt) host
      lines failing
  existing : stored s ≠ []
  run : ∃ e, (createOrUpdateRecord P payload server dnsZone).run (retried P.ucd h) s = (.error e, s')

/-- When the RRset survives a replace that fails. -/
theorem FailedReplace.survives_iff {payload : DnsRecordRequest} {server : Json} {dnsZone : Str}
    (hf : FailedReplace P h stored rt desired failing payload server dnsZone s s')
    (hrt : supportedType (P.ucd.upper payload.recordType) = .ok rt)
    (hnormal : normalizeRecordValues P.ucd rt payload.values = .ok desired) :
    Survives desired (stored s) (stored s') ↔ SafeAt desired (stored s) failing := by
  obtain ⟨host, zone, lines, htarget, hlines, hlook, hfails⟩ := hf.step
  obtain ⟨e, hrun⟩ := hf.run
  have hsingle := (normalizeRecordValues_ok hnormal).2
  have hnot : P.ucd.upper payload.recordType ≠ deleteType := by
    intro hdelete
    rw [hdelete] at hrt
    contradiction
  generalize hname : dnsRelativeName P.ucd zone payload.recordName = name at hlines hlook hfails
  have hscript : updateScript P.ucd host zone name rt (ttlOrDefault payload.ttl) desired =
      .ok (joinLines (lines.map Prod.snd)) := by
    rw [updateScript_eq hsingle, hlines]
    rfl
  have hcode : createOrUpdateRecord P payload server dnsZone = (do
      let existed ← recordExists P host zone name (winrmRrType P.ucd rt.text)
      let _ ← runPs host (joinLines (lines.map Prod.snd))
      return existed) := by
    rw [createOrUpdateRecord, htarget, lift_ok, pure_bind]
    simp only [if_neg hnot, writeRecords, hrt, hnormal, lift_ok, pure_bind, hname, hscript]
  rw [hcode] at hrun
  cases failing with
  | lookup =>
      obtain ⟨exc, s₁, hlookup, hsame⟩ := run_lookup_failed hlook hfails s
      rw [run_bind_error hlookup] at hrun
      obtain ⟨-, rfl⟩ := Prod.ext_iff.mp hrun
      rw [hsame]
      exact iff_of_true ⟨hf.existing, fun _ _ hmem => hmem⟩ trivial
  | line index =>
      obtain ⟨existed, s₁, hlookup, hsame⟩ := run_lookup_ok hlook hfails.2.1 s
      rw [run_bind_ok hlookup] at hrun
      obtain ⟨exc, s₂, hupdate, hafter⟩ := run_update_failed hsingle hlines hfails s₁
      rw [run_bind_error hupdate] at hrun
      obtain ⟨-, rfl⟩ := Prod.ext_iff.mp hrun
      rw [hsame] at hafter
      have hindex : index < (updateSteps desired).length := by
        rw [← map_fst_updateLines hsingle hlines, List.length_map]
        exact hfails.1
      exact survives_iff_safeAt hindex hf.existing hafter

/-- The mutable types are supported. -/
theorem supportedType_of_mutable {recordType : Str} (hrt : RecordType.ofText? recordType = some rt)
    (hmutable : rt.isMutable = true) : supportedType recordType = .ok rt := by
  simp [supportedType, hrt, Option.filter, hmutable]

end

end ApiToDns.Microsoft

namespace ApiToDns

open Py

/-- A replace that fails at a step keeps something of the record set, and the
values that stay wanted, exactly if the step is a safe one. -/
theorem replace_survives_iff {P : Platform} {payload : DnsRecordRequest} {dnsZone : Str}
    {rt : RecordType} {desired : List Str}
    (hrt : RecordType.ofText? (P.ucd.upper payload.recordType) = some rt)
    (hmutable : rt.isMutable = true)
    (hnormal : normalizeRecordValues P.ucd rt payload.values = .ok desired) :
    (∀ {σ : Type} {cfg : Cloudflare.Config} {h : Handler Cloudflare.httpSig σ}
        {rows : σ → List Dict} {t : Cloudflare.Target} {server : Json} {s s' : σ},
      t.rt = rt → Cloudflare.FailedReplace P cfg h rows t payload server dnsZone s s' →
        (Cloudflare.Survives P t desired
            ((rows s).filter (Cloudflare.inRRset t.fqdn t.rt))
            ((rows s').filter (Cloudflare.inRRset t.fqdn t.rt)) ↔
          Cloudflare.SafeAfter P cfg t desired ((rows s).filter (Cloudflare.inRRset t.fqdn t.rt))
            (Cloudflare.changesMade h
              (Cloudflare.createOrUpdateRecord P cfg payload server dnsZone) s))) ∧
      ∀ {σ : Type} {h : Handler Microsoft.sessionSig σ} {stored : σ → List Str}
        {failing : Microsoft.FailingStep} {server : Json} {s s' : σ},
        Microsoft.FailedReplace P h stored rt desired failing payload server dnsZone s s' →
          (Microsoft.Survives desired (stored s) (stored s') ↔
            Microsoft.SafeAt desired (stored s) failing) := by
  constructor
  · rintro σ cfg h rows t server s s' rfl hf
    exact hf.survives_iff hrt hnormal
  · intro σ h stored failing server s s' hf
    exact hf.survives_iff (Microsoft.supportedType_of_mutable hrt hmutable) hnormal

/-! ### a text that cannot be added -/

/-- `www.example.com` gets the text `two`. -/
def twoPayload : DnsRecordRequest := ⟨none, lit "TXT", lit "www", none, [lit "two"]⟩

/-- A Microsoft server that runs the scripts of `twoPayload` up to a line. -/
def stoppingAt (index : Nat) : Handler Microsoft.sessionSig (List Str) := fun o stored =>
  if o.script = Microsoft.recordExistsScript (lit "dc1") (lit "example.com") (lit "www")
      (lit "Txt") then
    (.ok ⟨0, [], lit "yes"⟩, stored)
  else
    (.ok ⟨1, lit "failed", []⟩,
      ((Microsoft.updateSteps [lit "two"]).take index).foldl Microsoft.Step.after stored)

/-- Cloudflare refuses the new text. -/
theorem cloudflare_failedReplace :
    Cloudflare.FailedReplace .plain Cloudflare.unproxied (Cloudflare.refusing .post) id
      (Cloudflare.wwwTarget .txt) twoPayload .null (lit "example.com") Cloudflare.wwwText [] where
  keeps := Cloudflare.refusing_keeps .plain .post
  clean := Cloudflare.refusing_failsClean .plain .post
  zone := by simp [Cloudflare.unproxied, Cloudflare.wwwTarget]
  target := rfl
  ids := Cloudflare.identified_wwwRow _ _ _
  existing := by decide
  run := ⟨_, rfl⟩

/-- The update stops at its seventh line. -/
theorem microsoft_failedReplace :
    Microsoft.FailedReplace .plain (stoppingAt 7) id .txt [lit "two"] (.line 7) twoPayload
      (.str (lit "dc1")) (lit "example.com") [lit "one"] [] where
  step := by
    refine ⟨lit "dc1", lit "example.com", _, by decide, rfl, fun s => ?_, by decide, fun s => ?_,
      fun s => ?_⟩
    · rfl
    · intro hfailed
      exact hfailed _ rfl rfl
    · refine ⟨?_, rfl⟩
      intro result hresult
      rw [← Except.ok.inj hresult]
      decide
  existing := by decide
  run := ⟨_, rfl⟩

theorem replace_survives_iff_text :
    (Cloudflare.Survives .plain (Cloudflare.wwwTarget .txt) [lit "two"]
          (Cloudflare.wwwText.filter (Cloudflare.inRRset (lit "www.example.com") .txt)) [] ↔
        Cloudflare.SafeAfter .plain Cloudflare.unproxied (Cloudflare.wwwTarget .txt) [lit "two"]
          (Cloudflare.wwwText.filter (Cloudflare.inRRset (lit "www.example.com") .txt))
          (Cloudflare.changesMade (Cloudflare.refusing .post) (Cloudflare.createOrUpdateRecord .plain
            Cloudflare.unproxied twoPayload .null (lit "example.com")) Cloudflare.wwwText)) ∧
      (Microsoft.Survives [lit "two"] [lit "one"] [] ↔
        Microsoft.SafeAt [lit "two"] [lit "one"] (.line 7)) := by
  have hrt : RecordType.ofText? (Platform.plain.ucd.upper twoPayload.recordType) = some .txt := by decide
  have hnormal : normalizeRecordValues Platform.plain.ucd .txt twoPayload.values =
      .ok [lit "two"] := by decide
  have hboth := @replace_survives_iff .plain twoPayload (lit "example.com") .txt [lit "two"] hrt rfl hnormal
  exact ⟨hboth.1 rfl cloudflare_failedReplace, hboth.2 microsoft_failedReplace⟩

/-- A text is replaced by another one that cannot be added: the record set is
gone. -/
theorem failed_replace_loses_all :
    normalizeRecordValues Platform.plain.ucd .txt twoPayload.values = .ok [lit "two"] ∧
      (Cloudflare.FailedReplace .plain Cloudflare.unproxied (Cloudflare.refusing .post) id
          (Cloudflare.wwwTarget .txt) twoPayload .null (lit "example.com") Cloudflare.wwwText [] ∧
        ¬Cloudflare.Survives .plain (Cloudflare.wwwTarget .txt) [lit "two"]
          (Cloudflare.wwwText.filter (Cloudflare.inRRset (lit "www.example.com") .txt)) []) ∧
      Microsoft.FailedReplace .plain (stoppingAt 7) id .txt [lit "two"] (.line 7) twoPayload
          (.str (lit "dc1")) (lit "example.com") [lit "one"] [] ∧
        ¬Microsoft.Survives [lit "two"] [lit "one"] [] :=
  ⟨by decide, ⟨cloudflare_failedReplace, fun hleft => hleft.1 rfl⟩, microsoft_failedReplace,
    fun hleft => hleft.1 rfl⟩

end ApiToDns
