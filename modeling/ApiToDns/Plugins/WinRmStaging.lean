import ApiToDns.Plugins.WinRmRetry
import ApiToDns.Py.Base64
import ApiToDns.Py.Encodings

/-!
# Plugins.WinRmStaging

`_run_ps_payload` (`plugins/microsoft.py`): a script that would be too long as
an encoded command is staged on the server as base64 in a file, piece by piece,
and run from a file there.

* `length_encodedCommand_le` — no command is too long;
* `calls_runPsPayload` — the commands are sent in order up to one that fails;
* `sameScript_iff` — the server runs the script it was given exactly if the
  script goes directly or is plain ASCII: PowerShell reads the file that the
  runner writes as UTF-8 in the Windows-1252 code page.
-/

namespace ApiToDns.Microsoft

open Py

/-! ## commands -/

/-- `_WINRM_ENCODED_SOFT_LIMIT`. -/
def encodedSoftLimit : Nat := 6000

/-- `_WINRM_B64_CHUNK_SIZE`. -/
def b64ChunkSize : Nat := 1800

/-- What `run_ps` passes to `powershell -encodedcommand`. -/
def encodedCommand (script : Str) : Str := Base64.encode (Utf16.encode script)

/-- What PowerShell takes from it. -/
def decodedCommand (encoded : Str) : Option Str :=
  (Base64.b64decode true encoded).map Utf16.decode

/-- `uuid.uuid4()`. -/
abbrev Uuid := BitVec 128

/-- `uuid.hex`. -/
def Uuid.hex (token : Uuid) : Str := Ucd.hexPad 32 token.toNat

/-- A command that is handed to `run_ps`; the staging commands know the token
of their file. -/
inductive Command where
  | direct (script : Str)
  | setContent (token chunk : Str)
  | addContent (token chunk : Str)
  | runner (token : Str)
deriving DecidableEq

/-- A command that writes to the staging file. -/
def stagingText (cmdlet : String) (token chunk : Str) : Str :=
  lit "$ErrorActionPreference='Stop'; " ++
    (lit "$p=Join-Path $env:TEMP 'atd-" ++ token ++ lit ".b64'; ") ++
    (lit cmdlet ++ lit " -LiteralPath $p -Value '" ++ chunk ++ lit "' -Encoding Ascii")

/-- The lines of the runner. -/
def runnerLines (token : Str) : List Str := [
  lit "$ErrorActionPreference = 'Stop'",
  lit "$b64p = Join-Path $env:TEMP 'atd-" ++ token ++ lit ".b64'",
  lit "$ps1 = Join-Path $env:TEMP 'atd-" ++ token ++ lit ".ps1'",
  lit "try \x7b",
  lit "  $text = [Text.Encoding]::UTF8.GetString(" ++
    lit "[Convert]::FromBase64String((Get-Content -LiteralPath $b64p -Raw)))",
  lit "  [IO.File]::WriteAllText($ps1, $text)",
  lit "  & $ps1",
  lit "\x7d finally \x7b",
  lit "  Remove-Item -LiteralPath $b64p,$ps1 -Force -ErrorAction SilentlyContinue",
  lit "\x7d"]

/-- The text of a command. -/
def Command.text : Command → Str
  | direct script => script
  | setContent token chunk => stagingText "Set-Content" token chunk
  | addContent token chunk => stagingText "Add-Content" token chunk
  | runner token => join ['\n'] (runnerLines token)

/-- The sessions under `_run_ps_payload`. -/
abbrev psSig : Sig := ⟨Command, fun _ => Except Exc PsResult⟩

/-- Code that runs commands in a session. -/
abbrev PsCode (α : Type) := Code Exc psSig α

/-- `session.run_ps`. -/
def sessionRunPs (command : Command) : PsCode PsResult :=
  ExceptT.mk (Prog.op (S := psSig) command)

/-- `[s[i : i + size] for i in range(0, len(s), size)]`. -/
def chunksOf (size : Nat) (s : Str) : List Str :=
  (List.range ((s.length + size - 1) / size)).map fun i => (s.drop (i * size)).take size

/-- The chunks of the staged script. -/
def payloadChunks (script : Str) : List Str :=
  let chunks := chunksOf b64ChunkSize (Base64.encode (Utf8.encode script))
  if chunks = [] then [[]] else chunks

/-- The loop over the chunks after the first, and the runner. -/
def runAppends (token : Str) : List Str → PsCode PsResult
  | [] => sessionRunPs (.runner token)
  | chunk :: rest => do
      let staged ← sessionRunPs (.addContent token chunk)
      if staged.statusCode ≠ 0 then return staged
      runAppends token rest

/-- The script is short enough for an encoded command. -/
def GoesDirectly (script : Str) : Prop := (encodedCommand script).length ≤ encodedSoftLimit

instance (script : Str) : Decidable (GoesDirectly script) :=
  inferInstanceAs (Decidable (_ ≤ _))

/-- `_run_ps_payload`, with the token it draws. -/
def runPsPayload (token : Uuid) (script : Str) : PsCode PsResult :=
  if GoesDirectly script then sessionRunPs (.direct script)
  else do
    let chunks := payloadChunks script
    let staged ← sessionRunPs (.setContent token.hex (chunks.headD []))
    if staged.statusCode ≠ 0 then return staged
    runAppends token.hex chunks.tail

/-! ## what the server does -/

/-- `[Convert]::FromBase64String`, which ignores white space. -/
def fromBase64String (text : Str) : Option (List UInt8) :=
  Base64.b64decode true (text.filter fun c => !([' ', '\t', '\r', '\n'].contains c))

/-- The text Windows PowerShell 5.1 reads from a script file. -/
def scriptText : List UInt8 → Str
  | 0xEF :: 0xBB :: 0xBF :: rest => Utf8.decode rest
  | bytes => Cp1252.decode bytes

/-- The text that is executed of a script: an encoded command as it is, a longer script
as PowerShell reads it from its file. -/
def executed (script : Str) : Str :=
  if GoesDirectly script then script else scriptText (Utf8.encode script)

/-- A line of a file written with `-Encoding Ascii`. -/
def asciiLine (value : Str) : Str :=
  (value.map fun c => if isAscii c then c else '?') ++ ['\r', '\n']

/-- The staging files on the server, by their tokens, and the scripts it has
executed. -/
structure Target where
  files : Str → Option Str
  executed : List Str

/-- The script a runner finds in the staging file; it goes through a file of
its own, which `WriteAllText` writes as UTF-8. -/
def Target.stagedScript (t : Target) (token : Str) : Option Str := do
  let content ← t.files token
  let bytes ← fromBase64String content
  return scriptText (Utf8.encode (Utf8.decode bytes))

/-- A command that succeeds. -/
def Target.after (t : Target) : Command → Target
  | .direct script =>
      { t with executed := t.executed ++ (decodedCommand (encodedCommand script)).toList }
  | .setContent token chunk =>
      { t with files := Function.update t.files token (some (asciiLine chunk)) }
  | .addContent token chunk =>
      { t with
        files := Function.update t.files token
          (some ((t.files token).getD [] ++ asciiLine chunk)) }
  | .runner token =>
      { files := Function.update t.files token none
        executed := t.executed ++ (t.stagedScript token).toList }

/-- The commands succeed one after the other. -/
def Target.afterAll (t : Target) (commands : List Command) : Target :=
  commands.foldl Target.after t

/-! ## a run -/

/-- A reply with which the payload goes on. -/
def succeeded : Except Exc PsResult → Bool
  | .ok result => result.statusCode = 0
  | .error _ => false

/-- The commands that write the staging file. -/
def staging (token : Uuid) (script : Str) : List Command :=
  .setContent token.hex ((payloadChunks script).headD []) ::
    (payloadChunks script).tail.map (.addContent token.hex)

/-- All commands of a payload. -/
def commands (token : Uuid) (script : Str) : List Command :=
  if GoesDirectly script then [.direct script]
  else staging token script ++ [.runner token.hex]

section Run

variable {σ : Type} (session : Handler psSig σ)

/-- The session runs the command of a call without a failure. -/
def Succeeds (call : Command × σ) : Prop := succeeded (session call.1 call.2).1 = true

/-- Commands in order up to one that fails, each with the state it is run in. -/
def untilFailure : List Command → σ → List (Command × σ)
  | [], _ => []
  | command :: rest, s =>
      (command, s) ::
        if succeeded (session command s).1 then untilFailure rest (session command s).2 else []

/-- The commands a run of the payload sends. -/
def sent (token : Uuid) (script : Str) (s : σ) : List (Command × σ) :=
  (runPsPayload token script).calls session s

/-- A run of the payload stays within the limit, runs the staged script after
all of it is staged, and makes the server execute the script. -/
structure SameScript (token : Uuid) (script : Str) (s : σ) : Prop where
  short : ∀ call ∈ sent session token script s,
    (encodedCommand call.1.text).length ≤ encodedSoftLimit
  staged : ∀ before call after, sent session token script s = before ++ call :: after →
    call.1 = .runner token.hex →
      before.map Prod.fst = staging token script ∧ ∀ c ∈ before, Succeeds session c
  same : (∀ call ∈ sent session token script s, Succeeds session call) →
    ∀ t : Target, (t.afterAll ((sent session token script s).map Prod.fst)).executed =
      t.executed ++ [script]

variable {session}

variable (session) in
/-- The commands up to a failure come first. -/
theorem map_untilFailure_isPrefix (commands : List Command) (s : σ) :
    (untilFailure session commands s).map Prod.fst <+: commands := by
  induction commands generalizing s with
  | nil => exact List.nil_prefix
  | cons command rest ih =>
      rw [untilFailure, List.map_cons]
      split
      · exact List.prefix_cons_inj _ |>.mpr (ih _)
      · exact List.prefix_cons_inj _ |>.mpr List.nil_prefix

/-- Without a failure all commands are run. -/
theorem untilFailure_of_all {commands : List Command} {s : σ}
    (h : ∀ call ∈ untilFailure session commands s, Succeeds session call) :
    (untilFailure session commands s).map Prod.fst = commands := by
  induction commands generalizing s with
  | nil => rfl
  | cons command rest ih =>
      have hfirst : succeeded (session command s).1 = true := h (command, s) (by simp [untilFailure])
      rw [untilFailure, if_pos hfirst] at h ⊢
      rw [List.map_cons, ih fun call hcall => h call (by simp [hcall])]

/-- What was sent before a command has succeeded. -/
theorem succeeds_of_before {commands : List Command} {s : σ} {before after : List (Command × σ)}
    {call : Command × σ} (h : untilFailure session commands s = before ++ call :: after) :
    ∀ c ∈ before, Succeeds session c := by
  induction commands generalizing s before with
  | nil => simp [untilFailure] at h
  | cons command rest ih =>
      cases before with
      | nil => simp
      | cons c before =>
          rw [untilFailure, List.cons_append, List.cons.injEq] at h
          obtain ⟨rfl, h⟩ := h
          have hfirst : succeeded (session command s).1 = true := by
            by_contra hnot
            rw [if_neg hnot] at h
            simp at h
          rw [if_pos hfirst] at h
          simp only [List.forall_mem_cons]
          exact ⟨hfirst, ih h⟩

/-- One command is one call. -/
@[simp] theorem calls_sessionRunPs (command : Command) (s : σ) :
    (sessionRunPs command).calls session s = [(command, s)] := rfl

/-- One command is answered by the session. -/
@[simp] theorem run_sessionRunPs (command : Command) (s : σ) :
    (sessionRunPs command).run session s = session command s := rfl

/-- A command, and more code that only a success leads to. -/
theorem calls_staged {command : Command} {s : σ} {next : PsCode PsResult} :
    ((do
      let staged ← sessionRunPs command
      if staged.statusCode ≠ 0 then return staged
      next) : PsCode PsResult).calls session s =
      (command, s) ::
        if succeeded (session command s).1 then next.calls session (session command s).2 else [] := by
  rw [Code.calls_bind, calls_sessionRunPs, run_sessionRunPs]
  obtain ⟨reply, s'⟩ := session command s
  cases reply with
  | error exc => simp [succeeded]
  | ok result => by_cases hcode : result.statusCode = 0 <;> simp [succeeded, hcode]

/-- The appends stop at a failure. -/
theorem calls_runAppends (token : Str) (chunks : List Str) (s : σ) :
    (runAppends token chunks).calls session s =
      untilFailure session (chunks.map (.addContent token) ++ [.runner token]) s := by
  induction chunks generalizing s with
  | nil => simp [runAppends, untilFailure]
  | cons chunk rest ih =>
      rw [runAppends, calls_staged, ih]
      rfl

/-- The commands of a payload are sent in order up to one that fails. -/
theorem calls_runPsPayload (token : Uuid) (script : Str) (s : σ) :
    sent session token script s = untilFailure session (commands token script) s := by
  rw [sent, runPsPayload, commands]
  split
  · simp [untilFailure]
  · rw [calls_staged, calls_runAppends]
    rfl

/-- What is sent is a command of the payload. -/
theorem mem_commands_of_sent {token : Uuid} {script : Str} {s : σ} {call : Command × σ}
    (h : call ∈ sent session token script s) : call.1 ∈ commands token script := by
  rw [calls_runPsPayload] at h
  exact (map_untilFailure_isPrefix session _ s).subset (List.mem_map_of_mem h)

/-- The runner comes after all of the staging. -/
theorem staged_before_runner {token : Uuid} {script : Str} {s : σ}
    {before after : List (Command × σ)} {call : Command × σ}
    (h : sent session token script s = before ++ call :: after)
    (hrunner : call.1 = .runner token.hex) :
    before.map Prod.fst = staging token script ∧ ∀ c ∈ before, Succeeds session c := by
  rw [calls_runPsPayload] at h
  refine ⟨?_, succeeds_of_before h⟩
  have hprefix := map_untilFailure_isPrefix session (commands token script) s
  rw [h, List.map_append, List.map_cons, hrunner] at hprefix
  obtain ⟨rest, hrest⟩ := hprefix
  rw [List.append_assoc, List.cons_append, commands] at hrest
  split at hrest
  · cases hbefore : before.map Prod.fst <;> simp [hbefore] at hrest
  · have hnot : Command.runner token.hex ∉ staging token script := by
      simp only [staging, List.mem_cons, List.mem_map, reduceCtorEq, and_false, exists_false,
        or_self, not_false_iff]
    have hsplit := (List.append_cons_inj_of_notMem hnot List.not_mem_nil).mp hrest.symm
    exact hsplit.1.symm

end Run

/-! ## no command is too long -/

/-- A padded number has its width. -/
theorem length_hexPad {w n : Nat} (hw : 0 < w) (h : n < 16 ^ w) : (Ucd.hexPad w n).length = w := by
  have hdigits : (hexStr n).length ≤ w := (Nat.length_toDigits_le_iff (by decide) hw).mpr h
  simp only [Ucd.hexPad, List.length_append, List.length_replicate]
  omega

/-- A token has 32 characters. -/
theorem length_hex (token : Uuid) : token.hex.length = 32 :=
  length_hexPad (by decide) token.isLt

/-- A token is ASCII. -/
theorem isAscii_of_mem_hex {token : Uuid} : ∀ c ∈ token.hex, isAscii c = true := by
  intro c hc
  rw [Uuid.hex, Ucd.hexPad, List.mem_append] at hc
  cases hc with
  | inl hc =>
      rw [List.eq_of_mem_replicate hc]
      decide
  | inr hc =>
      obtain ⟨d, hd, rfl⟩ := mem_hexStr hc
      have hall : ∀ d : Fin 16, isAscii d.val.digitChar = true := by decide
      exact hall ⟨d, hd⟩

/-- ASCII text of 2250 characters is short enough. -/
theorem length_encodedCommand_of_isAscii {s : Str} (hascii : ∀ c ∈ s, isAscii c = true)
    (hlen : s.length ≤ 2250) : (encodedCommand s).length ≤ encodedSoftLimit := by
  rw [encodedCommand, Base64.length_encode, Utf16.length_encode hascii, encodedSoftLimit]
  omega

/-! ## the chunks -/

/-- The slices make the beginning of the text. -/
theorem flatten_slices (size : Nat) (s : Str) (n : Nat) :
    ((List.range n).map fun i => (s.drop (i * size)).take size).flatten = s.take (n * size) := by
  induction n with
  | zero => simp
  | succ n ih =>
      rw [List.range_succ, List.map_append, List.flatten_append, ih, Nat.succ_mul]
      simp [List.take_add]

/-- The chunks are the text. -/
theorem flatten_chunksOf {size : Nat} (h : 0 < size) (s : Str) : (chunksOf size s).flatten = s := by
  rw [chunksOf, flatten_slices]
  apply List.take_of_length_le
  have hdiv := Nat.div_add_mod (s.length + size - 1) size
  have hmod := Nat.mod_lt (s.length + size - 1) h
  rw [Nat.mul_comm] at hdiv
  omega

/-- A chunk has at most its size. -/
theorem length_of_mem_chunksOf {size : Nat} {s chunk : Str} (h : chunk ∈ chunksOf size s) :
    chunk.length ≤ size := by
  obtain ⟨i, -, rfl⟩ := List.mem_map.mp h
  exact List.length_take_le ..

/-- A chunk has characters of the text. -/
theorem mem_of_mem_chunksOf {size : Nat} {s chunk : Str} {c : Char} (h : chunk ∈ chunksOf size s)
    (hc : c ∈ chunk) : c ∈ s := by
  obtain ⟨i, -, rfl⟩ := List.mem_map.mp h
  exact List.mem_of_mem_drop (List.mem_of_mem_take hc)

/-- The chunks make the encoded script. -/
theorem flatten_payloadChunks (script : Str) :
    (payloadChunks script).flatten = Base64.encode (Utf8.encode script) := by
  have hsize : 0 < b64ChunkSize := by decide
  have hflat := flatten_chunksOf hsize (Base64.encode (Utf8.encode script))
  simp only [payloadChunks]
  split
  · next hnil =>
      rw [hnil] at hflat
      simp [← hflat]
  · exact hflat

/-- There is a chunk. -/
theorem payloadChunks_ne_nil (script : Str) : payloadChunks script ≠ [] := by
  simp only [payloadChunks]
  split <;> simp [*]

/-- The first chunk and the others. -/
theorem payloadChunks_eq (script : Str) :
    payloadChunks script = (payloadChunks script).headD [] :: (payloadChunks script).tail := by
  cases hchunks : payloadChunks script with
  | nil => exact absurd hchunks (payloadChunks_ne_nil script)
  | cons chunk rest => rfl

/-- A chunk is a short piece of base64. -/
theorem chunk_shape {script chunk : Str} (h : chunk ∈ payloadChunks script) :
    chunk.length ≤ 1800 ∧ ∀ c ∈ chunk, c ∈ Base64.encode (Utf8.encode script) := by
  simp only [payloadChunks] at h
  split at h
  · rw [List.mem_singleton.mp h]
    simp
  · exact ⟨length_of_mem_chunksOf h, fun c hc => mem_of_mem_chunksOf h hc⟩

/-- The chunks are ASCII. -/
theorem isAscii_of_mem_chunk {script chunk : Str} (h : chunk ∈ payloadChunks script) :
    ∀ c ∈ chunk, isAscii c = true :=
  fun c hc => Base64.isAscii_of_mem_encode c ((chunk_shape h).2 c hc)

/-- A staging command is ASCII. -/
theorem isAscii_stagingText {cmdlet : String} {token chunk : Str}
    (hcmdlet : ∀ c ∈ lit cmdlet, isAscii c = true) (htoken : ∀ c ∈ token, isAscii c = true)
    (hchunk : ∀ c ∈ chunk, isAscii c = true) :
    ∀ c ∈ stagingText cmdlet token chunk, isAscii c = true := by
  simp only [stagingText, List.forall_mem_append]
  refine ⟨⟨?_, ⟨?_, htoken⟩, ?_⟩, ⟨⟨hcmdlet, ?_⟩, hchunk⟩, ?_⟩
  all_goals decide

/-- The length of a staging command. -/
theorem length_stagingText (cmdlet : String) (token chunk : Str) :
    (stagingText cmdlet token chunk).length =
      (lit cmdlet).length + token.length + chunk.length + 108 := by
  simp only [stagingText, List.length_append]
  have h₁ : (lit "$ErrorActionPreference='Stop'; ").length = 31 := by decide
  have h₂ : (lit "$p=Join-Path $env:TEMP 'atd-").length = 28 := by decide
  have h₃ : (lit ".b64'; ").length = 7 := by decide
  have h₄ : (lit " -LiteralPath $p -Value '").length = 25 := by decide
  have h₅ : (lit "' -Encoding Ascii").length = 17 := by decide
  omega

/-- Joined parts are no longer than the parts with their separators. -/
theorem length_join_le (sep : Str) (parts : List Str) :
    (join sep parts).length ≤ (parts.map fun p => p.length + sep.length).sum := by
  induction parts with
  | nil => simp [join]
  | cons p rest ih =>
      cases rest with
      | nil => simp [join]
      | cons q rest =>
          rw [join, List.intercalate_cons_cons, ← join, List.map_cons, List.sum_cons]
          simp only [List.length_append]
          omega

set_option maxRecDepth 2000 in
/-- The runner is ASCII. -/
theorem isAscii_runnerText {token : Str} (h : ∀ c ∈ token, isAscii c = true) :
    ∀ c ∈ join ['\n'] (runnerLines token), isAscii c = true := by
  have hlines : ∀ line ∈ runnerLines token, ∀ c ∈ line, isAscii c = true := by
    simp only [runnerLines, List.forall_mem_cons, List.forall_mem_append]
    refine ⟨?_, ⟨⟨?_, h⟩, ?_⟩, ⟨⟨?_, h⟩, ?_⟩, ?_, ⟨?_, ?_⟩, ?_, ?_, ?_, ?_, ?_, by simp⟩
    all_goals decide
  intro c hc
  cases mem_join hc with
  | inl hsep =>
      rw [List.mem_singleton.mp hsep]
      decide
  | inr hline =>
      obtain ⟨line, hmem, hc⟩ := hline
      exact hlines line hmem c hc

set_option maxRecDepth 2000 in
/-- The runner is short. -/
theorem length_runnerText (token : Str) :
    (join ['\n'] (runnerLines token)).length ≤ 2 * token.length + 400 := by
  have hsum : ((runnerLines token).map fun line => line.length + ['\n'].length).sum =
      2 * token.length + ((runnerLines []).map fun line => line.length + ['\n'].length).sum := by
    simp only [runnerLines, List.map_cons, List.map_nil, List.sum_cons, List.sum_nil,
      List.length_append, List.length_nil]
    omega
  have hblank : ((runnerLines []).map fun line => line.length + ['\n'].length).sum ≤ 400 := by
    decide
  have hle := length_join_le ['\n'] (runnerLines token)
  omega

/-- An encoded staging command fits a command line. -/
theorem length_encodedStaging_le {cmdlet : String} {token : Uuid} {script chunk : Str}
    (hlen : (lit cmdlet).length = 11) (hascii : ∀ c ∈ lit cmdlet, isAscii c = true)
    (h : chunk ∈ payloadChunks script) :
    (encodedCommand (stagingText cmdlet token.hex chunk)).length ≤ encodedSoftLimit := by
  have hhex := length_hex token
  have hchunk := (chunk_shape h).1
  refine length_encodedCommand_of_isAscii
    (isAscii_stagingText hascii isAscii_of_mem_hex (isAscii_of_mem_chunk h)) ?_
  rw [length_stagingText]
  omega

/-- No command is too long. -/
theorem length_encodedCommand_le {token : Uuid} {script : Str} {command : Command}
    (h : command ∈ commands token script) :
    (encodedCommand command.text).length ≤ encodedSoftLimit := by
  rw [commands] at h
  split at h
  · next hdirect =>
      rw [List.mem_singleton.mp h]
      exact hdirect
  · simp only [staging, List.mem_append, List.mem_cons, List.mem_map, List.not_mem_nil,
      or_false] at h
    rcases h with (rfl | ⟨chunk, hmem, rfl⟩) | rfl
    · have hmem : (payloadChunks script).headD [] ∈ payloadChunks script := by
        rw [payloadChunks_eq script]
        simp
      exact length_encodedStaging_le (by decide) (by decide) hmem
    · exact length_encodedStaging_le (by decide) (by decide) (List.mem_of_mem_tail hmem)
    · refine length_encodedCommand_of_isAscii (isAscii_runnerText isAscii_of_mem_hex) ?_
      have hhex := length_hex token
      have hlen := length_runnerText token.hex
      rw [Command.text]
      omega

/-! ## what the server executes -/

/-- An encoded command arrives as it is. -/
theorem decodedCommand_encodedCommand (script : Str) :
    decodedCommand (encodedCommand script) = some script := by
  rw [decodedCommand, encodedCommand, Base64.decode_encode, Option.map_some, Utf16.decode_encode]

/-- Commands are run one part after the other. -/
theorem afterAll_append (t : Target) (before after : List Command) :
    t.afterAll (before ++ after) = (t.afterAll before).afterAll after :=
  List.foldl_append

/-- The appended chunks are in the file. -/
theorem afterAll_appends {t : Target} {token content : Str} (chunks : List Str)
    (h : t.files token = some content) :
    (t.afterAll (chunks.map (.addContent token))).files token =
        some (content ++ chunks.flatMap asciiLine) ∧
      (t.afterAll (chunks.map (.addContent token))).executed = t.executed := by
  induction chunks generalizing t content with
  | nil => simpa [Target.afterAll] using h
  | cons chunk rest ih =>
      have hnext : (t.after (.addContent token chunk)).files token =
          some (content ++ asciiLine chunk) := by
        simp [Target.after, h]
      have hrest := ih hnext
      rw [List.append_assoc] at hrest
      exact hrest

/-- The chunks stand in the staging file. -/
theorem afterAll_staging (t : Target) (token : Uuid) (script : Str) :
    (t.afterAll (staging token script)).files token.hex =
        some ((payloadChunks script).flatMap asciiLine) ∧
      (t.afterAll (staging token script)).executed = t.executed := by
  have hfirst : (t.after (.setContent token.hex ((payloadChunks script).headD []))).files token.hex =
      some (asciiLine ((payloadChunks script).headD [])) := by
    simp [Target.after]
  have hrest := afterAll_appends (payloadChunks script).tail hfirst
  rw [← List.flatMap_cons, ← payloadChunks_eq] at hrest
  exact hrest

set_option maxRecDepth 2000 in
/-- Base64 has no blanks. -/
theorem not_blank_of_mem_encode {bs : List UInt8} :
    ∀ c ∈ Base64.encode bs, [' ', '\t', '\r', '\n'].contains c = false := by
  have hall : ∀ i : Fin 64, [' ', '\t', '\r', '\n'].contains (Base64.digit i) = false := by decide
  exact Base64.forall_mem_encode (fun n hn => hall ⟨n, hn⟩) (by decide) bs

/-- White space apart, a line of the file is its chunk. -/
theorem filter_asciiLine {script chunk : Str} (h : chunk ∈ payloadChunks script) :
    (asciiLine chunk).filter (fun c => !([' ', '\t', '\r', '\n'].contains c)) = chunk := by
  have hascii : (chunk.map fun c => if isAscii c then c else '?') = chunk.map id :=
    List.map_congr_left fun c hc => if_pos (isAscii_of_mem_chunk h c hc)
  have hkept : chunk.filter (fun c => !([' ', '\t', '\r', '\n'].contains c)) = chunk := by
    rw [List.filter_eq_self]
    intro c hc
    rw [not_blank_of_mem_encode c ((chunk_shape h).2 c hc), Bool.not_false]
  rw [asciiLine, hascii, List.map_id, List.filter_append, hkept]
  exact List.append_nil chunk

/-- The staged bytes are those of the script. -/
theorem fromBase64String_staged (script : Str) :
    fromBase64String ((payloadChunks script).flatMap asciiLine) = some (Utf8.encode script) := by
  have hlines : ∀ chunks : List Str, (∀ chunk ∈ chunks, chunk ∈ payloadChunks script) →
      (chunks.flatMap asciiLine).filter (fun c => !([' ', '\t', '\r', '\n'].contains c)) =
        chunks.flatten := by
    intro chunks h
    induction chunks with
    | nil => rfl
    | cons chunk rest ih =>
        rw [List.flatMap_cons, List.filter_append, filter_asciiLine (h chunk (by simp)),
          ih fun c hc => h c (by simp [hc]), List.flatten_cons]
  rw [fromBase64String, hlines _ fun _ h => h, flatten_payloadChunks, Base64.decode_encode]

/-- What is read from the file of a script: the text behind a byte order mark, or the
bytes in the code page. -/
theorem scriptText_encode (script : Str) :
    script = '\uFEFF' :: scriptText (Utf8.encode script) ∨
      scriptText (Utf8.encode script) = Cp1252.decode (Utf8.encode script) := by
  unfold scriptText
  split
  · next rest hmark =>
      have hbom : String.utf8EncodeChar '\uFEFF' = [0xEF, 0xBB, 0xBF] := by decide
      have hdecoded := Utf8.decode_utf8EncodeChar_append '\uFEFF' rest
      rw [hbom, List.cons_append, List.cons_append, List.cons_append, List.nil_append, ← hmark,
        Utf8.decode_encode] at hdecoded
      exact .inl hdecoded
  · exact .inr rfl

/-- PowerShell reads a script back from its file exactly if it is ASCII. -/
theorem scriptText_encode_eq_iff {script : Str} :
    scriptText (Utf8.encode script) = script ↔ ∀ c ∈ script, isAscii c = true := by
  cases scriptText_encode script with
  | inl hmark =>
      refine iff_of_false (fun heq => ?_) fun hascii => ?_
      · have hlen := congrArg List.length hmark
        rw [heq, List.length_cons] at hlen
        omega
      · have hfirst := hascii '\uFEFF' (by rw [hmark]; exact List.mem_cons_self)
        exact absurd hfirst (by decide)
  | inr hbytes =>
      rw [hbytes]
      exact Cp1252.decode_utf8_eq_iff

/-- After all of its commands the server has executed the script, or what it
reads back from the file. -/
theorem executed_commands (t : Target) (token : Uuid) (script : Str) :
    (t.afterAll (commands token script)).executed = t.executed ++ [executed script] := by
  rw [commands, executed]
  split
  · simp [Target.afterAll, Target.after, decodedCommand_encodedCommand]
  · obtain ⟨hfile, hexecuted⟩ := afterAll_staging t token script
    have hscript : (t.afterAll (staging token script)).stagedScript token.hex =
        some (scriptText (Utf8.encode script)) := by
      simp [Target.stagedScript, hfile, fromBase64String_staged, Utf8.decode_encode]
    rw [afterAll_append]
    calc (t.afterAll (staging token script)).executed ++
          ((t.afterAll (staging token script)).stagedScript token.hex).toList
        = t.executed ++ [scriptText (Utf8.encode script)] := by
          rw [hexecuted, hscript, Option.toList_some]

/-! ## the client over a server -/

/-- A session with a server on which every command succeeds. -/
def onServer : Handler psSig Target := fun command t => (.ok ⟨0, [], []⟩, t.after command)

/-- The sessions under `_run_ps_with_retry` run scripts as payloads. -/
def payloadSession {σ : Type} (token : σ → Uuid) (session : Handler psSig σ) :
    Handler sessionSig σ :=
  fun o s => (runPsPayload (token s) (source o.script)).run session s

/-- A command that succeeds is followed by the next. -/
theorem run_staged (command : Command) (t : Target) (next : PsCode PsResult) :
    ((do
      let staged ← sessionRunPs command
      if staged.statusCode ≠ 0 then return staged
      next) : PsCode PsResult).run onServer t = next.run onServer (t.after command) := by
  rw [Code.run_bind, run_sessionRunPs]
  simp [onServer]

/-- The server runs the appends, then the runner. -/
theorem run_runAppends (token : Str) (chunks : List Str) (t : Target) :
    (runAppends token chunks).run onServer t = (.ok ⟨0, [], []⟩,
      t.afterAll (chunks.map (.addContent token) ++ [.runner token])) := by
  induction chunks generalizing t with
  | nil => rfl
  | cons chunk rest ih =>
      rw [runAppends, run_staged, ih]
      rfl

/-- The server runs the commands of a script. -/
theorem run_runPsPayload (token : Uuid) (script : Str) (t : Target) :
    (runPsPayload token script).run onServer t =
      (.ok ⟨0, [], []⟩, t.afterAll (commands token script)) := by
  rw [runPsPayload, commands]
  split
  · rfl
  · rw [run_staged, run_runAppends]
    rfl

/-- A call of the client makes the server execute one script. -/
theorem executed_retried (U : Ucd) (token : Target → Uuid) (o : WinRmOp) (t : Target) :
    (retried U (payloadSession token onServer) o t).2.executed =
      t.executed ++ [executed (source o.script)] := by
  have hpayload : payloadSession token onServer o t =
      (.ok ⟨0, [], []⟩, t.afterAll (commands (token t) (source o.script))) :=
    run_runPsPayload (token t) (source o.script) t
  have hrun : (runPsWithRetry U o).run (payloadSession token onServer) t =
      (.ok ⟨0, [], []⟩, t.afterAll (commands (token t) (source o.script))) := by
    rw [runPsWithRetry, maxAttempts, attemptPs, Prog.run_call, hpayload]
    rfl
  rw [retried, hrun]
  exact executed_commands t (token t) (source o.script)

/-! ## the same script -/

/-- The replies of a session in which every command succeeds. -/
def alwaysOk : Handler psSig Unit := fun _ s => (.ok ⟨0, [], []⟩, s)

/-- If every command succeeds all are run. -/
theorem untilFailure_alwaysOk (commands : List Command) :
    (untilFailure alwaysOk commands ()).map Prod.fst = commands :=
  untilFailure_of_all fun _ _ => rfl

/-- A script that stays the same goes directly or is ASCII. -/
theorem goesDirectly_or_isAscii {token : Uuid} {script : Str}
    (h : SameScript alwaysOk token script ()) :
    GoesDirectly script ∨ ∀ c ∈ script, isAscii c = true := by
  have hrun := h.same (fun _ _ => rfl) ⟨fun _ => none, []⟩
  rw [calls_runPsPayload, untilFailure_alwaysOk, executed_commands, executed] at hrun
  by_cases hdirect : GoesDirectly script
  · exact .inl hdirect
  · simp only [if_neg hdirect, List.nil_append, List.cons.injEq, and_true] at hrun
    exact .inr (scriptText_encode_eq_iff.mp hrun)

/-- Every run of the payload makes the server execute the script exactly if the
script goes directly or is plain ASCII. -/
theorem sameScript_iff (token : Uuid) (script : Str) :
    (∀ {σ : Type} (session : Handler psSig σ) (s : σ), SameScript session token script s) ↔
      GoesDirectly script ∨ ∀ c ∈ script, isAscii c = true := by
  constructor
  · intro h
    exact goesDirectly_or_isAscii (h alwaysOk ())
  · intro h σ session s
    refine ⟨fun call hcall => length_encodedCommand_le (mem_commands_of_sent hcall),
      fun before call after hsent hrunner => staged_before_runner hsent hrunner,
      fun hall t => ?_⟩
    rw [calls_runPsPayload] at hall ⊢
    rw [untilFailure_of_all hall, executed_commands, executed]
    split
    · rfl
    · next hdirect => rw [scriptText_encode_eq_iff.mpr (h.resolve_left hdirect)]

/-- A script with a long text, one letter of which is not ASCII. -/
def longScript : Str := lit "'Caf\u00E9" ++ List.replicate 2300 'a' ++ lit "'"

/-- The long script is staged. -/
theorem not_goesDirectly_longScript : ¬GoesDirectly longScript := by
  have hlen : longScript.length = 2306 := by
    simp only [longScript, List.length_append, List.length_replicate]
    decide
  have hbytes := Utf16.two_mul_length_le longScript
  rw [GoesDirectly, encodedCommand, Base64.length_encode, encodedSoftLimit]
  omega

/-- The long script is executed with other letters in it. -/
theorem not_sameScript_longScript :
    ¬∀ {σ : Type} (session : Handler psSig σ) (s : σ), SameScript session 0 longScript s := by
  intro h
  have hascii := (goesDirectly_or_isAscii (h alwaysOk ())).resolve_left not_goesDirectly_longScript
  have hletter : '\u00E9' ∈ longScript := by
    simp only [longScript, List.mem_append]
    exact .inl (.inl (by decide))
  exact absurd (hascii '\u00E9' hletter) (by decide)

end ApiToDns.Microsoft
