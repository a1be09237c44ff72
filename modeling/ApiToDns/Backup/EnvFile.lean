import ApiToDns.Backup.Boot
import ApiToDns.Py.CodePoints
import ApiToDns.Py.Lines
import ApiToDns.Lib.Shell

/-!
# Backup.EnvFile

The text of `app_secrets.env` (`env_bootstrap.py`): how it is written, parsed,
applied to the environment and exported to a shell.

The writer does not quote; the parser splits the text at every Unicode line
break and strips quotes from both ends of a value (`persistedSecrets_roundTrip_iff`).
-/

namespace ApiToDns.EnvBootstrap

open Py Backup

/-! ## reading lines -/

/-- `s.strip(c)` of one character. -/
def stripChar (c : Char) (s : Str) : Str := (s.dropWhile (· == c)).rdropWhile (· == c)

/-- `_SECRET_KEYS`. -/
def secretKeys : List Str := [lit "SECRET_KEY", lit "ENCRYPTION_KEY"]

/-- Variables and their values, in the order of their first assignment. -/
abbrev Values := List (Str × Str)

/-- `values[key] = value`. -/
def Values.set (values : Values) (key value : Str) : Values :=
  if values.any (fun v => v.1 = key) then
    values.map fun v => if v.1 = key then (key, value) else v
  else values ++ [(key, value)]

/-- The value of a line of the file. -/
def unquoted (value : Str) : Str := stripChar '\'' (stripChar '"' (strip value))

/-- One line of the file. -/
def parseLine (values : Values) (line : Str) : Values :=
  let stripped := strip line
  if stripped = [] ∨ startsWith stripped ['#'] ∨ '=' ∉ stripped then values
  else
    let key := strip (stripped.takeWhile (· ≠ '='))
    let value := (stripped.dropWhile (· ≠ '=')).drop 1
    if key ∈ secretKeys then values.set key (unquoted value) else values

/-- `parse_env_file`; there may be no file. -/
def parseEnvFile (file : Option Str) : Values :=
  match file with
  | none => []
  | some content => (splitLines (universalNewlines content)).foldl parseLine []

/-! ## the variables -/

/-- The environment of a process. -/
abbrev Environ := Str → Option Str

variable (P : Platform)

/-- `apply_persisted_secrets`. -/
def applyPersistedSecrets (file : Option Str) (env : Environ) : Environ :=
  (parseEnvFile file).foldl
    (fun env (key, value) =>
      if value = [] then env
      else
        match validatePersistedSecret P key value with
        | .ok cleaned => Function.update env key (some cleaned)
        | .error _ => env)
    env

/-- `shell_export_persisted_secrets`. -/
def shellExportPersistedSecrets (file : Option Str) : Str :=
  join ['\n'] ((parseEnvFile file).filterMap fun (key, value) =>
    if value = [] then none
    else
      match validatePersistedSecret P key value with
      | .ok cleaned => some (lit "export " ++ key ++ ['='] ++ Shell.quote cleaned)
      | .error _ => none)

/-- The text of the durable file. -/
def secretsText (secretKey encryptionKey : Str) : Str :=
  lit "SECRET_KEY=" ++ secretKey ++ lit "\nENCRYPTION_KEY=" ++ encryptionKey ++ ['\n']

/-- The text of the durable file, of any two texts. -/
def secretsBody (secretKey encryptionKey : Text) : Text :=
  .ofStr (lit "SECRET_KEY=") ++ secretKey ++ .ofStr (lit "\nENCRYPTION_KEY=") ++ encryptionKey ++
    .ofStr ['\n']

/-- `ord(ch) < 32 or ord(ch) == 127`. -/
def isControl : CodePoint → Bool
  | .char c => c.toNat < 32 || c.toNat = 127
  | .surrogate _ => false

/-- `_validate_persisted_secret`, of any text. -/
def validatePersistedText (name : Str) (value : Text) : Except Exc Text :=
  let cleaned := value.strip
  if cleaned = [] then .error (.valueError (name ++ lit " is empty."))
  else if cleaned.any isControl then
    .error (.valueError (name ++ lit " contains control characters."))
  else if name = lit "ENCRYPTION_KEY" ∧ cleaned.toStr?.any P.fernet.valid = false then
    .error (.valueError (lit "ENCRYPTION_KEY is not a valid Fernet key."))
  else .ok cleaned

/-- What a text with a lone surrogate raises when it is encoded. -/
def unicodeEncodeError : Exc := .valueError (lit "UnicodeEncodeError")

/-- `write_application_secrets`, as far as it writes the durable file.  The file is
emptied before the text is encoded. -/
def writeApplicationSecrets (secretKey encryptionKey : Text) (file : Option Str) :
    Except Exc Unit × Option Str :=
  match validatePersistedText P (lit "SECRET_KEY") secretKey,
    validatePersistedText P (lit "ENCRYPTION_KEY") encryptionKey with
  | .error exc, _ => (.error exc, file)
  | .ok _, .error exc => (.error exc, file)
  | .ok s, .ok e =>
      match (secretsBody s e).toStr? with
      | none => (.error unicodeEncodeError, some [])
      | some text => (.ok (), some text)

/-- The two variables. -/
def secretValues (secretKey encryptionKey : Str) : Values :=
  [(lit "SECRET_KEY", secretKey), (lit "ENCRYPTION_KEY", encryptionKey)]

/-- The file gives the two secrets back in every way in which it is read, and
sets nothing else. -/
structure RoundTrips (file secretKey encryptionKey : Str) : Prop where
  parsed : parseEnvFile (some file) = secretValues secretKey encryptionKey
  applied : ∀ env : Environ, applyPersistedSecrets P (some file) env =
    Function.update (Function.update env (lit "SECRET_KEY") (some secretKey))
      (lit "ENCRYPTION_KEY") (some encryptionKey)
  exported : Shell.assignments (shellExportPersistedSecrets P (some file)) =
    some (secretValues secretKey encryptionKey)

/-- Writing the two secrets succeeds, and the file gives them back. -/
def GivesBack (secretKey encryptionKey : Text) (file : Option Str) (s e : Text) : Prop :=
  ∃ text s' e', writeApplicationSecrets P secretKey encryptionKey file = (.ok (), some text) ∧
    s = .ofStr s' ∧ e = .ofStr e' ∧ RoundTrips P text s' e'

/-- A value that is read as it is written: it has no line break, and no quote at
either end. -/
structure Plain (s : Str) : Prop where
  lines : ∀ c ∈ s, isLineBreak c = false
  first : ∀ c ∈ s.head?, c ≠ '"' ∧ c ≠ '\''
  last : ∀ c ∈ s.getLast?, c ≠ '"' ∧ c ≠ '\''

/-- A text that can be encoded and is read as it is written. -/
def PlainText (s : Text) : Prop := ∃ t, s.toStr? = some t ∧ Plain t

variable {P}

/-! ## values without line breaks -/

/-- Stripping adds no character. -/
theorem mem_stripChar {c d : Char} {s : Str} (h : d ∈ stripChar c s) : d ∈ s :=
  (List.dropWhile_suffix _).mem ((List.rdropWhile_prefix _ _).mem h)

/-- Stripping quotes adds no character. -/
theorem mem_strip {c : Char} {s : Str} (h : c ∈ strip s) : c ∈ s :=
  (List.dropWhile_suffix _).mem ((List.rdropWhile_prefix _ _).mem h)

/-- Unquoting adds no character. -/
theorem mem_unquoted {c : Char} {s : Str} (h : c ∈ unquoted s) : c ∈ s :=
  mem_strip (mem_stripChar (mem_stripChar h))

/-- No value has a line break. -/
def Values.OneLine (values : Values) : Prop := ∀ v ∈ values, ∀ c ∈ v.2, isLineBreak c = false

/-- A value of one line keeps the values so. -/
theorem Values.OneLine.set {values : Values} {key value : Str} (h : values.OneLine)
    (hvalue : ∀ c ∈ value, isLineBreak c = false) : (values.set key value).OneLine := by
  unfold Values.set
  intro v hv
  split at hv
  · obtain ⟨w, hw, rfl⟩ := List.mem_map.mp hv
    split
    · exact hvalue
    · exact h w hw
  · cases List.mem_append.mp hv with
    | inl hv => exact h v hv
    | inr hv =>
        rw [List.mem_singleton.mp hv]
        exact hvalue

/-- A line keeps the values on one line each. -/
theorem Values.OneLine.parseLine {values : Values} {line : Str} (h : values.OneLine)
    (hline : ∀ c ∈ line, isLineBreak c = false) : (parseLine values line).OneLine := by
  unfold EnvBootstrap.parseLine
  dsimp only
  split
  · exact h
  · split
    · refine h.set fun c hc => hline c (mem_strip ?_)
      exact (List.dropWhile_suffix _).mem (List.mem_of_mem_drop (mem_unquoted hc))
    · exact h

/-- So do the lines of a file. -/
theorem Values.OneLine.foldl {values : Values} {lines : List Str} (h : values.OneLine)
    (hlines : ∀ line ∈ lines, ∀ c ∈ line, isLineBreak c = false) :
    (lines.foldl EnvBootstrap.parseLine values).OneLine := by
  induction lines generalizing values with
  | nil => exact h
  | cons line lines ih =>
      exact ih (h.parseLine (hlines line (by simp))) fun l hl => hlines l (by simp [hl])

/-- What is parsed has no line break. -/
theorem oneLine_parseEnvFile (file : Option Str) : (parseEnvFile file).OneLine := by
  cases file with
  | none => simp [parseEnvFile, Values.OneLine]
  | some content =>
      have hnil : Values.OneLine [] := by simp [Values.OneLine]
      exact hnil.foldl fun line hline => not_isLineBreak_of_mem_splitLines hline

/-! ## values without quotes -/

/-- Nothing is trimmed if the last character stays. -/
theorem rdropWhile_eq_self_iff {p : Char → Bool} {s : Str} :
    s.rdropWhile p = s ↔ ∀ c ∈ s.getLast?, p c = false := by
  rw [List.rdropWhile_eq_self_iff]
  constructor
  · intro h c hc
    have hne : s ≠ [] := by
      rintro rfl
      simp at hc
    rw [List.getLast?_eq_getLast_of_ne_nil hne, Option.mem_some_iff] at hc
    rw [← hc]
    simpa using h hne
  · intro h hne
    have hlast := h (s.getLast hne) (by rw [List.getLast?_eq_getLast_of_ne_nil hne]; simp)
    simp [hlast]

/-- Stripping leaves a text alone that has nothing to strip at either end. -/
theorem trim_eq_self_iff {p : Char → Bool} {s : Str} :
    (s.dropWhile p).rdropWhile p = s ↔
      (∀ c ∈ s.head?, p c = false) ∧ ∀ c ∈ s.getLast?, p c = false := by
  refine ⟨fun h => ?_, fun h => trim_eq_self h.1 h.2⟩
  cases s with
  | nil => simp
  | cons c rest =>
      cases hc : p c with
      | true =>
          have hlen : (((c :: rest).dropWhile p).rdropWhile p).length ≤ rest.length := by
            rw [List.dropWhile_cons_of_pos hc]
            exact Nat.le_trans (List.rdropWhile_prefix _ _).length_le
              (List.dropWhile_suffix _).length_le
          rw [h, List.length_cons] at hlen
          omega
      | false =>
          rw [List.dropWhile_cons_of_neg (by simp [hc])] at h
          exact ⟨by simp [hc], rdropWhile_eq_self_iff.mp h⟩

/-- Stripping makes no text longer. -/
theorem length_stripChar_le (c : Char) (s : Str) : (stripChar c s).length ≤ s.length :=
  Nat.le_trans (List.rdropWhile_prefix _ _).length_le (List.dropWhile_suffix _).length_le

/-- A value is read as it stands if it has no quote at either end. -/
theorem unquoted_eq_self_iff {s : Str} (hstrip : strip s = s) :
    unquoted s = s ↔
      (∀ c ∈ s.head?, c ≠ '"' ∧ c ≠ '\'') ∧ ∀ c ∈ s.getLast?, c ≠ '"' ∧ c ≠ '\'' := by
  have hone (c : Char) : stripChar c s = s ↔
      (∀ d ∈ s.head?, d ≠ c) ∧ ∀ d ∈ s.getLast?, d ≠ c := by
    rw [stripChar, trim_eq_self_iff]
    simp
  have hboth : unquoted s = s ↔ stripChar '"' s = s ∧ stripChar '\'' s = s := by
    rw [unquoted, hstrip]
    constructor
    · intro h
      have hdouble : stripChar '"' s = s := by
        have hprefix : (stripChar '"' s).length = s.length := by
          have hle := length_stripChar_le '\'' (stripChar '"' s)
          have hle' := length_stripChar_le '"' s
          rw [h] at hle
          omega
        have hsub : List.Sublist (stripChar '"' s) s :=
          (List.rdropWhile_prefix _ _).sublist.trans (List.dropWhile_suffix _).sublist
        exact hsub.eq_of_length hprefix
      rw [hdouble] at h
      exact ⟨hdouble, h⟩
    · rintro ⟨hdouble, hsingle⟩
      rw [hdouble, hsingle]
  rw [hboth, hone, hone]
  grind

/-! ## the file -/

/-- A secret that was validated. -/
structure Accepted (s : Str) : Prop where
  ne_nil : s ≠ []
  strip : strip s = s
  printable : ∀ c ∈ s, 32 ≤ c.toNat

/-- What a persisted secret looks like. -/
theorem accepted_of_validatePersistedSecret {name value s : Str}
    (h : validatePersistedSecret P name value = .ok s) : s = strip value ∧ Accepted s := by
  have hs := validatePersistedSecret_eq_ok h
  refine ⟨hs, ?_⟩
  unfold validatePersistedSecret at h
  dsimp only at h
  split at h
  · contradiction
  · next hne =>
      split at h
      · contradiction
      · next hcontrol =>
          refine ⟨hs ▸ hne, hs ▸ strip_strip value, fun c hc => ?_⟩
          rw [Bool.not_eq_true, List.any_eq_false] at hcontrol
          have hc := hcontrol c (hs ▸ hc)
          simp only [Bool.or_eq_true, decide_eq_true_eq, not_or] at hc
          omega

/-- The file of secrets has no other line ends. -/
theorem universalNewlines_secretsText {s e : Str} (hs : Accepted s) (he : Accepted e) :
    universalNewlines (secretsText s e) = secretsText s e := by
  have hprint {t : Str} (ht : Accepted t) : ∀ c ∈ t, c ≠ '\r' := by
    rintro c hc rfl
    exact absurd (ht.printable _ hc) (by decide)
  refine universalNewlines_eq_self ?_
  simp only [secretsText, List.forall_mem_append]
  exact ⟨⟨⟨⟨by decide, hprint hs⟩, by decide⟩, hprint he⟩, by decide⟩

/-- The file of secrets has two lines. -/
theorem splitLines_secretsText {s e : Str} (hs : ∀ c ∈ s, isLineBreak c = false)
    (he : ∀ c ∈ e, isLineBreak c = false) :
    splitLines (secretsText s e) = [lit "SECRET_KEY=" ++ s, lit "ENCRYPTION_KEY=" ++ e] := by
  have hfirst : ∀ c ∈ lit "SECRET_KEY=" ++ s, isLineBreak c = false := by
    rw [List.forall_mem_append]
    exact ⟨by decide, hs⟩
  have hsecond : ∀ c ∈ lit "ENCRYPTION_KEY=" ++ e, isLineBreak c = false := by
    rw [List.forall_mem_append]
    exact ⟨by decide, he⟩
  have hbreak : isLineBreak '\n' = true := by decide
  have htext : secretsText s e =
      (lit "SECRET_KEY=" ++ s) ++ '\n' :: ((lit "ENCRYPTION_KEY=" ++ e) ++ '\n' :: []) := by
    have hline : lit "\nENCRYPTION_KEY=" = '\n' :: lit "ENCRYPTION_KEY=" := by decide
    simp [secretsText, hline]
  rw [splitLines, htext, List.splitOnP_append_cons_of_forall_mem hfirst _ hbreak,
    List.splitOnP_append_cons_of_forall_mem hsecond _ hbreak, List.splitOnP_nil]
  rfl

/-- The names of the secrets are read as they are. -/
theorem secretKey_shape : ∀ key ∈ secretKeys, strip key = key ∧ (∀ c ∈ key, c ≠ '=') ∧
    key.head? ≠ none ∧ ∀ c ∈ key.head?, isSpace c = false ∧ c ≠ '#' := by
  simp only [secretKeys, List.forall_mem_cons, List.not_mem_nil, false_implies, implies_true,
    and_true]
  exact ⟨by decide, by decide⟩

/-- A line that names one of the two keys. -/
theorem parseLine_key {values : Values} {key s : Str} (hkey : key ∈ secretKeys) (hs : Accepted s) :
    parseLine values (key ++ '=' :: s) = values.set key (unquoted s) := by
  obtain ⟨hstrip, hequals, hne, hhead⟩ := secretKey_shape key hkey
  obtain ⟨c, rest, rfl⟩ : ∃ c rest, key = c :: rest := by
    cases key with
    | nil => simp at hne
    | cons c rest => exact ⟨c, rest, rfl⟩
  have hc := hhead c (by simp)
  have hline : strip (c :: rest ++ '=' :: s) = c :: rest ++ '=' :: s := by
    refine strip_eq_self (by simpa using hc.1) fun d hd => ?_
    have hlast := (trim_eq_self_iff.mp hs.strip).2
    have hcons : ('=' :: s).getLast? = s.getLast? := by
      obtain ⟨d, t, rfl⟩ := List.exists_cons_of_ne_nil hs.ne_nil
      rfl
    rw [List.getLast?_append, hcons] at hd
    obtain ⟨d', hd'⟩ : ∃ d', s.getLast? = some d' :=
      ⟨_, List.getLast?_eq_getLast_of_ne_nil hs.ne_nil⟩
    rw [hd', Option.some_or, Option.mem_some_iff] at hd
    exact hd ▸ hlast d' hd'
  have hguard : ¬(c :: rest ++ '=' :: s = [] ∨ startsWith (c :: rest ++ '=' :: s) ['#'] = true ∨
      '=' ∉ c :: rest ++ '=' :: s) := by
    have hhash : '#' ≠ c := hc.2.symm
    simp [startsWith, hhash]
  have hpos : ∀ d ∈ c :: rest, (decide (d ≠ '=')) = true := fun d hd => by
    simpa using hequals d hd
  have htake : (c :: rest ++ '=' :: s).takeWhile (· ≠ '=') = c :: rest := by
    rw [List.takeWhile_append_of_pos hpos, List.takeWhile_cons_of_neg (by simp), List.append_nil]
  have hdrop : (c :: rest ++ '=' :: s).dropWhile (· ≠ '=') = '=' :: s := by
    rw [List.dropWhile_append_of_pos hpos, List.dropWhile_cons_of_neg (by simp)]
  unfold parseLine
  simp only [hline, if_neg hguard, htake, hdrop, hstrip, if_pos hkey, List.drop_one, List.tail_cons]

/-- The file parses to the two values without their quotes. -/
theorem parseEnvFile_secretsText {s e : Str} (hs : Accepted s) (he : Accepted e)
    (hslines : ∀ c ∈ s, isLineBreak c = false) (helines : ∀ c ∈ e, isLineBreak c = false) :
    parseEnvFile (some (secretsText s e)) = secretValues (unquoted s) (unquoted e) := by
  have hfirst (values : Values) : EnvBootstrap.parseLine values (lit "SECRET_KEY=" ++ s) =
      values.set (lit "SECRET_KEY") (unquoted s) := by
    have hkey : lit "SECRET_KEY" ∈ secretKeys := by simp [secretKeys]
    have hline : lit "SECRET_KEY=" ++ s = lit "SECRET_KEY" ++ '=' :: s := by
      have hlit : lit "SECRET_KEY=" = lit "SECRET_KEY" ++ ['='] := by decide
      simp [hlit]
    rw [hline, parseLine_key hkey hs]
  have hsecond (values : Values) : EnvBootstrap.parseLine values (lit "ENCRYPTION_KEY=" ++ e) =
      values.set (lit "ENCRYPTION_KEY") (unquoted e) := by
    have hkey : lit "ENCRYPTION_KEY" ∈ secretKeys := by simp [secretKeys]
    have hline : lit "ENCRYPTION_KEY=" ++ e = lit "ENCRYPTION_KEY" ++ '=' :: e := by
      have hlit : lit "ENCRYPTION_KEY=" = lit "ENCRYPTION_KEY" ++ ['='] := by decide
      simp [hlit]
    rw [hline, parseLine_key hkey he]
  have hne : lit "SECRET_KEY" ≠ lit "ENCRYPTION_KEY" := by decide
  unfold parseEnvFile
  dsimp only
  rw [universalNewlines_secretsText hs he, splitLines_secretsText hslines helines, List.foldl_cons,
    List.foldl_cons, List.foldl_nil, hfirst, hsecond]
  simp [Values.set, secretValues, hne]

/-! ## the round trip -/

/-- The secrets go into the environment. -/
theorem applyPersistedSecrets_eq {file s e : Str} {env : Environ} (hsne : s ≠ []) (hene : e ≠ [])
    (hs : validatePersistedSecret P (lit "SECRET_KEY") s = .ok s)
    (he : validatePersistedSecret P (lit "ENCRYPTION_KEY") e = .ok e)
    (h : parseEnvFile (some file) = secretValues s e) :
    applyPersistedSecrets P (some file) env =
      Function.update (Function.update env (lit "SECRET_KEY") (some s))
        (lit "ENCRYPTION_KEY") (some e) := by
  simp only [applyPersistedSecrets, h, secretValues, List.foldl_cons, List.foldl_nil, if_neg hsne,
    if_neg hene, hs, he]

/-- The shell assigns the secrets. -/
theorem assignments_shellExport {file s e : Str} (hsne : s ≠ []) (hene : e ≠ [])
    (hs : validatePersistedSecret P (lit "SECRET_KEY") s = .ok s)
    (he : validatePersistedSecret P (lit "ENCRYPTION_KEY") e = .ok e)
    (h : parseEnvFile (some file) = secretValues s e) :
    Shell.assignments (shellExportPersistedSecrets P (some file)) = some (secretValues s e) := by
  have hexport : shellExportPersistedSecrets P (some file) = Shell.exports (secretValues s e) := by
    have hword : lit "export " = Shell.exportWord := by decide
    simp [shellExportPersistedSecrets, h, secretValues, hsne, hene, hs, he, Shell.exports,
      Shell.exportLine, join, hword]
  rw [hexport]
  refine Shell.assignments_exports ?_
  simp only [secretValues, List.forall_mem_cons, List.not_mem_nil, false_implies, implies_true,
    and_true]
  exact ⟨by decide, by decide⟩

/-- A text without surrogates is validated as it is. -/
theorem validatePersistedText_ofStr (name value : Str) :
    validatePersistedText P name (.ofStr value) = Text.ofStr <$> validatePersistedSecret P name value := by
  have hnil : Text.ofStr (strip value) = [] ↔ strip value = [] := List.map_eq_nil_iff
  have hany : (Text.ofStr (strip value)).any isControl =
      (strip value).any fun c => c.toNat < 32 || c.toNat = 127 := List.any_map
  unfold validatePersistedText validatePersistedSecret
  simp only [Text.strip_ofStr, hnil, hany, Text.toStr?_ofStr, Option.any_some]
  split_ifs <;> rfl

/-- What is accepted of a text that can be encoded is accepted of its characters. -/
theorem validatePersistedSecret_of_text {name : Str} {value : Text} {s : Str}
    (h : validatePersistedText P name value = .ok (.ofStr s)) :
    validatePersistedSecret P name s = .ok s := by
  have hs : Text.ofStr s = value.strip := by
    unfold validatePersistedText at h
    dsimp only at h
    split_ifs at h
    exact (Except.ok.inj h).symm
  unfold validatePersistedText at h
  rw [← hs] at h
  have hstrip : strip s = s := by
    have hidem : (Text.ofStr s).strip = Text.ofStr s := by
      rw [hs]
      exact Text.strip_strip value
    rw [Text.strip_ofStr] at hidem
    exact Text.ofStr_injective hidem
  have heq := validatePersistedText_ofStr (P := P) name s
  unfold validatePersistedText at heq
  rw [Text.strip_ofStr, hstrip] at heq
  rw [heq] at h
  obtain ⟨t, ht, hts⟩ := map_eq_ok_iff.mp h
  rw [ht, Text.ofStr_injective hts]

/-- The body of a file of plain secrets. -/
theorem secretsBody_ofStr (s e : Str) :
    secretsBody (.ofStr s) (.ofStr e) = .ofStr (secretsText s e) := by
  simp [secretsBody, secretsText, Text.ofStr]

/-- A file was written only if both texts can be encoded. -/
theorem toStr?_secretsBody_iff {s e : Text} {text : Str} :
    (secretsBody s e).toStr? = some text ↔
      ∃ s' e', s = .ofStr s' ∧ e = .ofStr e' ∧ text = secretsText s' e' := by
  constructor
  · intro h
    have hall : Text.encodable (secretsBody s e) = true := Text.exists_toStr?_iff.mp ⟨text, h⟩
    simp only [secretsBody, Text.encodable_append, Text.encodable_ofStr, Bool.true_and,
      Bool.and_true, Bool.and_eq_true] at hall
    obtain ⟨s', hs⟩ := Text.exists_toStr?_iff.mpr hall.1
    obtain ⟨e', he⟩ := Text.exists_toStr?_iff.mpr hall.2
    rw [Text.ofStr_of_toStr? hs, Text.ofStr_of_toStr? he, secretsBody_ofStr, Text.toStr?_ofStr] at h
    exact ⟨s', e', Text.ofStr_of_toStr? hs, Text.ofStr_of_toStr? he, (Option.some.inj h).symm⟩
  · rintro ⟨s', e', rfl, rfl, rfl⟩
    rw [secretsBody_ofStr, Text.toStr?_ofStr]

/-- Two accepted texts without surrogates are written. -/
theorem writeApplicationSecrets_eq {secretKey encryptionKey : Text} {file : Option Str} {s e : Str}
    (hs : validatePersistedText P (lit "SECRET_KEY") secretKey = .ok (.ofStr s))
    (he : validatePersistedText P (lit "ENCRYPTION_KEY") encryptionKey = .ok (.ofStr e)) :
    writeApplicationSecrets P secretKey encryptionKey file = (.ok (), some (secretsText s e)) := by
  have htext : (secretsBody (.ofStr s) (.ofStr e)).toStr? = some (secretsText s e) :=
    toStr?_secretsBody_iff.mpr ⟨s, e, rfl, rfl, rfl⟩
  unfold writeApplicationSecrets
  simp only [hs, he, htext]

/-- A file of two validated secrets gives them back exactly if neither has a line
break, or a quote at one of its ends. -/
theorem roundTrips_secretsText_iff {s e : Str}
    (hs : validatePersistedSecret P (lit "SECRET_KEY") s = .ok s)
    (he : validatePersistedSecret P (lit "ENCRYPTION_KEY") e = .ok e) :
    RoundTrips P (secretsText s e) s e ↔ Plain s ∧ Plain e := by
  obtain ⟨-, hsaccepted⟩ := accepted_of_validatePersistedSecret hs
  obtain ⟨-, heaccepted⟩ := accepted_of_validatePersistedSecret he
  constructor
  · intro hround
    have hone := oneLine_parseEnvFile (some (secretsText s e))
    rw [hround.parsed] at hone
    have hslines : ∀ c ∈ s, isLineBreak c = false := hone (lit "SECRET_KEY", s) (by simp [secretValues])
    have helines : ∀ c ∈ e, isLineBreak c = false :=
      hone (lit "ENCRYPTION_KEY", e) (by simp [secretValues])
    have hparsed := hround.parsed
    rw [parseEnvFile_secretsText hsaccepted heaccepted hslines helines] at hparsed
    simp only [secretValues, List.cons.injEq, Prod.mk.injEq, true_and, and_true] at hparsed
    obtain ⟨hsfirst, hslast⟩ := (unquoted_eq_self_iff hsaccepted.strip).mp hparsed.1
    obtain ⟨hefirst, helast⟩ := (unquoted_eq_self_iff heaccepted.strip).mp hparsed.2
    exact ⟨⟨hslines, hsfirst, hslast⟩, ⟨helines, hefirst, helast⟩⟩
  · rintro ⟨hsplain, heplain⟩
    have hsunquoted := (unquoted_eq_self_iff hsaccepted.strip).mpr ⟨hsplain.first, hsplain.last⟩
    have heunquoted := (unquoted_eq_self_iff heaccepted.strip).mpr ⟨heplain.first, heplain.last⟩
    have hparsed := parseEnvFile_secretsText hsaccepted heaccepted hsplain.lines heplain.lines
    rw [hsunquoted, heunquoted] at hparsed
    exact ⟨hparsed,
      fun env => applyPersistedSecrets_eq hsaccepted.ne_nil heaccepted.ne_nil hs he hparsed,
      assignments_shellExport hsaccepted.ne_nil heaccepted.ne_nil hs he hparsed⟩

/-- Two accepted secrets are written and read back in every way exactly if both
can be encoded, and neither has a line break, or a quote at one of its ends. -/
theorem persistedSecrets_roundTrip_iff (P : Platform) {secretKey encryptionKey s e : Text}
    (file : Option Str)
    (hs : validatePersistedText P (lit "SECRET_KEY") secretKey = .ok s)
    (he : validatePersistedText P (lit "ENCRYPTION_KEY") encryptionKey = .ok e) :
    GivesBack P secretKey encryptionKey file s e ↔ PlainText s ∧ PlainText e := by
  constructor
  · rintro ⟨text, s', e', hwritten, rfl, rfl, hround⟩
    rw [writeApplicationSecrets_eq hs he] at hwritten
    obtain rfl := Option.some.inj (Prod.mk.inj hwritten).2
    obtain ⟨hsplain, heplain⟩ := (roundTrips_secretsText_iff (validatePersistedSecret_of_text hs)
      (validatePersistedSecret_of_text he)).mp hround
    exact ⟨⟨s', Text.toStr?_ofStr s', hsplain⟩, ⟨e', Text.toStr?_ofStr e', heplain⟩⟩
  · rintro ⟨⟨s', hs', hsplain⟩, ⟨e', he', heplain⟩⟩
    obtain rfl := Text.ofStr_of_toStr? hs'
    obtain rfl := Text.ofStr_of_toStr? he'
    exact ⟨secretsText s' e', s', e', writeApplicationSecrets_eq hs he, rfl, rfl,
      (roundTrips_secretsText_iff (validatePersistedSecret_of_text hs)
        (validatePersistedSecret_of_text he)).mpr ⟨hsplain, heplain⟩⟩

/-- The secrets that a parsed file stands for; an unset variable is empty. -/
def Values.secrets (values : Values) : Secrets :=
  ⟨(values.lookup (lit "SECRET_KEY")).getD [], (values.lookup (lit "ENCRYPTION_KEY")).getD []⟩

/-- A restore leaves the secrets that the file of plain values is parsed to. -/
theorem durable_eq_secrets {m : Moment} {host : Host} {secrets : Secrets} {s e : Str}
    {file : Option Str} (hwrites : m.writes appSecretsFilename = true)
    (hs : validatePersistedSecret P (lit "SECRET_KEY") secrets.secretKey = .ok s)
    (he : validatePersistedSecret P (lit "ENCRYPTION_KEY") secrets.encryptionKey = .ok e)
    (hsplain : Plain s) (heplain : Plain e) :
    (Backup.writeApplicationSecrets P m secrets host).2.durable =
      some (parseEnvFile (writeApplicationSecrets P (.ofStr secrets.secretKey)
        (.ofStr secrets.encryptionKey) file).2).secrets := by
  have hround := (roundTrips_secretsText_iff (validatePersistedSecret_strip hs)
    (validatePersistedSecret_strip he)).mpr ⟨hsplain, heplain⟩
  have hs' : validatePersistedText P (lit "SECRET_KEY") (.ofStr secrets.secretKey) = .ok (.ofStr s) := by
    rw [validatePersistedText_ofStr, hs]
    rfl
  have he' : validatePersistedText P (lit "ENCRYPTION_KEY") (.ofStr secrets.encryptionKey) =
      .ok (.ofStr e) := by
    rw [validatePersistedText_ofStr, he]
    rfl
  have hne : (lit "ENCRYPTION_KEY" == lit "SECRET_KEY") = false := by decide
  rw [writeApplicationSecrets_eq hs' he', hround.parsed]
  unfold Backup.writeApplicationSecrets
  rw [hs, he]
  dsimp only
  rw [if_pos hwrites]
  simp [Values.secrets, secretValues, List.lookup_cons, hne]

theorem roundTrips_hostKey :
    GivesBack .plain (.ofStr (lit " it's $ecret")) (.ofStr hostKey) none
      (.ofStr (lit "it's $ecret")) (.ofStr hostKey) := by
  have hs : validatePersistedText .plain (lit "SECRET_KEY") (.ofStr (lit " it's $ecret")) =
      .ok (.ofStr (lit "it's $ecret")) := by decide
  have he : validatePersistedText .plain (lit "ENCRYPTION_KEY") (.ofStr hostKey) =
      .ok (.ofStr hostKey) := by decide
  exact (persistedSecrets_roundTrip_iff .plain none hs he).mpr
    ⟨⟨_, Text.toStr?_ofStr _, ⟨by decide, by decide, by decide⟩⟩,
      ⟨_, Text.toStr?_ofStr _, ⟨by decide, by decide, by decide⟩⟩⟩

/-- A secret key that ends in a quote. -/
def quotedKey : Str := lit "the \"secret\""

/-- The key is accepted, and read back without its last quote; so is one that has
a lone surrogate, and the file is left empty. -/
theorem not_roundTrips_quotedKey :
    (validatePersistedText .plain (lit "SECRET_KEY") (.ofStr quotedKey) = .ok (.ofStr quotedKey) ∧
        ¬GivesBack .plain (.ofStr quotedKey) (.ofStr hostKey) none (.ofStr quotedKey)
          (.ofStr hostKey)) ∧
      validatePersistedText .plain (lit "SECRET_KEY") [.surrogate 0] = .ok [.surrogate 0] ∧
      (writeApplicationSecrets .plain [.surrogate 0] (.ofStr hostKey) none).2 = some [] ∧
      ¬GivesBack .plain [.surrogate 0] (.ofStr hostKey) none [.surrogate 0] (.ofStr hostKey) := by
  have hkey : validatePersistedText .plain (lit "ENCRYPTION_KEY") (.ofStr hostKey) =
      .ok (.ofStr hostKey) := by decide
  have hquoted : validatePersistedSecret .plain (lit "SECRET_KEY") quotedKey = .ok quotedKey := by
    decide
  have hsurrogate : (writeApplicationSecrets .plain [.surrogate 0] (.ofStr hostKey) none).2 =
      some [] := by decide
  refine ⟨⟨by decide, ?_⟩, by decide, hsurrogate, ?_⟩
  · rintro ⟨text, s, e, hwritten, hs, he, hround⟩
    obtain rfl := Text.ofStr_injective hs
    obtain rfl := Text.ofStr_injective he
    have hsecret : validatePersistedText .plain (lit "SECRET_KEY") (.ofStr quotedKey) =
        .ok (.ofStr quotedKey) := by decide
    rw [writeApplicationSecrets_eq hsecret hkey] at hwritten
    obtain rfl := Option.some.inj (Prod.mk.inj hwritten).2
    have hplain := (roundTrips_secretsText_iff hquoted (validatePersistedSecret_of_text hkey)).mp hround
    exact absurd (hplain.1.last '"' (by decide)).1 (by decide)
  · rintro ⟨text, s, e, -, hs, -⟩
    have hstr := congrArg Text.toStr? hs
    rw [Text.toStr?_ofStr] at hstr
    contradiction

end ApiToDns.EnvBootstrap
