import ApiToDns.Plugins.WinRmStaging

/-!
# Plugins.WinRmReading

What PowerShell makes of the scripts that it executes.  A script that goes directly is
read as it was meant exactly if none of its strings has a typographic quote.  The bytes
of a staged one are read in the Windows-1252 code page, in which U+00D2 ends in a
typographic quote, and no character beyond ASCII comes out as itself.

* `ReadAsMeant` — each quoted string is one literal that says that string;
* `plainCode_script` — the plugin's own text is ASCII;
* `script_readAsMeant_iff` — which scripts are read as they are meant;
* `not_goesDirectly_listRecords` — a listing is always staged.
-/

namespace ApiToDns.Microsoft

open Py Quoting

variable (U : Ucd)

/-! ## the plugin's own text -/

/-- The plugin's own text in a script is ASCII. -/
def plainCode : Script → Bool
  | [] => true
  | .code t :: ps => t.all isAscii && plainCode ps
  | .quoted _ :: ps => plainCode ps

@[simp] theorem plainCode_nil : plainCode [] = true := rfl

@[simp] theorem plainCode_quoted (s : Str) (ps : Script) :
    plainCode (quoted s :: ps) = plainCode ps := rfl

/-- The code of two scripts. -/
@[simp] theorem plainCode_append (S T : Script) :
    plainCode (S ++ T) = (plainCode S && plainCode T) := by
  induction S with
  | nil => rfl
  | cons p ps ih =>
      cases p with
      | code t => rw [List.cons_append, plainCode, plainCode, ih, Bool.and_assoc]
      | quoted s => exact ih

/-- What is quoted does not matter to the code. -/
theorem plainCode_map_blank (S : Script) : plainCode (S.map Piece.blank) = plainCode S := by
  induction S with
  | nil => rfl
  | cons p ps ih =>
      cases p with
      | code t => exact congrArg (t.all isAscii && ·) ih
      | quoted s => exact ih

/-- A piece of ASCII code is plain. -/
theorem plainCode_code {s : Str} (ps : Script) (h : s.all isAscii = true) :
    plainCode (code (String.ofList s) :: ps) = plainCode ps := by
  rw [code, lit_ofList, plainCode, h, Bool.true_and]

/-- A line of the plugin's own. -/
theorem plainCode_textLine {s : Str} (h : s.all isAscii = true) :
    plainCode (textLine (String.ofList s)) = true :=
  plainCode_code [] h

/-- Lines of plain code make plain code. -/
theorem plainCode_joinLines {lines : List Script} (h : ∀ line ∈ lines, plainCode line = true) :
    plainCode (joinLines lines) = true := by
  have hbreak : plainCode [code "\n"] = true := by decide
  unfold joinLines
  induction lines with
  | nil => rfl
  | cons line lines ih =>
      obtain ⟨hline, hlines⟩ := List.forall_mem_cons.mp h
      cases lines with
      | nil =>
          rw [List.intercalate_singleton]
          exact hline
      | cons next lines =>
          rw [List.intercalate_cons_cons, plainCode_append, plainCode_append, hline, hbreak,
            ih hlines]
          rfl

/-- Numbers are ASCII. -/
theorem isAscii_of_mem_intStr {i : Int} {c : Char} (hc : c ∈ intStr i) : isAscii c = true := by
  cases mem_intStr hc with
  | inl h =>
      rw [h]
      decide
  | inr h =>
      have hdigit := Char.isDigit_iff_toNat.mp h
      have hnine : '9'.toNat = 57 := rfl
      simp only [isAscii, decide_eq_true_eq]
      omega

/-- A number is plain code. -/
@[simp] theorem plainCode_number (i : Int) (ps : Script) :
    plainCode (number i :: ps) = plainCode ps := by
  have hall : (intStr i).all isAscii = true :=
    List.all_eq_true.mpr fun c hc => isAscii_of_mem_intStr hc
  rw [number, plainCode, hall, Bool.true_and]

/-- The header is plain code. -/
theorem plainCode_header (server zone name : Str) :
    ∀ line ∈ header server zone name, plainCode line = true := by
  simp only [header, code, List.forall_mem_cons]
  repeat rw [lit_ofList]
  exact ⟨rfl, rfl, rfl, rfl, by simp⟩

/-- So is the line that removes a record. -/
theorem plainCode_removeLine (psRr : Str) : plainCode (removeLine psRr) = true := by
  simp only [removeLine, code]
  repeat rw [lit_ofList]
  rfl

/-- So is a line that adds one. -/
theorem plainCode_addLine {cmdlet : String} {arguments : Script}
    (hcmdlet : plainCode [code cmdlet] = true) (harguments : plainCode arguments = true) :
    plainCode (addLine cmdlet arguments) = true := by
  have hcommon : plainCode
      [code " -ComputerName $ComputerName -ZoneName $ZoneName -Name $Name "] = true :=
    plainCode_textLine rfl
  have hlife : plainCode [code " -TimeToLive (New-TimeSpan -Seconds $TtlSeconds)"] = true :=
    plainCode_textLine rfl
  rw [addLine, plainCode_append, plainCode_append, harguments, hlife,
    ← List.singleton_append, plainCode_append, hcmdlet, hcommon]
  rfl

/-- So are the lines that add records. -/
theorem plainCode_addEach {cmdlet parameter : String} (values : List Str)
    (hcmdlet : plainCode [code cmdlet] = true) (hparameter : plainCode [code parameter] = true) :
    ∀ line ∈ addEach cmdlet parameter values, plainCode line = true := by
  intro line hline
  obtain ⟨v, -, hv⟩ := List.mem_map.mp hline
  rw [← hv]
  refine plainCode_addLine hcmdlet ?_
  rw [← List.singleton_append, plainCode_append, hparameter, plainCode_quoted]
  rfl

/-- So are those of each type. -/
theorem plainCode_addRecordLines {rt : RecordType} {values : List Str} {lines : List Script}
    (h : addRecordLines U rt values = .ok lines) : ∀ line ∈ lines, plainCode line = true := by
  cases rt with
  | a | aaaa | txt | ns | ptr =>
      rw [← Except.ok.inj h]
      exact plainCode_addEach values (plainCode_textLine rfl) (plainCode_textLine rfl)
  | cname =>
      cases values with
      | nil => contradiction
      | cons v vs =>
          rw [← Except.ok.inj h]
          exact plainCode_addEach [v] (plainCode_textLine rfl) (plainCode_textLine rfl)
  | soa => contradiction
  | mx =>
      intro line hline
      obtain ⟨v, -, hv⟩ := mem_of_mapM_eq_ok h hline
      obtain ⟨⟨priority, exchange⟩, -, hv⟩ := bind_eq_ok hv
      rw [← Except.ok.inj hv]
      refine plainCode_addLine (plainCode_textLine rfl) ?_
      rw [plainCode_code, plainCode_quoted, plainCode_code, plainCode_number, plainCode_nil]
      all_goals rfl
  | srv =>
      intro line hline
      obtain ⟨v, -, hv⟩ := mem_of_mapM_eq_ok h hline
      obtain ⟨⟨priority, weight, port, target⟩, -, hv⟩ := bind_eq_ok hv
      rw [← Except.ok.inj hv]
      refine plainCode_addLine (plainCode_textLine rfl) ?_
      rw [plainCode_code, plainCode_quoted, plainCode_code, plainCode_number, plainCode_code,
        plainCode_number, plainCode_code, plainCode_number, plainCode_nil]
      all_goals rfl
  | caa =>
      intro line hline
      obtain ⟨v, -, hv⟩ := mem_of_mapM_eq_ok h hline
      obtain ⟨⟨flags, tag, caaValue⟩, -, hv⟩ := bind_eq_ok hv
      rw [← Except.ok.inj hv]
      refine plainCode_addLine (plainCode_textLine rfl) ?_
      rw [plainCode_code, plainCode_number, plainCode_code, plainCode_quoted, plainCode_code,
        plainCode_quoted, plainCode_nil]
      all_goals rfl

/-- The script that looks for a record is plain. -/
theorem plainCode_recordExistsScript (server zone name psRr : Str) :
    plainCode (recordExistsScript server zone name psRr) = true := by
  simp only [recordExistsScript, code]
  repeat rw [lit_ofList]
  rfl

/-- The script that deletes a record is plain. -/
theorem plainCode_deleteScript (server zone name psRr : Str) :
    plainCode (deleteScript server zone name psRr) = true := by
  refine plainCode_joinLines ?_
  have himport : plainCode [code "Import-Module DnsServer -ErrorAction Stop"] = true :=
    plainCode_textLine rfl
  simp only [List.forall_mem_append, List.forall_mem_cons]
  exact ⟨plainCode_header server zone name, himport, plainCode_removeLine psRr, by simp⟩

/-- The script that updates a record is plain. -/
theorem plainCode_updateScript {server zone name : Str} {rt : RecordType} {ttl : Int}
    {values : List Str} {S : Script} (h : updateScript U server zone name rt ttl values = .ok S) :
    plainCode S = true := by
  obtain ⟨lines, hlines, hS⟩ := bind_eq_ok h
  rw [← Except.ok.inj hS]
  refine plainCode_joinLines ?_
  have hseconds : plainCode [code "$TtlSeconds = ", number ttl] = true := by
    rw [plainCode_code, plainCode_number, plainCode_nil]
    rfl
  have himport : plainCode [code "Import-Module DnsServer -ErrorAction Stop"] = true :=
    plainCode_textLine rfl
  simp only [List.forall_mem_append, List.forall_mem_cons]
  exact ⟨⟨plainCode_header server zone name, hseconds, himport, plainCode_removeLine _, by simp⟩,
    plainCode_addRecordLines U hlines⟩

set_option maxRecDepth 4000 in
/-- The lines that show a record are plain. -/
theorem plainCode_recordDetailsBody :
    ∀ line ∈ recordDetailsBody.map textLine, plainCode line = true := by
  simp only [recordDetailsBody, List.map_cons, List.map_nil, List.forall_mem_cons,
    List.not_mem_nil, false_implies, implies_true, and_true]
  and_intros
  all_goals exact plainCode_textLine rfl

/-- So is their script. -/
theorem plainCode_recordDetailsScript (server zone name : Str) (rt : RecordType) :
    plainCode (recordDetailsScript U server zone name rt) = true := by
  refine plainCode_joinLines ?_
  have hget (psRr : Str) : plainCode
      [code "$records = @(Get-DnsServerResourceRecord -ComputerName ", quoted server,
        code " -ZoneName ", quoted zone, code " -Name ", quoted name, code " -RRType ",
        quoted psRr, code " -ErrorAction SilentlyContinue)"] = true := by
    simp only [code]
    repeat rw [lit_ofList]
    rfl
  have hswitch : plainCode [code "switch ('", .code rt.text, code "') \x7b"] = true := by
    cases rt <;> decide
  simp only [List.forall_mem_append, List.forall_mem_cons]
  exact ⟨⟨⟨plainCode_textLine rfl, hget _, plainCode_textLine rfl, plainCode_textLine rfl,
    plainCode_textLine rfl, hswitch, by simp⟩, plainCode_recordDetailsBody⟩, rfl, by simp⟩

/-- The lines before a listing are plain. -/
theorem plainCode_listRecordsSetup :
    ∀ line ∈ listRecordsSetup.map textLine, plainCode line = true := by
  simp only [listRecordsSetup, List.map_cons, List.map_nil, List.forall_mem_cons,
    List.not_mem_nil, false_implies, implies_true, and_true]
  and_intros
  all_goals exact plainCode_textLine rfl

set_option maxRecDepth 4000 in
/-- So are those of a listing. -/
theorem plainCode_listRecordsBody :
    ∀ line ∈ listRecordsBody.map textLine, plainCode line = true := by
  simp only [listRecordsBody, List.map_cons, List.map_nil, List.forall_mem_cons,
    List.not_mem_nil, false_implies, implies_true, and_true]
  and_intros
  all_goals exact plainCode_textLine rfl

/-- So is their script. -/
theorem plainCode_listRecordsScript (server zone : Str) (namePattern recordType : Option Str)
    (limit : Int) :
    plainCode (listRecordsScript U server zone namePattern recordType limit) = true := by
  refine plainCode_joinLines ?_
  have hassign {s : Str} (value : Str) (h : s.all isAscii = true) :
      plainCode [code (String.ofList s), quoted value] = true := by
    rw [plainCode_code _ h, plainCode_quoted, plainCode_nil]
  have hlimit : plainCode [code "$Limit = ", number (max 1 limit)] = true := by
    rw [plainCode_code, plainCode_number, plainCode_nil]
    rfl
  have hget : plainCode
      [code "Get-DnsServerResourceRecord -ComputerName $ComputerName -ZoneName $ZoneName"] =
        true := plainCode_textLine rfl
  have hloop : plainCode [code " -ErrorAction Stop | ForEach-Object \x7b"] = true :=
    plainCode_textLine rfl
  simp only [List.forall_mem_append, List.forall_mem_cons]
  refine ⟨⟨⟨⟨plainCode_textLine rfl, hassign _ (by decide), hassign _ (by decide), hassign _ (by decide), hassign _ (by decide),
    hlimit, by simp⟩, plainCode_listRecordsSetup⟩, ?_, by simp⟩, plainCode_listRecordsBody⟩
  rw [plainCode_append, plainCode_append, hget, hloop, Bool.true_and, Bool.and_true]
  split
  · rfl
  · exact hassign _ (by decide)

/-- In the script of every call the plugin's own text is ASCII. -/
theorem plainCode_script {dnsServer dnsZone : Str} {call : ScriptCall} {S : Script}
    (h : call.script U dnsServer dnsZone = .ok S) : plainCode S = true := by
  cases call with
  | recordExists recordName rt =>
      obtain ⟨zone, -, h⟩ := bind_eq_ok h
      rw [← Except.ok.inj h]
      exact plainCode_recordExistsScript ..
  | delete recordName inner =>
      obtain ⟨zone, -, h⟩ := bind_eq_ok h
      obtain ⟨inner', -, h⟩ := bind_eq_ok h
      rw [← Except.ok.inj h]
      exact plainCode_deleteScript ..
  | update recordName rt ttl values =>
      obtain ⟨zone, -, h⟩ := bind_eq_ok h
      obtain ⟨rt', -, h⟩ := bind_eq_ok h
      obtain ⟨values', -, h⟩ := bind_eq_ok h
      exact plainCode_updateScript U h
  | recordDetails recordName rt =>
      obtain ⟨zone, -, h⟩ := bind_eq_ok h
      rw [← Except.ok.inj h]
      exact plainCode_recordDetailsScript ..
  | listRecords namePattern recordType limit =>
      obtain ⟨zone, -, h⟩ := bind_eq_ok h
      rw [← Except.ok.inj h]
      exact plainCode_listRecordsScript ..

/-! ## bytes of a text -/

/-- The bytes of a text in UTF-8 beyond one for each character. -/
def extra (s : Str) : Nat := (s.map fun c => c.utf8Size - 1).sum

/-- The octets that the first character adds, and those of the others. -/
@[simp] theorem extra_cons (c : Char) (s : Str) : extra (c :: s) = c.utf8Size - 1 + extra s :=
  List.sum_cons

/-- The octets of two parts add up. -/
@[simp] theorem extra_append (s t : Str) : extra (s ++ t) = extra s + extra t := by
  unfold extra
  rw [List.map_append, List.sum_append]

/-- The octets are the characters and what they add. -/
theorem length_encode_eq (s : Str) : (Utf8.encode s).length = s.length + extra s := by
  induction s with
  | nil => rfl
  | cons c s ih =>
      have hpos := Char.utf8Size_pos c
      rw [Utf8.encode_cons, List.length_append, String.length_utf8EncodeChar, ih, extra_cons,
        List.length_cons]
      omega

/-- A text without further bytes is ASCII. -/
theorem isAscii_of_extra {s : Str} (h : extra s = 0) : ∀ c ∈ s, isAscii c = true := by
  intro c hc
  by_contra hnot
  have hlt := length_lt_encode hc (by simpa using hnot)
  rw [length_encode_eq] at hlt
  omega

/-- A typographic quote has two further bytes. -/
theorem two_mul_countP_le_extra (s : Str) :
    2 * (s.countP fun c => psQuoting.quote c && !(c == '\'')) ≤ extra s := by
  have hsmart : ∀ c ∈ smartQuotes, c.utf8Size = 3 := by decide
  induction s with
  | nil => exact Nat.le_refl _
  | cons c s ih =>
      rw [List.countP_cons, extra_cons]
      split
      · next hc =>
          have hmem : c ∈ smartQuotes := by
            rw [Bool.and_eq_true, Bool.not_eq_true'] at hc
            simpa [psQuoting, hc.2] using hc.1
          rw [hsmart c hmem]
          omega
      · omega

/-- Quoting takes no octets away. -/
theorem extra_le_extra_psSingleQuoted (s : Str) : extra s ≤ extra (psSingleQuoted s) := by
  have hinner : extra s ≤ extra (s.flatMap fun c => if c = '\'' then ['\'', '\''] else [c]) := by
    induction s with
    | nil => exact Nat.le_refl _
    | cons c s ih =>
        rw [List.flatMap_cons, extra_append, extra_cons]
        by_cases hc : c = '\''
        · rw [if_pos hc, hc, extra_cons, extra_cons]
          omega
        · rw [if_neg hc, extra_cons]
          omega
  unfold psSingleQuoted
  simp only [extra_append, extra_cons, List.cons_append]
  omega

/-- The further bytes of the strings of a script. -/
theorem sum_extra_le (S : Script) : ((strings S).map extra).sum ≤ extra (source S) := by
  induction S with
  | nil => exact Nat.le_refl _
  | cons p ps ih =>
      cases p with
      | code t =>
          rw [strings, source, extra_append]
          omega
      | quoted s =>
          have hs := extra_le_extra_psSingleQuoted s
          rw [strings, source, extra_append, List.map_cons, List.sum_cons]
          omega

/-! ## scripts are read as they are meant -/

/-- PowerShell reads each quoted string of the script as one literal that says
that string, and the rest as the code it is. -/
def ReadAsMeant (S : Script) : Prop :=
  ∃ ts, psQuoting.meant S = some ts ∧ psQuoting.tokens (executed (source S)) = some ts

/-- The strings of the script are ASCII. -/
def AsciiStrings (S : Script) : Prop := ∀ s ∈ strings S, ∀ c ∈ s, isAscii c = true

instance (S : Script) : Decidable (AsciiStrings S) :=
  decidable_of_iff ((strings S).all (fun s => s.all isAscii) = true) (by simp [AsciiStrings])

/-- The script goes directly and quotes no typographic quote, or its strings are
ASCII. -/
def Unmistakable (S : Script) : Prop :=
  GoesDirectly (source S) ∧ NoSmartQuotes S ∨ AsciiStrings S

/-- ASCII strings have no smart quotes. -/
theorem noSmartQuotes_of_ascii {S : Script} (h : AsciiStrings S) : NoSmartQuotes S := by
  have hsmart : ∀ c ∈ smartQuotes, isAscii c = false := by decide
  intro s hs c hc hmem
  have hascii := h s hs c hc
  rw [hsmart c hmem] at hascii
  contradiction

/-- Plain code with ASCII strings is ASCII. -/
theorem isAscii_source {S : Script} (hplain : plainCode S = true) (h : AsciiStrings S) :
    ∀ c ∈ source S, isAscii c = true := by
  induction S with
  | nil => simp [source]
  | cons p ps ih =>
      cases p with
      | code t =>
          rw [plainCode, Bool.and_eq_true, List.all_eq_true] at hplain
          rw [source, List.forall_mem_append]
          exact ⟨hplain.1, ih hplain.2 h⟩
      | quoted s =>
          obtain ⟨hs, hrest⟩ := List.forall_mem_cons.mp h
          rw [source, List.forall_mem_append]
          refine ⟨fun c hc => ?_, ih hplain hrest⟩
          simp only [psSingleQuoted, List.cons_append, List.mem_cons, List.mem_append,
            List.mem_flatMap, List.not_mem_nil, or_false] at hc
          have hquote : isAscii '\'' = true := by decide
          rcases hc with rfl | ⟨d, hd, hc⟩ | rfl
          · exact hquote
          · split at hc
            · simp only [List.mem_cons, List.not_mem_nil, or_false, or_self] at hc
              rw [hc]
              exact hquote
            · rw [List.mem_singleton.mp hc]
              exact hs d hd
          · exact hquote

/-- A smart quote adds two octets. -/
theorem two_mul_loose_le (S : Script) :
    2 * (S.map (Piece.loose psQuoting (· == '\''))).sum ≤ ((strings S).map extra).sum := by
  induction S with
  | nil => exact Nat.le_refl _
  | cons p ps ih =>
      cases p with
      | code t =>
          rw [List.map_cons, List.sum_cons, Piece.loose, strings]
          omega
      | quoted s =>
          have hs := two_mul_countP_le_extra s
          rw [List.map_cons, List.sum_cons, Piece.loose, strings, List.map_cons, List.sum_cons]
          omega

/-- Strings that come out of a staged script as they went in are ASCII: the text that is
read is longer than the script by its further bytes, but what is meant leaves room only
for the quotes that are not doubled, which have two further bytes each. -/
theorem asciiStrings_of_staged {S : Script} {ts : List (Token Char)}
    (hts : psQuoting.meant S = some ts)
    (h : psQuoting.tokens (scriptText (Utf8.encode (source S))) = some ts) : AsciiStrings S := by
  have hmeant := length_of_tokens '\'' quote_of_doubled hts h
  have hloose := two_mul_loose_le S
  have hextra := sum_extra_le S
  rw [← source_eq_text] at hmeant
  have hsum : ((strings S).map extra).sum = 0 := by
    cases scriptText_encode (source S) with
    | inl hmark =>
        have hlength := congrArg List.length hmark
        rw [List.length_cons] at hlength
        omega
    | inr hbytes =>
        have hlength := congrArg List.length hbytes
        rw [Cp1252.length_decode, length_encode_eq] at hlength
        omega
  intro s hs
  exact isAscii_of_extra
    (List.sum_eq_zero_iff_forall_eq_nat.mp hsum _ (List.mem_map_of_mem hs))

/-- A tidy script is read as it is meant exactly when it goes directly and quotes no
typographic quote, or quotes ASCII only. -/
theorem readAsMeant_iff_of_tidy {S : Script} (h : psQuoting.Tidy '\n' S)
    (hplain : plainCode S = true) : ReadAsMeant S ↔ Unmistakable S := by
  obtain ⟨ts, hts⟩ := meant_of_tidy h
  have hread : ReadAsMeant S ↔ psQuoting.tokens (executed (source S)) = some ts := by
    constructor
    · intro hread
      obtain ⟨ts', hts', htokens⟩ := hread
      rw [hts, Option.some.injEq] at hts'
      rw [hts', htokens]
    · intro htokens
      exact ⟨ts, hts, htokens⟩
  rw [hread, executed, Unmistakable]
  by_cases hdirect : GoesDirectly (source S)
  · rw [if_pos hdirect, tokens_source_iff hts]
    constructor
    · intro hsmart
      exact .inl ⟨hdirect, hsmart⟩
    · intro hsafe
      cases hsafe with
      | inl hsafe => exact hsafe.2
      | inr hascii => exact noSmartQuotes_of_ascii hascii
  · rw [if_neg hdirect]
    constructor
    · intro hstaged
      exact .inr (asciiStrings_of_staged hts hstaged)
    · intro hsafe
      have hascii := hsafe.resolve_left fun hboth => hdirect hboth.1
      rw [scriptText_encode_eq_iff.mpr (isAscii_source hplain hascii)]
      exact (tokens_source_iff hts).mpr (noSmartQuotes_of_ascii hascii)

/-- The script of a call is read as it is meant exactly when it goes directly
and quotes no typographic quote, or quotes ASCII only; and two such scripts that
differ only in what they quote are read as the same tokens up to what their
literals say. -/
theorem script_readAsMeant_iff {dnsServer dnsZone : Str} {call : ScriptCall} {S : Script}
    (h : call.script U dnsServer dnsZone = .ok S) :
    (ReadAsMeant S ↔ Unmistakable S) ∧
      ∀ S' : Script, S'.map Piece.blank = S.map Piece.blank → Unmistakable S →
        Unmistakable S' → ∃ ts ts', psQuoting.tokens (executed (source S)) = some ts ∧
          psQuoting.tokens (executed (source S')) = some ts' ∧
          ts.map Token.blank = ts'.map Token.blank := by
  have htidy := tidy_script U h
  have hplain := plainCode_script U h
  refine ⟨readAsMeant_iff_of_tidy htidy hplain, fun S' hblank hS hS' => ?_⟩
  have htidy' := htidy.alike hblank.symm
  have hplain' : plainCode S' = true := by
    rw [← plainCode_map_blank, hblank, plainCode_map_blank, hplain]
  obtain ⟨ts, hmeant, htokens⟩ := (readAsMeant_iff_of_tidy htidy hplain).mpr hS
  obtain ⟨ts', hmeant', htokens'⟩ := (readAsMeant_iff_of_tidy htidy' hplain').mpr hS'
  have halike := meant_alike (Q := psQuoting) hblank
  rw [hmeant, hmeant', Option.map_some, Option.map_some, Option.some.injEq] at halike
  exact ⟨ts, ts', htokens, htokens', halike.symm⟩

theorem readAsMeant_recordExists_www :
    ReadAsMeant
        (recordExistsScript (lit "dns1") (lit "example.com") (lit "www") (lit "Txt")) ∧
      ReadAsMeant (listRecordsScript Ucd.ascii (lit "dns1") (lit "example.com")
        (some (lit "w*")) none 100) := by
  have hexists : (ScriptCall.recordExists (lit "www") .txt).script Ucd.ascii (lit "dns1")
      (lit "example.com") =
        .ok (recordExistsScript (lit "dns1") (lit "example.com") (lit "www") (lit "Txt")) := by
    decide
  have hlist : (ScriptCall.listRecords (some (lit "w*")) none 100).script Ucd.ascii (lit "dns1")
      (lit "example.com") =
        .ok (listRecordsScript Ucd.ascii (lit "dns1") (lit "example.com") (some (lit "w*")) none
          100) := by
    rfl
  exact ⟨(script_readAsMeant_iff Ucd.ascii hexists).1.mpr (.inr (by decide)),
    (script_readAsMeant_iff Ucd.ascii hlist).1.mpr (.inr (by decide +kernel))⟩

/-! ## listings -/

/-- The source of two scripts. -/
theorem source_append (S T : Script) : source (S ++ T) = source S ++ source T := by
  induction S with
  | nil => rfl
  | cons p ps ih => cases p <;> simp [source, ih]

/-- The lines are no longer than the script. -/
theorem sum_length_le_joinLines (lines : List Script) :
    (lines.map fun line => (source line).length).sum ≤ (source (joinLines lines)).length := by
  unfold joinLines
  induction lines with
  | nil => exact Nat.le_refl _
  | cons line lines ih =>
      cases lines with
      | nil => simp
      | cons next lines =>
          rw [List.map_cons, List.sum_cons, List.intercalate_cons_cons, source_append,
            source_append, List.length_append, List.length_append]
          omega

set_option maxRecDepth 4000 in
/-- The lines of a listing are long. -/
theorem length_listRecordsBody :
    2250 < ((listRecordsBody.map textLine).map fun line => (source line).length).sum := by
  simp only [listRecordsBody, List.map_cons, List.map_nil, textLine, code, source,
    List.append_nil]
  repeat rw [lit_ofList]
  decide

/-- A script of more than 2250 characters is staged. -/
theorem not_goesDirectly_of_length {script : Str} (h : 2250 < script.length) :
    ¬GoesDirectly script := by
  have hbytes := Utf16.two_mul_length_le script
  rw [GoesDirectly, encodedCommand, Base64.length_encode, encodedSoftLimit]
  omega

/-- A listing is staged, whatever is asked for: its pattern has to be ASCII. -/
theorem not_goesDirectly_listRecords (server zone : Str) (namePattern recordType : Option Str)
    (limit : Int) :
    ¬GoesDirectly (source (listRecordsScript U server zone namePattern recordType limit)) := by
  refine not_goesDirectly_of_length (Nat.lt_of_lt_of_le ?_ (sum_length_le_joinLines _))
  have hbody := length_listRecordsBody
  rw [List.map_append, List.sum_append]
  omega

/-- A record name that ends its literal and begins another. -/
def injected : Str := lit "’; calc; ‘"

/-- The name reaches the script of a lookup, which is not read as it is meant:
what the name says between its quotes is code. -/
theorem not_readAsMeant_injected :
    (∃ S, (ScriptCall.recordExists injected .txt).script Ucd.ascii (lit "dns1")
        (lit "example.com") = .ok S ∧ ¬ReadAsMeant S) ∧
      psQuoting.tokens (psSingleQuoted injected) =
        some ([.literal []] ++ (lit "; calc; ").map .code ++ [.literal []]) := by
  refine ⟨⟨recordExistsScript (lit "dns1") (lit "example.com") injected (lit "Txt"),
    by decide, ?_⟩, by decide⟩
  rw [readAsMeant_iff_of_tidy (tidy_recordExistsScript ..) (plainCode_recordExistsScript ..)]
  have hsmart : ¬NoSmartQuotes
      (recordExistsScript (lit "dns1") (lit "example.com") injected (lit "Txt")) := by decide
  exact fun hsafe => hsafe.elim (fun hboth => hsmart hboth.2)
    fun hascii => hsmart (noSmartQuotes_of_ascii hascii)

/-- A pattern without a typographic quote; the second byte of each U+00D2 is one in the
code page. -/
def stagedInjected : Str := lit "\u00D2; calc; \u00D2"

/-- The pattern reaches the script of a listing, which is not read as it is meant. -/
theorem not_readAsMeant_stagedInjected :
    ¬ReadAsMeant (listRecordsScript Ucd.ascii (lit "dns1") (lit "example.com")
        (some stagedInjected) none 100) ∧
      (∀ c ∈ stagedInjected, c ∉ smartQuotes) ∧
      scriptText (Utf8.encode (psSingleQuoted stagedInjected)) =
        lit "'\u00C3\u2019; calc; \u00C3\u2019'" := by
  refine ⟨?_, by decide, by decide +kernel⟩
  rw [readAsMeant_iff_of_tidy (tidy_listRecordsScript ..) (plainCode_listRecordsScript ..)]
  have hstrings : ¬AsciiStrings (listRecordsScript Ucd.ascii (lit "dns1") (lit "example.com")
      (some stagedInjected) none 100) := by
    decide +kernel
  exact fun hsafe => hsafe.elim
    (fun hboth => not_goesDirectly_listRecords Ucd.ascii _ _ _ _ _ hboth.1) hstrings

end ApiToDns.Microsoft
