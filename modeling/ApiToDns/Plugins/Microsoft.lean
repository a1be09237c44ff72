import ApiToDns.Lib.Quoting
import ApiToDns.Plugins.Utils
import ApiToDns.Schemas

/-!
# Plugins.Microsoft

The PowerShell scripts the Microsoft plugin sends over WinRM
(`plugins/microsoft.py`), as lists of pieces: the text the plugin wrote, and
the strings it passed through `ps_single_quoted`.

`psQuoting` is what PowerShell takes for a quote.  Only U+0027 is doubled, so
the text of a script is read as it was meant exactly when none of the strings
has one of the four typographic quotes (`tokens_source_iff`).
-/

namespace ApiToDns.Microsoft

open Py Quoting

variable (U : Ucd)

/-! ## the scripts -/

/-- A script, or a part of one. -/
abbrev Script := List (Piece Char)

/-- Text of the plugin's own. -/
def code (s : String) : Piece Char := .code (lit s)

/-- A string passed through `ps_single_quoted`. -/
def quoted (s : Str) : Piece Char := .quoted s

/-- A line of the plugin's own. -/
def textLine (s : String) : Script := [code s]

/-- A number the plugin formats. -/
def number (i : Int) : Piece Char := .code (intStr i)

/-- `"\n".join(lines)`. -/
def joinLines (lines : List Script) : Script := [code "\n"].intercalate lines

/-- The text of a script. -/
def source : Script → Str
  | [] => []
  | .code t :: ps => t ++ source ps
  | .quoted s :: ps => psSingleQuoted s ++ source ps

/-- The strings a script quotes. -/
def strings : Script → List Str
  | [] => []
  | .code _ :: ps => strings ps
  | .quoted s :: ps => s :: strings ps

/-- The check both `dns_server` and `dns_zone` go through; the zone it leaves. -/
def checkedZone (dnsServer dnsZone : Str) : Except Exc Str :=
  if dnsServer = [] then
    .error (.valueError
      (lit "DNS server host is required for Microsoft DNS (set Target DNS Server to the DNS/DC WinRM endpoint)."))
  else
    let zone := strip dnsZone
    if zone = [] then
      .error (.valueError (lit "DNS zone (domain) is required in the zone configuration."))
    else .ok zone

/-- The first lines of a script that writes. -/
def header (server zone name : Str) : List Script :=
  [[code "$ErrorActionPreference = 'Stop'"],
    [code "$ComputerName = ", quoted server],
    [code "$ZoneName = ", quoted zone],
    [code "$Name = ", quoted name]]

/-- The line that removes what there is. -/
def removeLine (psRr : Str) : Script :=
  [code "Get-DnsServerResourceRecord -ComputerName $ComputerName -ZoneName $ZoneName ",
    code "-Name $Name -RRType ", quoted psRr, code " -ErrorAction SilentlyContinue | ",
    code "Remove-DnsServerResourceRecord -ComputerName $ComputerName -ZoneName $ZoneName -Force"]

/-- The script of a DELETE. -/
def deleteScript (server zone name psRr : Str) : Script :=
  joinLines (header server zone name ++
    [[code "Import-Module DnsServer -ErrorAction Stop"], removeLine psRr])

/-- A line that adds a record. -/
def addLine (cmdlet : String) (arguments : Script) : Script :=
  [code cmdlet, code " -ComputerName $ComputerName -ZoneName $ZoneName -Name $Name "] ++
    arguments ++ [code " -TimeToLive (New-TimeSpan -Seconds $TtlSeconds)"]

/-- A line for each value, quoted as the only argument. -/
def addEach (cmdlet parameter : String) (values : List Str) : List Script :=
  values.map fun v => addLine cmdlet [code parameter, quoted v]

/-- `_add_record_lines`. -/
def addRecordLines (rt : RecordType) (values : List Str) : Except Exc (List Script) :=
  match rt with
  | .a => .ok (addEach "Add-DnsServerResourceRecordA" "-IPv4Address " values)
  | .aaaa => .ok (addEach "Add-DnsServerResourceRecordAAAA" "-IPv6Address " values)
  | .cname =>
      match values with
      | [] => .error (.other (lit "list index out of range"))
      | v :: _ => .ok (addEach "Add-DnsServerResourceRecordCName" "-HostNameAlias " [v])
  | .txt => .ok (addEach "Add-DnsServerResourceRecordTxt" "-DescriptiveText " values)
  | .ns => .ok (addEach "Add-DnsServerResourceRecord" "-NS -NameServer " values)
  | .ptr => .ok (addEach "Add-DnsServerResourceRecordPtr" "-PtrDomainName " values)
  | .mx => values.mapM fun v => do
      let (priority, exchange) ← parseMx U v
      return addLine "Add-DnsServerResourceRecordMX"
        [code "-MailExchange ", quoted exchange, code " -Preference ", number priority]
  | .srv => values.mapM fun v => do
      let (priority, weight, port, target) ← parseSrv U v
      return addLine "Add-DnsServerResourceRecord"
        [code "-Srv -DomainName ", quoted target, code " -Priority ", number priority,
          code " -Weight ", number weight, code " -Port ", number port]
  | .caa => values.mapM fun v => do
      let (flags, tag, caaValue) ← parseCaa U v
      let bare :=
        if startsWith caaValue ['"'] && endsWith caaValue ['"'] && 2 ≤ caaValue.length then
          dropEnd (caaValue.drop 1) 1
        else caaValue
      return addLine "Add-DnsServerResourceRecord"
        [code "-Caa -CaaFlags ", number flags, code " -CaaTag ", quoted tag, code " -CaaValue ",
          quoted bare]
  | .soa => .error (.valueError (lit "Unsupported record type for Microsoft WinRM: " ++ rt.text))

/-- The script of a change that is no DELETE. -/
def updateScript (server zone name : Str) (rt : RecordType) (ttl : Int) (values : List Str) :
    Except Exc Script := do
  let lines ← addRecordLines U rt values
  return joinLines (header server zone name ++
    [[code "$TtlSeconds = ", number ttl], [code "Import-Module DnsServer -ErrorAction Stop"],
      removeLine (winrmRrType U rt.text)] ++ lines)

/-- The script of `_record_exists`. -/
def recordExistsScript (server zone name psRr : Str) : Script :=
  [code "Import-Module DnsServer -ErrorAction SilentlyContinue; $r = Get-DnsServerResourceRecord ",
   code "-ComputerName ", quoted server, code " -ZoneName ", quoted zone,
   code " -Name ", quoted name, code " -RRType ", quoted psRr,
   code " -ErrorAction SilentlyContinue; if ($r) \x7b 'yes' \x7d else \x7b 'no' \x7d"]

/-- What `_get_record_details` does with the records found. -/
def recordDetailsBody : List String := [
  "  'A' \x7b $values = @($records | ForEach-Object \x7b $_.RecordData.IPv4Address.IPAddressToString \x7d) \x7d",
  "  'AAAA' \x7b $values = @($records | ForEach-Object \x7b $_.RecordData.IPv6Address.IPAddressToString \x7d) \x7d",
  "  'CNAME' \x7b $values = @([string]$records[0].RecordData.HostNameAlias) \x7d",
  "  'TXT' \x7b",
  "    foreach ($rec in $records) \x7b",
  "      $text = $rec.RecordData.DescriptiveText",
  "      if ($text -is [System.Array]) \x7b $values += [string]::Join('', $text) \x7d",
  "      else \x7b $values += [string]$text \x7d",
  "    \x7d",
  "  \x7d",
  "  'MX' \x7b",
  "    foreach ($rec in $records) \x7b",
  "      $values += ('\x7b0\x7d \x7b1\x7d' -f [int]$rec.RecordData.Preference, [string]$rec.RecordData.MailExchange)",
  "    \x7d",
  "  \x7d",
  "  'NS' \x7b $values = @($records | ForEach-Object \x7b [string]$_.RecordData.NameServer \x7d) \x7d",
  "  'SRV' \x7b",
  "    foreach ($rec in $records) \x7b",
  "      $values += ('\x7b0\x7d \x7b1\x7d \x7b2\x7d \x7b3\x7d' -f [int]$rec.RecordData.Priority, [int]$rec.RecordData.Weight, [int]$rec.RecordData.Port, [string]$rec.RecordData.DomainName)",
  "    \x7d",
  "  \x7d",
  "  'CAA' \x7b",
  "    foreach ($rec in $records) \x7b",
  "      $values += ('\x7b0\x7d \x7b1\x7d \x7b2\x7d' -f [int]$rec.RecordData.Flags, [string]$rec.RecordData.Tag, [string]$rec.RecordData.Value)",
  "    \x7d",
  "  \x7d",
  "  'PTR' \x7b $values = @($records | ForEach-Object \x7b [string]$_.RecordData.PtrDomainName \x7d) \x7d",
  "  'SOA' \x7b",
  "    $soa = $records[0].RecordData",
  "    $values = @(('\x7b0\x7d \x7b1\x7d \x7b2\x7d \x7b3\x7d \x7b4\x7d \x7b5\x7d \x7b6\x7d' -f [string]$soa.PrimaryServer, [string]$soa.ResponsiblePerson, [uint64]$soa.SerialNumber, [int]$soa.RefreshInterval.TotalSeconds, [int]$soa.RetryDelay.TotalSeconds, [int]$soa.ExpireLimit.TotalSeconds, [int]$soa.MinimumTimeToLive.TotalSeconds))",
  "  \x7d",
  "\x7d",
  "@\x7b ttl = $ttl; values = @($values) \x7d | ConvertTo-Json -Compress"]

/-- The script of `_get_record_details`. -/
def recordDetailsScript (server zone name : Str) (rt : RecordType) : Script :=
  joinLines ([
    [code "Import-Module DnsServer -ErrorAction SilentlyContinue"],
    [code "$records = @(Get-DnsServerResourceRecord -ComputerName ", quoted server,
      code " -ZoneName ", quoted zone, code " -Name ", quoted name, code " -RRType ",
      quoted (winrmRrType U rt.text), code " -ErrorAction SilentlyContinue)"],
    [code "if ($records.Count -eq 0) \x7b exit 0 \x7d"],
    [code "$ttl = [int]$records[0].TimeToLive.TotalSeconds"],
    [code "$values = @()"],
    [code "switch ('", .code rt.text, code "') \x7b"]] ++
    recordDetailsBody.map textLine ++ [[]])

/-- What `list_records` does before it asks for records. -/
def listRecordsSetup : List String := [
  "$AllowedTypes = @('A', 'AAAA', 'CNAME', 'TXT', 'MX', 'NS', 'SRV', 'CAA', 'PTR', 'SOA')",
  "$ZoneBase = $ZoneName.TrimEnd('.')",
  "$ZoneSuffix = '.' + $ZoneBase",
  "Import-Module DnsServer -ErrorAction Stop",
  "$bucket = @\x7b\x7d",
  "$order = New-Object System.Collections.ArrayList",
  "$truncated = $false"]

/-- What `list_records` does with each record, and with all of them. -/
def listRecordsBody : List String := [
  "  $rec = $_",
  "  $owner = ([string]$rec.HostName).TrimEnd('.')",
  "  if ($owner.Equals($ZoneBase, [System.StringComparison]::OrdinalIgnoreCase)) \x7b $relative = '@' \x7d",
  "  elseif ($owner.EndsWith($ZoneSuffix, [System.StringComparison]::OrdinalIgnoreCase)) \x7b $relative = $owner.Substring(0, $owner.Length - $ZoneSuffix.Length) \x7d",
  "  else \x7b $relative = $owner \x7d",
  "  if ($relative -notlike $NamePattern) \x7b return \x7d",
  "  $apiType = [string]$rec.RecordType",
  "  if ($RecordType) \x7b",
  "    if ($apiType -ine $RecordType) \x7b return \x7d",
  "  \x7d elseif ($apiType -notin $AllowedTypes) \x7b",
  "    return",
  "  \x7d",
  "  $key = ($relative + '|' + $apiType)",
  "  if (-not $bucket.ContainsKey($key)) \x7b",
  "    if ($order.Count -ge $Limit) \x7b $truncated = $true; return \x7d",
  "    [void]$order.Add($key)",
  "    $bucket[$key] = New-Object System.Collections.ArrayList",
  "  \x7d",
  "  [void]$bucket[$key].Add($rec)",
  "\x7d",
  "$keys = @($order.ToArray())",
  "$output = @(foreach ($key in $keys) \x7b",
  "  $group = @($bucket[$key].ToArray())",
  "  $first = $group[0]",
  "  $relative = ($key -split '\\|', 2)[0]",
  "  $values = @()",
  "  switch ([string]$first.RecordType) \x7b",
  "    'A' \x7b $values = @($group | ForEach-Object \x7b $_.RecordData.IPv4Address.IPAddressToString \x7d) \x7d",
  "    'AAAA' \x7b $values = @($group | ForEach-Object \x7b $_.RecordData.IPv6Address.IPAddressToString \x7d) \x7d",
  "    'CNAME' \x7b $values = @([string]$first.RecordData.HostNameAlias) \x7d",
  "    'TXT' \x7b",
  "      foreach ($item in $group) \x7b",
  "        $text = $item.RecordData.DescriptiveText",
  "        if ($text -is [System.Array]) \x7b $values += [string]::Join('', $text) \x7d",
  "        else \x7b $values += [string]$text \x7d",
  "      \x7d",
  "    \x7d",
  "    'MX' \x7b",
  "      foreach ($item in $group) \x7b",
  "        $values += ('\x7b0\x7d \x7b1\x7d' -f [int]$item.RecordData.Preference, [string]$item.RecordData.MailExchange)",
  "      \x7d",
  "    \x7d",
  "    'NS' \x7b $values = @($group | ForEach-Object \x7b [string]$_.RecordData.NameServer \x7d) \x7d",
  "    'SRV' \x7b",
  "      foreach ($item in $group) \x7b",
  "        $values += ('\x7b0\x7d \x7b1\x7d \x7b2\x7d \x7b3\x7d' -f [int]$item.RecordData.Priority, [int]$item.RecordData.Weight, [int]$item.RecordData.Port, [string]$item.RecordData.DomainName)",
  "      \x7d",
  "    \x7d",
  "    'CAA' \x7b",
  "      foreach ($item in $group) \x7b",
  "        $values += ('\x7b0\x7d \x7b1\x7d \x7b2\x7d' -f [int]$item.RecordData.Flags, [string]$item.RecordData.Tag, [string]$item.RecordData.Value)",
  "      \x7d",
  "    \x7d",
  "    'PTR' \x7b $values = @($group | ForEach-Object \x7b [string]$_.RecordData.PtrDomainName \x7d) \x7d",
  "    'SOA' \x7b",
  "      $soa = $first.RecordData",
  "      $values = @(('\x7b0\x7d \x7b1\x7d \x7b2\x7d \x7b3\x7d \x7b4\x7d \x7b5\x7d \x7b6\x7d' -f [string]$soa.PrimaryServer, [string]$soa.ResponsiblePerson, [uint64]$soa.SerialNumber, [int]$soa.RefreshInterval.TotalSeconds, [int]$soa.RetryDelay.TotalSeconds, [int]$soa.ExpireLimit.TotalSeconds, [int]$soa.MinimumTimeToLive.TotalSeconds))",
  "    \x7d",
  "  \x7d",
  "  [pscustomobject]@\x7b",
  "    record_name = [string]$relative",
  "    record_type = [string]$first.RecordType",
  "    ttl = [int]$first.TimeToLive.TotalSeconds",
  "    values = @($values)",
  "  \x7d",
  "\x7d)",
  "[pscustomobject]@\x7b records = @($output); truncated = [bool]$truncated \x7d | ConvertTo-Json -Compress -Depth 5"]

/-- The script of `list_records`. -/
def listRecordsScript (server zone : Str) (namePattern recordType : Option Str) (limit : Int) :
    Script :=
  let pattern := if namePattern.getD [] = [] then ['*'] else namePattern.getD []
  let requestedType := U.upper (recordType.getD [])
  let rrType := if requestedType = [] then [] else winrmRrType U requestedType
  let rrTypeArg := if requestedType = [] then [] else [code " -RRType ", quoted rrType]
  joinLines ([
    [code "$ErrorActionPreference = 'Stop'"],
    [code "$ComputerName = ", quoted server],
    [code "$ZoneName = ", quoted zone],
    [code "$NamePattern = ", quoted pattern],
    [code "$RecordType = ", quoted rrType],
    [code "$Limit = ", number (max 1 limit)]] ++
    listRecordsSetup.map textLine ++
    [[code "Get-DnsServerResourceRecord -ComputerName $ComputerName -ZoneName $ZoneName"] ++
      rrTypeArg ++ [code " -ErrorAction Stop | ForEach-Object \x7b"]] ++
    listRecordsBody.map textLine)

/-- The calls of the client that build a script. -/
inductive ScriptCall where
  | recordExists (recordName : Str) (rt : RecordType)
  | delete (recordName : Str) (inner : RecordType)
  | update (recordName : Str) (rt : RecordType) (ttl : Option Int) (values : List Str)
  | recordDetails (recordName : Str) (rt : RecordType)
  | listRecords (namePattern recordType : Option Str) (limit : Int)

/-- The type, if the plugin changes it. -/
def mutableType (rt : RecordType) : Except Exc RecordType :=
  if rt.isMutable then .ok rt
  else .error (.valueError (lit "Unsupported record type for Microsoft WinRM: " ++ rt.text))

/-- The script a call builds. -/
def ScriptCall.script (dnsServer dnsZone : Str) : ScriptCall → Except Exc Script
  | recordExists recordName rt => do
      let zone ← checkedZone dnsServer dnsZone
      let name := dnsRelativeName U zone recordName
      return recordExistsScript dnsServer zone name (winrmRrType U rt.text)
  | delete recordName inner => do
      let zone ← checkedZone dnsServer dnsZone
      let name := dnsRelativeName U zone recordName
      let inner ← mutableType inner
      return deleteScript dnsServer zone name (winrmRrType U inner.text)
  | update recordName rt ttl values => do
      let zone ← checkedZone dnsServer dnsZone
      let seconds := if ttl.getD 0 = 0 then 300 else ttl.getD 0
      let name := dnsRelativeName U zone recordName
      let rt ← mutableType rt
      let values ← normalizeRecordValues U rt values
      updateScript U dnsServer zone name rt seconds values
  | recordDetails recordName rt => do
      let zone ← checkedZone dnsServer dnsZone
      let name := dnsRelativeName U zone recordName
      return recordDetailsScript U dnsServer zone name rt
  | listRecords namePattern recordType limit => do
      let zone ← checkedZone dnsServer dnsZone
      return listRecordsScript U dnsServer zone namePattern recordType limit

/-! ## how PowerShell reads a script -/

/-- The typographic single quotes, which PowerShell takes for U+0027. -/
def smartQuotes : Str := ['\u2018', '\u2019', '\u201A', '\u201B']

/-- What PowerShell takes for a verbatim literal.  A double quote, a backtick
or a `#` in code would begin something else; the plugin writes none. -/
def psQuoting : Quoting Char where
  quote c := c == '\'' || smartQuotes.contains c
  opens c := [' ', '\n', '('].contains c
  closes c := [' ', '\n', ')', ',', ';'].contains c
  foreign c := ['"', '\u201C', '\u201D', '\u201E', '\x60', '#'].contains c

/-- Quoting doubles the apostrophes. -/
theorem psSingleQuoted_eq (s : Str) : psSingleQuoted s = quoteWith '\'' (· == '\'') s := by
  have hdouble (c : Char) :
      (if c = '\'' then ['\'', '\''] else [c]) = if (c == '\'') = true then [c, c] else [c] := by
    by_cases hc : c = '\'' <;> simp [hc]
  simp only [psSingleQuoted, quoteWith, hdouble]

/-- The source of a script is the text of its pieces. -/
theorem source_eq_text (S : Script) : source S = text '\'' (· == '\'') S := by
  induction S with
  | nil => rfl
  | cons p ps ih => cases p <;> simp [source, text, ih, psSingleQuoted_eq]

/-! ## the scripts are tidy -/

/-- Code is followed by the characters of its text. -/
theorem leads_code {s : Str} {r r' : Reading Char} (h : psQuoting.Leads r [.code s] r') :
    psQuoting.Leads r [code (String.ofList s)] r' := by
  rw [code, lit_ofList]
  exact h

/-- A line of code is tidy. -/
theorem tidy_textLine {s : Str} (h : psQuoting.Tidy '\n' [.code s]) :
    psQuoting.Tidy '\n' (textLine (String.ofList s)) := by
  rw [textLine, code, lit_ofList]
  exact h

set_option maxRecDepth 4000 in
/-- So are the lines that show a record. -/
theorem tidy_recordDetailsBody :
    ∀ line ∈ recordDetailsBody.map textLine, psQuoting.Tidy '\n' line := by
  simp only [recordDetailsBody, List.map_cons, List.map_nil, List.forall_mem_cons,
    List.not_mem_nil, false_implies, implies_true, and_true]
  and_intros
  all_goals exact tidy_textLine (by decide)

/-- So are the lines before a listing. -/
theorem tidy_listRecordsSetup :
    ∀ line ∈ listRecordsSetup.map textLine, psQuoting.Tidy '\n' line := by
  simp only [listRecordsSetup, List.map_cons, List.map_nil, List.forall_mem_cons,
    List.not_mem_nil, false_implies, implies_true, and_true]
  and_intros
  all_goals exact tidy_textLine (by decide)

set_option maxRecDepth 4000 in
/-- So are the lines of a listing. -/
theorem tidy_listRecordsBody :
    ∀ line ∈ listRecordsBody.map textLine, psQuoting.Tidy '\n' line := by
  simp only [listRecordsBody, List.map_cons, List.map_nil, List.forall_mem_cons,
    List.not_mem_nil, false_implies, implies_true, and_true]
  and_intros
  all_goals exact tidy_textLine (by decide)

/-- A quoted argument leads to the next. -/
theorem leads_quoted (s : Str) (text : String)
    (htext : psQuoting.Leads (.closing []) [code text] (.code true)) :
    psQuoting.Leads (.code true) [quoted s, code text] (.code true) :=
  have hquoted : psQuoting.Leads (.code true) [quoted s] (.closing []) := rfl
  hquoted.append htext

/-- A line that assigns a string. -/
theorem tidy_assign {text : String} (s : Str)
    (htext : psQuoting.Leads (.code true) [code text] (.code true)) :
    psQuoting.Tidy '\n' [code text, quoted s] :=
  htext.append (leads_quoted s "\n" (leads_code (by decide)))

/-- So is the header. -/
theorem tidy_header (server zone name : Str) :
    ∀ line ∈ header server zone name, psQuoting.Tidy '\n' line := by
  simp only [header, List.forall_mem_cons]
  exact ⟨tidy_textLine (by decide), tidy_assign _ (leads_code (by decide)),
    tidy_assign _ (leads_code (by decide)), tidy_assign _ (leads_code (by decide)),
    by simp⟩

/-- So is the line that removes a record. -/
theorem tidy_removeLine (psRr : Str) : psQuoting.Tidy '\n' (removeLine psRr) :=
  have hblank : psQuoting.Tidy '\n' (removeLine []) := by
    simp only [removeLine, code]
    repeat rw [lit_ofList]
    decide
  hblank.alike rfl

/-- A number stands as plain code. -/
theorem leads_number (opens : Bool) (i : Int) :
    psQuoting.Leads (.code opens) [number i] (.code false) := by
  refine leads_word (intStr_ne_nil i) fun c hc => ?_
  cases mem_intStr hc with
  | inl h =>
      rw [h]
      decide
  | inr h =>
      have hplain {d : Char} (hd : d.isDigit = false) : c ≠ d := by
        rintro rfl
        rw [h] at hd
        contradiction
      simp [psQuoting, smartQuotes, hplain]

/-- What ends a line that adds a record. -/
theorem leads_addLine_end {r : Reading Char} (hr : r = .code false ∨ r = .closing []) :
    psQuoting.Leads r [code " -TimeToLive (New-TimeSpan -Seconds $TtlSeconds)", code "\n"]
      (.code true) := by
  have hlife : psQuoting.Leads r [code " -TimeToLive (New-TimeSpan -Seconds $TtlSeconds)"]
      (.code false) := by
    cases hr with
    | inl hr =>
        rw [hr]
        exact leads_code (by decide)
    | inr hr =>
        rw [hr]
        exact leads_code (by decide)
  have hend : psQuoting.Leads (.code false) [code "\n"] (.code true) :=
    leads_code (by decide)
  exact hlife.append hend

/-- A line that adds a record is tidy if its arguments end in a number or a
literal. -/
theorem tidy_addLine {cmdlet : String} {arguments : Script} {r : Reading Char}
    (hcmdlet : psQuoting.Leads (.code true) [code cmdlet] (.code false))
    (harguments : psQuoting.Leads (.code true) arguments r)
    (hr : r = .code false ∨ r = .closing []) : psQuoting.Tidy '\n' (addLine cmdlet arguments) := by
  have hcommon : psQuoting.Leads (.code false)
      [code " -ComputerName $ComputerName -ZoneName $ZoneName -Name $Name "] (.code true) :=
    leads_code (by decide)
  have hline := (hcmdlet.append hcommon).append (harguments.append (leads_addLine_end hr))
  simpa [Tidy, addLine, code, lit] using hline

/-- So are the lines that add records. -/
theorem tidy_addEach {cmdlet parameter : String} (values : List Str)
    (hcmdlet : psQuoting.Leads (.code true) [code cmdlet] (.code false))
    (hparameter : psQuoting.Leads (.code true) [code parameter] (.code true)) :
    ∀ line ∈ addEach cmdlet parameter values, psQuoting.Tidy '\n' line := by
  intro line hline
  obtain ⟨v, -, hv⟩ := List.mem_map.mp hline
  have hquoted : psQuoting.Leads (.code true) [quoted v] (.closing []) := rfl
  rw [← hv]
  exact tidy_addLine hcmdlet (hparameter.append hquoted) (.inr rfl)

/-- A number leads to the next argument. -/
theorem leads_number_code (i : Int) (text : String)
    (htext : psQuoting.Leads (.code false) [code text] (.code true)) :
    psQuoting.Leads (.code true) [number i, code text] (.code true) :=
  (leads_number true i).append htext

/-- So are those of each type. -/
theorem tidy_addRecordLines {rt : RecordType} {values : List Str} {lines : List Script}
    (h : addRecordLines U rt values = .ok lines) : ∀ line ∈ lines, psQuoting.Tidy '\n' line := by
  cases rt with
  | a | aaaa | txt | ns | ptr =>
      rw [← Except.ok.inj h]
      exact tidy_addEach values (leads_code (by decide)) (leads_code (by decide))
  | cname =>
      cases values with
      | nil => contradiction
      | cons v vs =>
          rw [← Except.ok.inj h]
          exact tidy_addEach [v] (leads_code (by decide)) (leads_code (by decide))
  | soa => contradiction
  | mx =>
      intro line hline
      obtain ⟨v, -, hv⟩ := mem_of_mapM_eq_ok h hline
      obtain ⟨⟨priority, exchange⟩, -, hv⟩ := bind_eq_ok hv
      rw [← Except.ok.inj hv]
      have hname : psQuoting.Leads (.code true) [code "-MailExchange "] (.code true) :=
        leads_code (by decide)
      have hexchange := leads_quoted exchange " -Preference " (leads_code (by decide))
      exact tidy_addLine (leads_code (by decide))
        (hname.append (hexchange.append (leads_number true priority))) (.inl rfl)
  | srv =>
      intro line hline
      obtain ⟨v, -, hv⟩ := mem_of_mapM_eq_ok h hline
      obtain ⟨⟨priority, weight, port, target⟩, -, hv⟩ := bind_eq_ok hv
      rw [← Except.ok.inj hv]
      have hname : psQuoting.Leads (.code true) [code "-Srv -DomainName "] (.code true) :=
        leads_code (by decide)
      have htarget := leads_quoted target " -Priority " (leads_code (by decide))
      have hpriority := leads_number_code priority " -Weight " (leads_code (by decide))
      have hweight := leads_number_code weight " -Port " (leads_code (by decide))
      exact tidy_addLine (leads_code (by decide))
        (hname.append (htarget.append (hpriority.append (hweight.append (leads_number true port)))))
        (.inl rfl)
  | caa =>
      intro line hline
      obtain ⟨v, -, hv⟩ := mem_of_mapM_eq_ok h hline
      obtain ⟨⟨flags, tag, caaValue⟩, -, hv⟩ := bind_eq_ok hv
      rw [← Except.ok.inj hv]
      have hname : psQuoting.Leads (.code true) [code "-Caa -CaaFlags "] (.code true) :=
        leads_code (by decide)
      have hflags := leads_number_code flags " -CaaTag " (leads_code (by decide))
      have htag := leads_quoted tag " -CaaValue " (leads_code (by decide))
      exact tidy_addLine (leads_code (by decide)) (hname.append (hflags.append (htag.append rfl)))
        (.inr rfl)

/-- Tidy lines make a tidy script. -/
theorem tidy_joinLines {lines : List Script} (hne : lines ≠ [])
    (h : ∀ line ∈ lines, psQuoting.Tidy '\n' line) : psQuoting.Tidy '\n' (joinLines lines) :=
  Tidy.intercalate hne h

/-- The script that looks for a record is tidy. -/
theorem tidy_recordExistsScript (server zone name psRr : Str) :
    psQuoting.Tidy '\n' (recordExistsScript server zone name psRr) :=
  have hblank : psQuoting.Tidy '\n' (recordExistsScript [] [] [] []) := by
    simp only [recordExistsScript, code]
    repeat rw [lit_ofList]
    decide
  hblank.alike rfl

/-- The script that deletes a record is tidy. -/
theorem tidy_deleteScript (server zone name psRr : Str) :
    psQuoting.Tidy '\n' (deleteScript server zone name psRr) := by
  refine tidy_joinLines (by simp [header]) ?_
  have himport : psQuoting.Tidy '\n' [code "Import-Module DnsServer -ErrorAction Stop"] :=
    tidy_textLine (by decide)
  simp only [List.forall_mem_append, List.forall_mem_cons]
  exact ⟨tidy_header server zone name, himport, tidy_removeLine psRr, by simp⟩

/-- The script that updates a record is tidy. -/
theorem tidy_updateScript {server zone name : Str} {rt : RecordType} {ttl : Int}
    {values : List Str} {S : Script} (h : updateScript U server zone name rt ttl values = .ok S) :
    psQuoting.Tidy '\n' S := by
  obtain ⟨lines, hlines, hS⟩ := bind_eq_ok h
  rw [← Except.ok.inj hS]
  refine tidy_joinLines (by simp [header]) ?_
  have hset : psQuoting.Leads (.code true) [code "$TtlSeconds = "] (.code true) :=
    leads_code (by decide)
  have hend : psQuoting.Leads (.code false) [code "\n"] (.code true) :=
    leads_code (by decide)
  have hseconds : psQuoting.Tidy '\n' [code "$TtlSeconds = ", number ttl] :=
    hset.append ((leads_number true ttl).append hend)
  have himport : psQuoting.Tidy '\n' [code "Import-Module DnsServer -ErrorAction Stop"] :=
    tidy_textLine (by decide)
  simp only [List.forall_mem_append, List.forall_mem_cons]
  exact ⟨⟨tidy_header server zone name, hseconds, himport, tidy_removeLine _, by simp⟩,
    tidy_addRecordLines U hlines⟩

/-- The script that shows a record is tidy. -/
theorem tidy_recordDetailsScript (server zone name : Str) (rt : RecordType) :
    psQuoting.Tidy '\n' (recordDetailsScript U server zone name rt) := by
  refine tidy_joinLines (by simp) ?_
  have hget (psRr : Str) : psQuoting.Tidy '\n'
      [code "$records = @(Get-DnsServerResourceRecord -ComputerName ", quoted server,
        code " -ZoneName ", quoted zone, code " -Name ", quoted name, code " -RRType ",
        quoted psRr, code " -ErrorAction SilentlyContinue)"] :=
    have hblank : psQuoting.Tidy '\n'
        [code "$records = @(Get-DnsServerResourceRecord -ComputerName ", quoted [],
          code " -ZoneName ", quoted [], code " -Name ", quoted [], code " -RRType ",
          quoted [], code " -ErrorAction SilentlyContinue)"] := by
      simp only [code]
      repeat rw [lit_ofList]
      decide
    hblank.alike rfl
  have hswitch : psQuoting.Tidy '\n' [code "switch ('", .code rt.text, code "') \x7b"] := by
    cases rt <;> decide
  simp only [List.forall_mem_append, List.forall_mem_cons]
  exact ⟨⟨⟨tidy_textLine (by decide), hget _, tidy_textLine (by decide),
    tidy_textLine (by decide), tidy_textLine (by decide), hswitch, by simp⟩, tidy_recordDetailsBody⟩, by decide, by simp⟩

/-- The script that lists records is tidy. -/
theorem tidy_listRecordsScript (server zone : Str) (namePattern recordType : Option Str)
    (limit : Int) :
    psQuoting.Tidy '\n' (listRecordsScript U server zone namePattern recordType limit) := by
  refine tidy_joinLines (by simp) ?_
  have hset : psQuoting.Leads (.code true) [code "$Limit = "] (.code true) :=
    leads_code (by decide)
  have hend : psQuoting.Leads (.code false) [code "\n"] (.code true) :=
    leads_code (by decide)
  have hlimit : psQuoting.Tidy '\n' [code "$Limit = ", number (max 1 limit)] :=
    hset.append ((leads_number true _).append hend)
  have hget {rrTypeArg : Script}
      (harg : rrTypeArg = [] ∨ ∃ rrType, rrTypeArg = [code " -RRType ", quoted rrType]) :
      psQuoting.Tidy '\n'
        ([code "Get-DnsServerResourceRecord -ComputerName $ComputerName -ZoneName $ZoneName"] ++
          rrTypeArg ++ [code " -ErrorAction Stop | ForEach-Object \x7b"]) := by
    cases harg with
    | inl harg =>
        rw [harg]
        simp only [code]
        repeat rw [lit_ofList]
        decide
    | inr harg =>
        obtain ⟨rrType, harg⟩ := harg
        rw [harg]
        have hblank : psQuoting.Tidy '\n'
            ([code "Get-DnsServerResourceRecord -ComputerName $ComputerName -ZoneName $ZoneName"] ++
              [code " -RRType ", quoted []] ++
              [code " -ErrorAction Stop | ForEach-Object \x7b"]) := by
          simp only [code]
          repeat rw [lit_ofList]
          decide
        exact hblank.alike rfl
  simp only [List.forall_mem_append, List.forall_mem_cons]
  refine ⟨⟨⟨⟨tidy_textLine (by decide), tidy_assign _ (leads_code (by decide)),
    tidy_assign _ (leads_code (by decide)), tidy_assign _ (leads_code (by decide)),
    tidy_assign _ (leads_code (by decide)), hlimit, by simp⟩,
    tidy_listRecordsSetup⟩, hget ?_, by simp⟩, tidy_listRecordsBody⟩
  split
  · exact .inl rfl
  · exact .inr ⟨_, rfl⟩

/-- The script of every call is tidy. -/
theorem tidy_script {dnsServer dnsZone : Str} {call : ScriptCall} {S : Script}
    (h : call.script U dnsServer dnsZone = .ok S) : psQuoting.Tidy '\n' S := by
  cases call with
  | recordExists recordName rt =>
      obtain ⟨zone, -, h⟩ := bind_eq_ok h
      rw [← Except.ok.inj h]
      exact tidy_recordExistsScript ..
  | delete recordName inner =>
      obtain ⟨zone, -, h⟩ := bind_eq_ok h
      obtain ⟨inner', -, h⟩ := bind_eq_ok h
      rw [← Except.ok.inj h]
      exact tidy_deleteScript ..
  | update recordName rt ttl values =>
      obtain ⟨zone, -, h⟩ := bind_eq_ok h
      obtain ⟨rt', -, h⟩ := bind_eq_ok h
      obtain ⟨values', -, h⟩ := bind_eq_ok h
      exact tidy_updateScript U h
  | recordDetails recordName rt =>
      obtain ⟨zone, -, h⟩ := bind_eq_ok h
      rw [← Except.ok.inj h]
      exact tidy_recordDetailsScript ..
  | listRecords namePattern recordType limit =>
      obtain ⟨zone, -, h⟩ := bind_eq_ok h
      rw [← Except.ok.inj h]
      exact tidy_listRecordsScript ..

/-! ## scripts are read as they are meant -/

/-- No string of the script has a typographic quote. -/
def NoSmartQuotes (S : Script) : Prop := ∀ s ∈ strings S, ∀ c ∈ s, c ∉ smartQuotes

instance (S : Script) : Decidable (NoSmartQuotes S) :=
  decidable_of_iff ((strings S).all (fun s => s.all fun c => c ∉ smartQuotes) = true)
    (by simp [NoSmartQuotes])

/-- The strings of a script are its quoted pieces. -/
theorem mem_strings_iff (S : Script) (s : Str) : s ∈ strings S ↔ .quoted s ∈ S := by
  induction S with
  | nil => simp [strings]
  | cons p ps ih => cases p <;> simp [strings, ih]

/-- The apostrophe that is doubled is a quote. -/
theorem quote_of_doubled (c : Char) (hc : (c == '\'') = true) : psQuoting.quote c = true := by
  simp [psQuoting, hc]

/-- The text of a script is read as it is meant exactly when it quotes no typographic
quote. -/
theorem tokens_source_iff {S : Script} {ts : List (Token Char)}
    (hts : psQuoting.meant S = some ts) :
    psQuoting.tokens (source S) = some ts ↔ NoSmartQuotes S := by
  have hquote : psQuoting.quote '\'' = true := by decide
  have hsmart (c : Char) :
      (psQuoting.quote c = true → (c == '\'') = true) ↔ c ∉ smartQuotes := by
    by_cases hc : c = '\''
    · rw [hc]
      decide
    · simp [psQuoting, hc]
  rw [source_eq_text, tokens_text_iff hquote quote_of_doubled hts]
  simp only [NoSmartQuotes, mem_strings_iff, hsmart]

end ApiToDns.Microsoft
