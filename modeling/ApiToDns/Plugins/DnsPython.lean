import ApiToDns.Hostnames
import ApiToDns.Lib.MasterFile
import ApiToDns.Plugins.Bind

/-!
# Plugins.DnsPython

What is assumed of dnspython where the values of records are concerned, and
a small dnspython that has it: `plain` parses and prints names without
escapes in their text, and the record types the program writes.
-/

namespace ApiToDns.Bind

open Py

variable (U : Ucd)

namespace DnsPython

/-- The octets of a name on the wire. -/
def wireLength (name : Name) : Nat := (name.map fun l => l.length + 1).sum + 1

/-- The text of a TXT record is read by the grammar of master files. -/
def ParsesTxt (d : DnsPython) : Prop :=
  ∀ text origin, (d.rdataFromText .txt text origin).toOption =
    (MasterFile.txtStrings U.decimal text).map Rdata.txt

/-- Host names are parsed and printed as in master files: a name without a
final dot is completed with the origin. -/
structure ParsesHosts (d : DnsPython) : Prop where
  name : ∀ {labels}, IsHost labels → ∀ origin,
    (d.nameFromText (hostText labels) origin).toOption =
      if wireLength (labels ++ origin) ≤ 255 then some (labels ++ origin) else none
  target : ∀ {rt labels}, rt = .cname ∨ rt = .ns ∨ rt = .ptr → IsHost labels → ∀ origin,
    (d.rdataFromText rt (hostText labels) origin).toOption =
      (d.nameFromText (hostText labels) origin).toOption.map Rdata.target
  mx : ∀ {preference labels}, preference ≤ 65535 → IsHost labels → ∀ origin,
    (d.rdataFromText .mx (mxText preference labels) origin).toOption =
      (d.nameFromText (hostText labels) origin).toOption.map (Rdata.mx preference)
  srv : ∀ {priority weight port labels}, priority ≤ 65535 → weight ≤ 65535 → port ≤ 65535 →
    IsHost labels → ∀ origin,
    (d.rdataFromText .srv (srvText priority weight port labels) origin).toOption =
      (d.nameFromText (hostText labels) origin).toOption.map (Rdata.srv priority weight port)
  print : ∀ {labels}, IsHost labels → d.nameToText labels = hostText labels
  print_printable : ∀ name, '\n' ∉ d.nameToText name

/-! ## a small dnspython -/

namespace Plain

/-- A parse that raised. -/
def raised (text : String) : Except Exc α := .error (.other (lit text))

/-- Labels in front of an origin, if they make a name. -/
def complete (labels : List Label) (origin : Name) : Except Exc Name :=
  if [] ∈ labels then raised "EmptyLabel"
  else if labels.any (fun l => 63 < l.length) then raised "LabelTooLong"
  else if wireLength (labels ++ origin) ≤ 255 then .ok (labels ++ origin)
  else raised "NameTooLong"

/-- A name without escapes. -/
def nameFromText (text : Str) (origin : Name) : Except Exc Name :=
  if text = [] ∨ text = ['@'] then .ok origin
  else if text = ['.'] then .ok root
  else
    let labels := text.splitOn '.'
    if labels.getLast? = some [] then complete labels.dropLast root else complete labels origin

/-- A character of a label. -/
def printChar (c : Char) : Str :=
  if c ∈ ['"', '(', ')', '.', ';', '\\', '@', '$'] then ['\\', c]
  else if 0x20 < c.toNat ∧ c.toNat < 0x7F then [c]
  else
    '\\' :: [c.toNat / 100, c.toNat / 10 % 10, c.toNat % 10].map fun n => Char.ofNat (48 + n % 10)

/-- A name without its final dot. -/
def nameToText (name : Name) : Str :=
  if name = [] then ['.'] else hostText (name.map fun l => l.flatMap printChar)

/-- A field that is a name. -/
def nameField (token : MasterFile.Token) (origin : Name) : Except Exc Name :=
  if token.quoted then raised "SyntaxError" else nameFromText token.raw origin

/-- A field that is a number. -/
def numberField (token : MasterFile.Token) (maximum : Nat) : Except Exc Nat :=
  match MasterFile.number U.decimal token.raw with
  | some n => if token.quoted ∨ maximum < n then raised "SyntaxError" else .ok n
  | none => raised "SyntaxError"

/-- The data of a record, by its tokens. -/
def rdataOfTokens (origin : Name) : RecordType → List MasterFile.Token → Except Exc Rdata
  | .a, [t] | .aaaa, [t] =>
      match IpAddress.parse t.raw with
      | some address => .ok (.address address.format)
      | none => raised "SyntaxError"
  | .cname, [t] | .ns, [t] | .ptr, [t] => do
      let name ← nameField t origin
      return .target name
  | .mx, [p, t] => do
      let preference ← numberField U p 65535
      let exchange ← nameField t origin
      return .mx preference exchange
  | .srv, [p, w, o, t] => do
      let priority ← numberField U p 65535
      let weight ← numberField U w 65535
      let port ← numberField U o 65535
      let target ← nameField t origin
      return .srv priority weight port target
  | .caa, [f, t, v] => do
      let flags ← numberField U f 255
      match t.text U.decimal, v.text U.decimal with
      | some tag, some value => return .caa flags (Utf8.encode tag) (Utf8.encode value)
      | _, _ => raised "SyntaxError"
  | _, _ => raised "SyntaxError"

/-- The data of a record, by its text. -/
def rdataFromText (rt : RecordType) (text : Str) (origin : Name) : Except Exc Rdata :=
  if rt = .txt then
    match MasterFile.txtStrings U.decimal text with
    | some strings => .ok (.txt strings)
    | none => raised "SyntaxError"
  else
    match MasterFile.tokens text with
    | some ts => rdataOfTokens U origin rt ts
    | none => raised "SyntaxError"

end Plain

/-- A dnspython without escapes in names, IDNA and generic record data. -/
def plain : DnsPython where
  nameFromText := Plain.nameFromText
  nameToText := Plain.nameToText
  rdataFromText := Plain.rdataFromText U
  rcodeToText rcode := natStr rcode

/-- The plain reader parses texts. -/
theorem plain_parsesTxt : (plain U).ParsesTxt U := by
  intro text origin
  show (Plain.rdataFromText U .txt text origin).toOption = _
  rw [Plain.rdataFromText, if_pos rfl]
  cases MasterFile.txtStrings U.decimal text with
  | some strings => rfl
  | none => rfl

/-- A name is split into its labels. -/
theorem splitOn_hostText {labels : List Str} (hne : labels ≠ [])
    (h : ∀ l ∈ labels, IsHostLabel l) : (hostText labels).splitOn '.' = labels := by
  rw [List.splitOn_eq_splitOnP]
  have hdot {l : Str} (hl : IsHostLabel l) : ∀ c ∈ l, (c == '.') = false := by
    intro c hc
    rw [beq_eq_false_iff_ne]
    intro heq
    have hhost := hl.host c hc
    rw [heq] at hhost
    exact absurd hhost (by decide)
  induction labels with
  | nil => contradiction
  | cons l ls ih =>
      obtain ⟨hl, hls⟩ := List.forall_mem_cons.mp h
      cases ls with
      | nil => rw [hostText_singleton, List.splitOnP_eq_singleton (hdot hl)]
      | cons l' ls =>
          rw [hostText_cons_cons, List.splitOnP_append_cons_of_forall_mem (hdot hl) '.' rfl,
            ih (by simp) hls]

/-- A name is completed if it is not too long. -/
theorem complete_host {labels : List Str} (h : IsHost labels) (origin : Name) :
    (Plain.complete labels origin).toOption =
      if wireLength (labels ++ origin) ≤ 255 then some (labels ++ origin) else none := by
  have hnil : [] ∉ labels := fun hmem => (h.label [] hmem).ne_nil rfl
  have hlong : labels.any (fun l => 63 < l.length) = false := by
    rw [List.any_eq_false]
    intro l hl
    have := (h.label l hl).length_le
    simpa using this
  unfold Plain.complete
  by_cases hwire : wireLength (labels ++ origin) ≤ 255
  · simp [hnil, hlong, hwire, Except.toOption]
  · simp [hnil, hlong, hwire, Except.toOption, Plain.raised]

/-- A name is read as its labels. -/
theorem nameFromText_host {labels : List Str} (h : IsHost labels) (origin : Name) :
    Plain.nameFromText (hostText labels) origin = Plain.complete labels origin := by
  obtain ⟨c, hlast, hc⟩ := getLast?_hostText h.ne_nil h.label
  have hat : hostText labels ≠ ['@'] := by
    intro heq
    rw [heq, List.getLast?_singleton, Option.some.injEq] at hlast
    rw [← hlast] at hc
    exact absurd hc (by decide)
  have hdot : hostText labels ≠ ['.'] := by
    intro heq
    rw [heq, List.getLast?_singleton, Option.some.injEq] at hlast
    rw [← hlast] at hc
    exact absurd hc (by decide)
  have hend : labels.getLast? ≠ some [] :=
    fun heq => (h.label [] (List.mem_of_getLast? heq)).ne_nil rfl
  unfold Plain.nameFromText
  simp only [h.text_ne_nil, hat, hdot, or_self, if_false, splitOn_hostText h.ne_nil h.label, hend]

/-- Host characters are not special. -/
theorem not_isSpecial_of_isHostChar {c : Char} (h : c = '.' ∨ isHostChar c = true) :
    MasterFile.isSpecial c = false := by
  rw [Bool.eq_false_iff]
  intro hspecial
  have hmem := MasterFile.mem_of_isSpecial hspecial
  have hall : ∀ c ∈ [' ', '\t', '\n', ';', '(', ')', '"', '\\'], ¬(c = '.' ∨ isHostChar c = true) :=
    forall_mem_of_all (by decide)
  exact hall c hmem h

/-- Nothing in a name is special. -/
theorem isSpecial_hostText {labels : List Str} (h : IsHost labels) :
    ∀ c ∈ hostText labels, MasterFile.isSpecial c = false := fun _ hc =>
  not_isSpecial_of_isHostChar (isHostChar_of_mem_hostText h.label hc)

/-- Nothing in a number is special. -/
theorem isSpecial_natStr {n : Nat} : ∀ c ∈ natStr n, MasterFile.isSpecial c = false := by
  intro c hc
  have hrange := toNat_of_isDigit (mem_natStr hc)
  rw [Bool.eq_false_iff]
  intro hspecial
  have hall : ∀ c ∈ [' ', '\t', '\n', ';', '(', ')', '"', '\\'], ¬(48 ≤ c.toNat ∧ c.toNat ≤ 57) :=
    forall_mem_of_all (by decide)
  exact hall c (MasterFile.mem_of_isSpecial hspecial) hrange

/-- A name is one token. -/
theorem tokens_hostText {labels : List Str} (h : IsHost labels) :
    MasterFile.tokens (hostText labels) = some [⟨hostText labels, false⟩] :=
  MasterFile.tokens_plain h.text_ne_nil (isSpecial_hostText h)

/-- A number is the first token. -/
theorem tokens_natStr_cons (n : Nat) (rest : Str) :
    MasterFile.tokens (natStr n ++ [' '] ++ rest) =
      (MasterFile.tokens rest).map (⟨natStr n, false⟩ :: ·) :=
  MasterFile.tokens_cons (natStr_ne_nil n) isSpecial_natStr rest

/-- A number in range is read. -/
theorem numberField_natStr {n maximum : Nat} (h : n ≤ maximum) :
    Plain.numberField U ⟨natStr n, false⟩ maximum = .ok n := by
  have hnumber := MasterFile.number_natStr U.decimal (fun c hc => U.decimal_of_isDigit hc) n
  unfold Plain.numberField
  simp [hnumber, Nat.not_lt.mpr h]

/-- Host characters are printed as they are. -/
theorem printChar_host {c : Char} (h : isHostChar c = true) : Plain.printChar c = [c] := by
  have hrange := toNat_of_isHostChar h
  have hall : ∀ c ∈ ['"', '(', ')', '.', ';', '\\', '@', '$'], isHostChar c ≠ true :=
    forall_mem_of_all (by decide)
  have hmem : c ∉ ['"', '(', ')', '.', ';', '\\', '@', '$'] := fun hmem => hall c hmem h
  rw [Plain.printChar, if_neg hmem, if_pos (by omega)]

/-- No character is printed with a newline. -/
theorem newline_not_mem_printChar (c : Char) : '\n' ∉ Plain.printChar c := by
  have hdigit : ∀ n < 10, '\n' ≠ Char.ofNat (48 + n) := by decide
  unfold Plain.printChar
  split_ifs with hmem hrange
  · have hall : ∀ c ∈ ['"', '(', ')', '.', ';', '\\', '@', '$'], '\n' ∉ ['\\', c] :=
      forall_mem_of_all (by decide)
    exact hall c hmem
  · intro h
    rw [← List.mem_singleton.mp h] at hrange
    exact absurd hrange (by decide)
  · intro h
    cases List.mem_cons.mp h with
    | inl h => exact absurd h (by decide)
    | inr h =>
        obtain ⟨n, -, hn⟩ := List.mem_map.mp h
        exact hdigit (n % 10) (Nat.mod_lt _ (by decide)) hn.symm

/-- The plain reader parses names. -/
theorem plain_parsesHosts : (plain U).ParsesHosts where
  name h origin := by
    show (Plain.nameFromText _ origin).toOption = _
    rw [nameFromText_host h, complete_host h]
  target hrt h origin := by
    show (Plain.rdataFromText U _ _ origin).toOption = (Plain.nameFromText _ origin).toOption.map _
    rcases hrt with hrt | hrt | hrt
    all_goals
      rw [hrt, Plain.rdataFromText, if_neg (by decide), tokens_hostText h]
      simp only [Plain.rdataOfTokens, Plain.nameField]
      cases Plain.nameFromText (hostText _) origin with
      | ok name => rfl
      | error e => rfl
  mx {preference labels} hp h origin := by
    show (Plain.rdataFromText U .mx (mxText preference labels) origin).toOption =
      (Plain.nameFromText (hostText labels) origin).toOption.map (Rdata.mx preference)
    rw [Plain.rdataFromText, if_neg (by decide), mxText, tokens_natStr_cons, tokens_hostText h]
    simp only [Option.map_some, Plain.rdataOfTokens, numberField_natStr U hp, ok_bind,
      Plain.nameField]
    cases Plain.nameFromText (hostText _) origin with
    | ok name => rfl
    | error e => rfl
  srv {priority weight port labels} hp hw ho h origin := by
    show (Plain.rdataFromText U .srv (srvText priority weight port labels) origin).toOption =
      (Plain.nameFromText (hostText labels) origin).toOption.map (Rdata.srv priority weight port)
    rw [Plain.rdataFromText, if_neg (by decide), srvText_eq, tokens_natStr_cons, tokens_natStr_cons,
      mxText, tokens_natStr_cons, tokens_hostText h]
    simp only [Option.map_some, Plain.rdataOfTokens, numberField_natStr U hp,
      numberField_natStr U hw, numberField_natStr U ho, ok_bind, Plain.nameField]
    cases Plain.nameFromText (hostText _) origin with
    | ok name => rfl
    | error e => rfl
  print {labels} h := by
    have hlabel : ∀ l ∈ labels, l.flatMap Plain.printChar = l := by
      intro l hl
      have hhost : ∀ c ∈ l, Plain.printChar c = [c] := fun c hc =>
        printChar_host ((h.label l hl).host c hc)
      rw [List.flatMap_def, List.map_congr_left hhost, ← List.flatMap_def, List.flatMap_singleton']
    show Plain.nameToText labels = _
    rw [Plain.nameToText, if_neg h.ne_nil, List.map_congr_left hlabel, List.map_id']
  print_printable name := by
    show '\n' ∉ Plain.nameToText name
    unfold Plain.nameToText
    split_ifs with hname
    · decide
    · intro hmem
      cases mem_hostText hmem with
      | inl hdot => exact absurd hdot (by decide)
      | inr hlabel =>
          obtain ⟨l, hl, hmem⟩ := hlabel
          obtain ⟨l', -, hl'⟩ := List.mem_map.mp hl
          rw [← hl', List.mem_flatMap] at hmem
          obtain ⟨c, -, hc⟩ := hmem
          exact newline_not_mem_printChar c hc

end DnsPython

end ApiToDns.Bind
