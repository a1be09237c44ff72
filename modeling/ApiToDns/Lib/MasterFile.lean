import ApiToDns.Py.Utf8

/-!
# Lib.MasterFile

The text of resource records in master files (zone files): how a line is cut
into tokens, how a token's escapes are read, and the character-strings of a
TXT record.

White space separates tokens, `"` delimits a quoted one, `;` starts a
comment, parentheses let a record span lines, and `\` takes the meaning from
the next character or, as `\DDD`, stands for one octet.  `read` follows the
text by a step function; every step keeps at most the one character it
consumes (`Step.kept_le`), and the first special character of a text is lost
(`readBack_iff`).
-/

namespace MasterFile

open Py

/-! ## tokens -/

/-- A token, its escapes as they are written. -/
structure Token where
  raw : Str
  quoted : Bool
deriving DecidableEq, Repr

/-- Where the reader is. -/
inductive Mode where
  | blank
  | comment
  /-- in a token, of which `raw` is read -/
  | word (raw : Str) (quoted : Bool)
  /-- behind a backslash in a token -/
  | escape (raw : Str) (quoted : Bool)
deriving DecidableEq, Repr

/-- A character that ends an unquoted token. -/
def isDelimiter (c : Char) : Bool := [' ', '\t', '\n', ';', '(', ')', '"'].contains c

/-- What reading a character leads to. -/
inductive Next where
  | go (depth : Nat) (mode : Mode)
  /-- the record ends here -/
  | stop
  | fail
deriving DecidableEq, Repr

/-- A delimiter outside of tokens; `depth` counts the open parentheses. -/
def delimit (depth : Nat) (c : Char) : Next :=
  if c = '\n' then if depth = 0 then .stop else .go depth .blank
  else if c = ';' then .go depth .comment
  else if c = '(' then .go (depth + 1) .blank
  else if c = ')' then if depth = 0 then .fail else .go (depth - 1) .blank
  else if c = '"' then .go depth (.word [] true)
  else .go depth .blank

/-- Read a character: the token it ends, if any, and what follows. -/
def step (depth : Nat) (mode : Mode) (c : Char) : Option Token × Next :=
  match mode with
  | .blank =>
      if isDelimiter c then (none, delimit depth c)
      else if c = '\\' then (none, .go depth (.escape [c] false))
      else (none, .go depth (.word [c] false))
  | .comment =>
      if c = '\n' then (none, delimit depth c) else (none, .go depth .comment)
  | .word raw false =>
      if isDelimiter c then (some ⟨raw, false⟩, delimit depth c)
      else if c = '\\' then (none, .go depth (.escape (raw ++ [c]) false))
      else (none, .go depth (.word (raw ++ [c]) false))
  | .word raw true =>
      if c = '"' then (some ⟨raw, true⟩, .go depth .blank)
      else if c = '\n' then (none, .fail)
      else if c = '\\' then (none, .go depth (.escape (raw ++ [c]) true))
      else (none, .go depth (.word (raw ++ [c]) true))
  | .escape raw quoted =>
      if c = '\n' ∧ quoted = false then (none, .fail)
      else (none, .go depth (.word (raw ++ [c]) quoted))

/-- The tokens at the end of the text. -/
def finish (depth : Nat) (mode : Mode) : Option (List Token) :=
  if depth ≠ 0 then none
  else
    match mode with
    | .blank | .comment => some []
    | .word raw false => some [⟨raw, false⟩]
    | .word _ true | .escape _ _ => none

/-- Read on to the end of the record; `none` if the text is ill-formed. -/
def read (depth : Nat) (mode : Mode) : Str → Option (List Token)
  | [] => finish depth mode
  | c :: cs =>
      match step depth mode c with
      | (token, .go depth mode) => (read depth mode cs).map (token.toList ++ ·)
      | (token, .stop) => some token.toList
      | (_, .fail) => none

/-- The tokens of a record's text. -/
def tokens (text : Str) : Option (List Token) := read 0 .blank text

/-! ## character-strings -/

/-- What a token stands for, piece by piece: a character, or one octet. -/
inductive Piece where
  | char (c : Char)
  | octet (b : UInt8)
deriving DecidableEq, Repr

/-- The octets of a piece. -/
def Piece.bytes : Piece → List UInt8
  | char c => String.utf8EncodeChar c
  | octet b => [b]

/-- The octets of a token. -/
def octets (pieces : List Piece) : List UInt8 := pieces.flatMap Piece.bytes

variable (digit : Char → Option Nat)

/-- Read the escapes of a token; `digit` knows the decimal digits. -/
def unescape : Str → Option (List Piece)
  | [] => some []
  | c :: rest =>
      if c ≠ '\\' then (unescape rest).map (.char c :: ·)
      else
        match rest with
        | [] => none
        | d₁ :: rest =>
            match digit d₁ with
            | none => (unescape rest).map (.char d₁ :: ·)
            | some n₁ =>
                match rest with
                | d₂ :: d₃ :: rest =>
                    match digit d₂, digit d₃ with
                    | some n₂, some n₃ =>
                        if 255 < 100 * n₁ + 10 * n₂ + n₃ then none
                        else (unescape rest).map (.octet (.ofNat (100 * n₁ + 10 * n₂ + n₃)) :: ·)
                    | _, _ => none
                | _ => none

/-- The character a piece is read as where text is expected. -/
def Piece.toChar : Piece → Char
  | char c => c
  | octet b => Char.ofNat b.toNat

/-- The text of a token where text is expected. -/
def Token.text (token : Token) : Option Str :=
  (unescape digit token.raw).map fun pieces => pieces.map Piece.toChar

/-- A decimal number. -/
def number (s : Str) : Option Nat :=
  s.foldlM (fun n c => (digit c).map fun d => 10 * n + d) 0

/-- A character-string holds at most 255 octets. -/
def charString (token : Token) : Option (List UInt8) :=
  (unescape digit token.raw).bind fun pieces =>
    if (octets pieces).length ≤ 255 then some (octets pieces) else none

/-- The value of a hexadecimal digit. -/
def hexDigit (c : Char) : Option Nat :=
  if c.isDigit then some (c.toNat - 48)
  else if 'a' ≤ c ∧ c ≤ 'f' then some (c.toNat - 87)
  else if 'A' ≤ c ∧ c ≤ 'F' then some (c.toNat - 55)
  else none

/-- Pairs of hexadecimal digits. -/
def unhex : Str → Option (List UInt8)
  | [] => some []
  | [_] => none
  | h :: l :: rest =>
      match hexDigit h, hexDigit l with
      | some h, some l => (unhex rest).map (UInt8.ofNat (16 * h + l) :: ·)
      | _, _ => none

/-- Strings that are each preceded by their length; `fuel` bounds their
number. -/
def countedStrings : Nat → List UInt8 → Option (List (List UInt8))
  | _, [] => some []
  | 0, _ => none
  | fuel + 1, n :: rest =>
      if rest.length < n.toNat then none
      else (countedStrings fuel (rest.drop n.toNat)).map (rest.take n.toNat :: ·)

/-- The generic form of a record's data: behind `\#` its length, and its wire
format in hexadecimal. -/
def genericStrings (args : List Token) : Option (List (List UInt8)) :=
  if args.any Token.quoted then none
  else
    match args.mapM (Token.text digit) with
    | none | some [] => none
    | some (length :: hex) =>
        match number digit length, unhex hex.flatten with
        | some n, some bytes => if n = bytes.length then countedStrings n bytes else none
        | _, _ => none

/-- The character-strings of a TXT record's text. -/
def txtStrings (text : Str) : Option (List (List UInt8)) :=
  match tokens text with
  | none | some [] => none
  | some (first :: rest) =>
      if first = ⟨['\\', '#'], false⟩ then
        (genericStrings digit rest).filter fun strings => !strings.isEmpty
      else (first :: rest).mapM (charString digit)

/-- The text that a TXT record's text is published as: its character-strings
put together. -/
def readBack (text : Str) : Option Str :=
  (txtStrings digit text).map fun strings => Utf8.decode strings.flatten

/-! ## tokens keep at most what is read -/

/-- The part of a token that is read. -/
def Mode.raw : Mode → Str
  | blank | comment => []
  | word raw _ | escape raw _ => raw

/-- The part of a token that is read next. -/
def Next.raw : Next → Str
  | go _ mode => mode.raw
  | stop | fail => []

@[simp] theorem Mode.raw_blank : blank.raw = [] := rfl

@[simp] theorem Mode.raw_comment : comment.raw = [] := rfl

@[simp] theorem Mode.raw_word (raw : Str) (quoted : Bool) : (word raw quoted).raw = raw := rfl

@[simp] theorem Mode.raw_escape (raw : Str) (quoted : Bool) : (escape raw quoted).raw = raw := rfl

@[simp] theorem Next.raw_go (depth : Nat) (mode : Mode) : (go depth mode).raw = mode.raw := rfl

@[simp] theorem Next.raw_stop : stop.raw = [] := rfl

@[simp] theorem Next.raw_fail : fail.raw = [] := rfl

@[simp] theorem raw_delimit (depth : Nat) (c : Char) : (delimit depth c).raw = [] := by
  unfold delimit
  split_ifs <;> rfl

/-- How many characters the tokens have. -/
def kept (ts : List Token) : Nat := (ts.map fun t => t.raw.length).sum

@[simp] theorem kept_nil : kept [] = 0 := rfl

/-- The first token counts with its own characters. -/
@[simp] theorem kept_cons (t : Token) (ts : List Token) :
    kept (t :: ts) = t.raw.length + kept ts := by
  simp [kept]

/-- The characters of two lists of tokens add up. -/
theorem kept_append (ts us : List Token) : kept (ts ++ us) = kept ts + kept us := by
  simp [kept]

/-- A character ends the token that is read, or is added to it, or goes. -/
theorem step_kept (depth : Nat) (mode : Mode) (c : Char) :
    kept (step depth mode c).1.toList + (step depth mode c).2.raw.length ≤ mode.raw.length + 1 := by
  cases mode with
  | blank | comment =>
      rw [step]
      split_ifs <;> simp
  | word raw quoted =>
      cases quoted with
      | false | true =>
          rw [step]
          split_ifs <;> simp
  | escape raw quoted =>
      rw [step]
      split_ifs <;> simp

/-- A delimiter outside of quotes goes. -/
theorem step_delimiter (depth : Nat) {mode : Mode} {c : Char} (hc : isDelimiter c = true)
    (hmode : mode = .blank ∨ ∃ raw, mode = .word raw false) :
    kept (step depth mode c).1.toList + (step depth mode c).2.raw.length ≤ mode.raw.length := by
  cases hmode with
  | inl hmode =>
      rw [hmode, step, if_pos hc]
      simp
  | inr hmode =>
      obtain ⟨raw, hmode⟩ := hmode
      rw [hmode, step, if_pos hc]
      simp

/-- The end of the text keeps the characters of the token at hand. -/
theorem finish_kept {depth : Nat} {mode : Mode} {ts : List Token}
    (h : finish depth mode = some ts) : kept ts = mode.raw.length := by
  unfold finish at h
  split_ifs at h
  cases mode with
  | blank | comment =>
      rw [← Option.some.inj h]
      rfl
  | word raw quoted =>
      cases quoted with
      | false =>
          rw [← Option.some.inj h]
          simp
      | true => contradiction
  | escape raw quoted => contradiction

/-- The tokens of a text that starts with a character: those it ends, and
those of the rest. -/
theorem read_cons {depth : Nat} {mode : Mode} {c : Char} {cs : Str} {ts : List Token}
    (h : read depth mode (c :: cs) = some ts) :
    (∃ depth' mode' ts', (step depth mode c).2 = .go depth' mode' ∧
      read depth' mode' cs = some ts' ∧ ts = (step depth mode c).1.toList ++ ts') ∨
    ((step depth mode c).2 = .stop ∧ ts = (step depth mode c).1.toList) := by
  rw [read] at h
  generalize step depth mode c = r at h ⊢
  obtain ⟨token, next⟩ := r
  cases next with
  | go depth' mode' =>
      obtain ⟨ts', hread, hts⟩ := Option.map_eq_some_iff.mp h
      exact .inl ⟨depth', mode', ts', rfl, hread, hts.symm⟩
  | stop => exact .inr ⟨rfl, (Option.some.inj h).symm⟩
  | fail => contradiction

/-- No more characters are kept than were read. -/
theorem read_kept {depth : Nat} {mode : Mode} {cs : Str} {ts : List Token}
    (h : read depth mode cs = some ts) : kept ts ≤ mode.raw.length + cs.length := by
  induction cs generalizing depth mode ts with
  | nil => exact Nat.le_of_eq (finish_kept h)
  | cons c cs ih =>
      have hstep := step_kept depth mode c
      cases read_cons h with
      | inl h =>
          obtain ⟨depth', mode', ts', hgo, hread, hts⟩ := h
          have hrest := ih hread
          rw [hgo, Next.raw_go] at hstep
          rw [hts, kept_append, List.length_cons]
          omega
      | inr h =>
          rw [h.2, List.length_cons]
          omega

/-- What stands in the token that is read stays in it. -/
theorem step_mem {depth : Nat} {mode : Mode} {x c : Char} (hx : x ∈ mode.raw)
    (h : (step depth mode c).2 ≠ .fail) :
    (∃ t ∈ (step depth mode c).1.toList, x ∈ t.raw) ∨ x ∈ (step depth mode c).2.raw := by
  cases mode with
  | blank | comment => contradiction
  | word raw quoted =>
      rw [Mode.raw_word] at hx
      cases quoted with
      | false =>
          rw [step]
          split_ifs <;> simp [hx]
      | true =>
          rw [step] at h ⊢
          split_ifs at h ⊢
          · simp [hx]
          · exact absurd rfl h
          · simp [hx]
          · simp [hx]
  | escape raw quoted =>
      rw [Mode.raw_escape] at hx
      rw [step] at h ⊢
      split_ifs at h ⊢
      · exact absurd rfl h
      · simp [hx]

/-- A character of the token at hand is in one of the tokens. -/
theorem finish_mem {depth : Nat} {mode : Mode} {ts : List Token} {x : Char}
    (h : finish depth mode = some ts) (hx : x ∈ mode.raw) : ∃ t ∈ ts, x ∈ t.raw := by
  unfold finish at h
  split_ifs at h
  cases mode with
  | blank | comment => contradiction
  | word raw quoted =>
      cases quoted with
      | false => exact ⟨⟨raw, false⟩, by simp [← Option.some.inj h], hx⟩
      | true => contradiction
  | escape raw quoted => contradiction

/-- A character that was taken up is in one of the tokens. -/
theorem read_mem {depth : Nat} {mode : Mode} {cs : Str} {ts : List Token} {x : Char}
    (h : read depth mode cs = some ts) (hx : x ∈ mode.raw) : ∃ t ∈ ts, x ∈ t.raw := by
  induction cs generalizing depth mode ts with
  | nil => exact finish_mem h hx
  | cons c cs ih =>
      cases read_cons h with
      | inl h =>
          obtain ⟨depth', mode', ts', hgo, hread, hts⟩ := h
          have hstep := step_mem (c := c) hx (by rw [hgo]; simp)
          rw [hgo, Next.raw_go] at hstep
          cases hstep with
          | inl hstep =>
              obtain ⟨t, ht, hxt⟩ := hstep
              exact ⟨t, by rw [hts]; exact List.mem_append_left _ ht, hxt⟩
          | inr hstep =>
              obtain ⟨t, ht, hxt⟩ := ih hread hstep
              exact ⟨t, by rw [hts]; exact List.mem_append_right _ ht, hxt⟩
      | inr h =>
          have hstep := step_mem (c := c) hx (by rw [h.1]; simp)
          rw [h.1] at hstep
          obtain ⟨t, ht, hxt⟩ := hstep.resolve_right (by simp)
          exact ⟨t, h.2 ▸ ht, hxt⟩

/-! ## the first special character -/

/-- A character with a meaning of its own outside of quotes. -/
def isSpecial (c : Char) : Bool := isDelimiter c || c == '\\'

/-- The special characters, one by one. -/
theorem mem_of_isSpecial {c : Char} (h : isSpecial c = true) :
    c ∈ [' ', '\t', '\n', ';', '(', ')', '"', '\\'] := by
  simp only [isSpecial, isDelimiter, Bool.or_eq_true, List.contains_eq_mem, decide_eq_true_eq,
    beq_iff_eq] at h
  cases h with
  | inl h => exact List.mem_append_left ['\\'] h
  | inr h => rw [h]; decide

/-- The mode behind plain characters. -/
def behind (plain : Str) : Mode := if plain = [] then .blank else .word plain false

/-- Behind plain text the token at hand is that text. -/
theorem raw_behind (plain : Str) : (behind plain).raw = plain := by
  unfold behind
  split_ifs with h
  · exact h.symm
  · rfl

/-- Behind plain text the reader is at a blank or in a bare word. -/
theorem behind_eq (plain : Str) : behind plain = .blank ∨ ∃ raw, behind plain = .word raw false := by
  unfold behind
  split_ifs
  · exact .inl rfl
  · exact .inr ⟨plain, rfl⟩

/-- A plain character is added to the token. -/
theorem step_plain (plain : Str) {c : Char} (hc : isSpecial c = false) (depth : Nat) :
    step depth (behind plain) c = (none, .go depth (behind (plain ++ [c]))) := by
  obtain ⟨hdelim, hback⟩ := Bool.or_eq_false_iff.mp hc
  have hback : c ≠ '\\' := by simpa using hback
  have hnext : behind (plain ++ [c]) = .word (plain ++ [c]) false := by simp [behind]
  rw [hnext]
  unfold behind
  split_ifs with h
  · simp [step, h, hdelim, hback]
  · simp [step, hdelim, hback]

/-- Characters that are not special are taken up as they are. -/
theorem read_plain (plain : Str) {word : Str} (hword : ∀ c ∈ word, isSpecial c = false)
    (depth : Nat) (rest : Str) :
    read depth (behind plain) (word ++ rest) = read depth (behind (plain ++ word)) rest := by
  induction word generalizing plain with
  | nil => simp
  | cons c word ih =>
      have hstep := step_plain plain (hword c (by simp)) depth
      have hrest := ih (plain ++ [c]) fun d hd => hword d (by simp [hd])
      rw [List.append_assoc] at hrest
      rw [List.cons_append, read, hstep]
      simp [hrest]

/-- A plain text is one token. -/
theorem tokens_plain {text : Str} (hne : text ≠ []) (h : ∀ c ∈ text, isSpecial c = false) :
    tokens text = some [⟨text, false⟩] := by
  have hread := read_plain [] h 0 []
  have hbehind : behind text = .word text false := by simp [behind, hne]
  rw [List.append_nil, List.nil_append, hbehind] at hread
  exact hread

/-- A plain word before a space is a token. -/
theorem tokens_cons {word : Str} (hne : word ≠ []) (h : ∀ c ∈ word, isSpecial c = false)
    (rest : Str) :
    tokens (word ++ [' '] ++ rest) = (tokens rest).map (⟨word, false⟩ :: ·) := by
  have hread := read_plain [] h 0 (' ' :: rest)
  have hbehind : behind word = .word word false := by simp [behind, hne]
  have hstep : step 0 (.word word false) ' ' = (some ⟨word, false⟩, .go 0 .blank) := rfl
  rw [List.nil_append, hbehind, read, hstep] at hread
  rw [List.append_assoc, List.singleton_append]
  exact hread

/-- Of a text with a special character, the tokens lack a character or have
an escape. -/
theorem tokens_special {text : Str} {ts : List Token} (h : tokens text = some ts)
    (hspecial : ∃ c ∈ text, isSpecial c = true) :
    kept ts < text.length ∨ (kept ts ≤ text.length ∧ ∃ t ∈ ts, '\\' ∈ t.raw) := by
  -- split the text at its first special character
  obtain ⟨c, hfind⟩ : ∃ c, text.find? isSpecial = some c := by
    rw [← Option.isSome_iff_exists, List.find?_isSome]
    exact hspecial
  obtain ⟨hc, plain, rest, htext, hplain⟩ := List.find?_eq_some_iff_append.mp hfind
  have hplain : ∀ d ∈ plain, isSpecial d = false := by simpa using hplain
  have hread : read 0 (behind plain) (c :: rest) = some ts := by
    rw [tokens, htext] at h
    rw [← h]
    exact (read_plain [] hplain 0 (c :: rest)).symm
  rw [htext, List.length_append, List.length_cons]
  by_cases hdelim : isDelimiter c = true
  · have hstep := step_delimiter 0 hdelim (behind_eq plain)
    rw [raw_behind] at hstep
    left
    cases read_cons hread with
    | inl hnext =>
        obtain ⟨depth', mode', ts', hgo, hread, hts⟩ := hnext
        have hrest := read_kept hread
        rw [hgo, Next.raw_go] at hstep
        rw [hts, kept_append]
        omega
    | inr hstop =>
        rw [hstop.2]
        omega
  · have hback : c = '\\' := by simpa [isSpecial, hdelim] using hc
    have hkept := read_kept hread
    rw [raw_behind, List.length_cons] at hkept
    refine .inr ⟨hkept, ?_⟩
    have hstep : step 0 (behind plain) c = (none, .go 0 (.escape (plain ++ [c]) false)) := by
      unfold behind
      split_ifs with h
      · simp [step, h, hback, isDelimiter]
      · simp [step, hback, isDelimiter]
    rw [read, hstep] at hread
    obtain ⟨ts', hread, hts⟩ := Option.map_eq_some_iff.mp hread
    rw [← hts]
    exact read_mem hread (by simp [hback])

/-! ## escapes -/

/-- Without a backslash there is nothing to unescape. -/
theorem unescape_plain {raw : Str} (h : '\\' ∉ raw) :
    unescape digit raw = some (raw.map Piece.char) := by
  induction raw with
  | nil => rfl
  | cons c rest ih =>
      rw [List.mem_cons, not_or] at h
      rw [unescape.eq_def]
      simp only [ne_eq, Ne.symm h.1, not_false_eq_true, if_true, ih h.2, Option.map_some,
        List.map_cons]

/-- Escapes shorten a token. -/
theorem length_unescape {raw : Str} {pieces : List Piece} (h : unescape digit raw = some pieces) :
    pieces.length ≤ raw.length ∧ ('\\' ∈ raw → pieces.length < raw.length) := by
  fun_induction unescape digit raw generalizing pieces with
  | case1 => simp [← Option.some.inj h]
  | case2 c rest hc ih =>
      obtain ⟨pieces', hrest, hpieces⟩ := Option.map_eq_some_iff.mp h
      have hle := ih hrest
      rw [← hpieces]
      simp only [List.length_cons, List.mem_cons, Ne.symm hc, false_or]
      exact ⟨Nat.succ_le_succ hle.1, fun hmem => Nat.succ_lt_succ (hle.2 hmem)⟩
  | case4 c hc d rest hd ih =>
      obtain ⟨pieces', hrest, hpieces⟩ := Option.map_eq_some_iff.mp h
      have hle := (ih hrest).1
      rw [← hpieces]
      simp only [List.length_cons]
      exact ⟨by omega, fun _ => by omega⟩
  | case6 c hc d₁ n₁ h₁ d₂ d₃ rest n₂ n₃ h₃ h₂ hn ih =>
      obtain ⟨pieces', hrest, hpieces⟩ := Option.map_eq_some_iff.mp h
      have hle := (ih hrest).1
      rw [← hpieces]
      simp only [List.length_cons]
      exact ⟨by omega, fun _ => by omega⟩
  | case3 | case5 | case7 | case8 => contradiction

/-- Each piece is read back as one character at most. -/
theorem length_decode_octets_le (pieces : List Piece) (rest : List UInt8) :
    (Utf8.decode (octets pieces ++ rest)).length ≤ pieces.length + (Utf8.decode rest).length := by
  induction pieces with
  | nil => simp [octets]
  | cons piece pieces ih =>
      have hsplit : octets (piece :: pieces) ++ rest = piece.bytes ++ (octets pieces ++ rest) := by
        simp [octets]
      rw [hsplit, List.length_cons]
      cases piece with
      | char c =>
          have hc := Utf8.decode_utf8EncodeChar_append c (octets pieces ++ rest)
          rw [Piece.bytes, hc, List.length_cons]
          omega
      | octet b =>
          have hb := Utf8.length_decode_cons_le b (octets pieces ++ rest)
          rw [Piece.bytes, List.singleton_append]
          omega

/-- A token is a character string if its octets are at most 255. -/
theorem charString_eq_some_iff {t : Token} {bytes : List UInt8} :
    charString digit t = some bytes ↔
      ∃ pieces, unescape digit t.raw = some pieces ∧ octets pieces = bytes ∧ bytes.length ≤ 255 := by
  unfold charString
  rw [Option.bind_eq_some_iff]
  refine exists_congr fun pieces => and_congr_right fun _ => ?_
  by_cases h : (octets pieces).length ≤ 255
  · simp only [h, if_true, Option.some.injEq]
    exact ⟨fun heq => ⟨heq, heq ▸ h⟩, And.left⟩
  · simp only [h, if_false, reduceCtorEq, false_iff]
    exact fun heq => h (heq.1 ▸ heq.2)

/-- What the tokens are read back as is no longer than they are, and shorter
where there is an escape. -/
theorem length_decode_charStrings {ts : List Token} {strings : List (List UInt8)}
    (h : ts.mapM (charString digit) = some strings) :
    (Utf8.decode strings.flatten).length ≤ kept ts ∧
      ((∃ t ∈ ts, '\\' ∈ t.raw) → (Utf8.decode strings.flatten).length < kept ts) := by
  induction ts generalizing strings with
  | nil =>
      rw [List.mapM_nil] at h
      rw [← Option.some.inj h]
      simp
  | cons t ts ih =>
      rw [List.mapM_cons] at h
      obtain ⟨bytes, hbytes, h⟩ := Option.bind_eq_some_iff.mp h
      obtain ⟨strings', hstrings, h⟩ := Option.bind_eq_some_iff.mp h
      obtain ⟨pieces, hpieces, hoctets, -⟩ := (charString_eq_some_iff digit).mp hbytes
      have hrest := ih hstrings
      have hlen := length_unescape digit hpieces
      have hdecode := length_decode_octets_le pieces strings'.flatten
      have hflat : strings.flatten = octets pieces ++ strings'.flatten := by
        rw [← Option.some.inj h, List.flatten_cons, hoctets]
      rw [hflat, kept_cons]
      refine ⟨by omega, fun hmem => ?_⟩
      obtain ⟨t', ht', hmem⟩ := hmem
      cases List.mem_cons.mp ht' with
      | inl heq =>
          have hlt := hlen.2 (heq ▸ hmem)
          omega
      | inr htail =>
          have hlt := hrest.2 ⟨t', htail, hmem⟩
          omega

/-- A decimal number is read back. -/
theorem number_natStr (hdigit : ∀ c, c.isDigit = true → digit c = some (c.toNat - 48)) (n : Nat) :
    number digit (natStr n) = some n := by
  have hfold (s : Str) (hs : ∀ c ∈ s, c.isDigit = true) (k : Nat) :
      s.foldlM (fun n c => (digit c).map fun d => 10 * n + d) k = some (Nat.ofDigitChars 10 s k) := by
    induction s generalizing k with
    | nil => rfl
    | cons c s ih =>
        rw [List.foldlM_cons, hdigit c (hs c (by simp))]
        exact ih (fun d hd => hs d (by simp [hd])) _
  rw [number, hfold _ fun c hc => mem_natStr hc]
  exact congrArg some Nat.ofDigitChars_ten_toDigits

/-! ## the generic form -/

/-- Two hexadecimal digits make an octet. -/
theorem length_unhex {hex : Str} {bytes : List UInt8} (h : unhex hex = some bytes) :
    2 * bytes.length = hex.length := by
  fun_induction unhex hex generalizing bytes with
  | case1 => simp [← Option.some.inj h]
  | case2 | case4 => contradiction
  | case3 _ _ rest _ _ _ _ ih =>
      obtain ⟨bytes', hrest, hbytes⟩ := Option.map_eq_some_iff.mp h
      have hlen := ih hrest
      rw [← hbytes]
      simp only [List.length_cons]
      omega

/-- Counted strings are no longer than the octets they are read from. -/
theorem length_countedStrings {fuel : Nat} {bytes : List UInt8} {strings : List (List UInt8)}
    (h : countedStrings fuel bytes = some strings) : strings.flatten.length ≤ bytes.length := by
  fun_induction countedStrings fuel bytes generalizing strings with
  | case1 => simp [← Option.some.inj h]
  | case2 | case3 => contradiction
  | case4 fuel n rest hn ih =>
      obtain ⟨strings', hrest, hstrings⟩ := Option.map_eq_some_iff.mp h
      have hle := ih hrest
      rw [List.length_drop] at hle
      rw [← hstrings, List.flatten_cons, List.length_append, List.length_take, List.length_cons]
      omega

/-- The texts of tokens are no longer than what is kept of them. -/
theorem length_texts {ts : List Token} {texts : List Str}
    (h : ts.mapM (Token.text digit) = some texts) : texts.flatten.length ≤ kept ts := by
  induction ts generalizing texts with
  | nil =>
      rw [List.mapM_nil] at h
      rw [← Option.some.inj h]
      simp
  | cons t ts ih =>
      rw [List.mapM_cons] at h
      obtain ⟨text, htext, h⟩ := Option.bind_eq_some_iff.mp h
      obtain ⟨texts', htexts, h⟩ := Option.bind_eq_some_iff.mp h
      obtain ⟨pieces, hpieces, hmap⟩ := Option.map_eq_some_iff.mp htext
      have hlen := (length_unescape digit hpieces).1
      have hrest := ih htexts
      rw [← Option.some.inj h, List.flatten_cons, List.length_append, ← hmap, List.length_map,
        kept_cons]
      omega

/-- The generic form spells less than it is long. -/
theorem length_decode_genericStrings {args : List Token} {strings : List (List UInt8)}
    (h : genericStrings digit args = some strings) :
    (Utf8.decode strings.flatten).length ≤ kept args := by
  unfold genericStrings at h
  split_ifs at h
  cases htexts : args.mapM (Token.text digit) with
  | none => rw [htexts] at h; contradiction
  | some texts =>
      have hkept := length_texts digit htexts
      rw [htexts] at h
      cases texts with
      | nil => contradiction
      | cons length hex =>
          rw [List.flatten_cons, List.length_append] at hkept
          dsimp only at h
          split at h
          · next n bytes hn hbytes =>
              split_ifs at h with hlen
              have hle := Utf8.length_decode_le strings.flatten
              have hcounted := length_countedStrings h
              have hhex := length_unhex hbytes
              omega
          · contradiction

/-! ## texts that are read back as they are -/

/-- A text with a special character is read back shorter, if at all. -/
theorem length_readBack_lt {text back : Str} (h : readBack digit text = some back)
    (hspecial : ∃ c ∈ text, isSpecial c = true) : back.length < text.length := by
  obtain ⟨strings, hstrings, hback⟩ := Option.map_eq_some_iff.mp h
  rw [← hback]
  unfold txtStrings at hstrings
  cases hts : tokens text with
  | none => rw [hts] at hstrings; contradiction
  | some ts =>
      have hkept := tokens_special hts hspecial
      rw [hts] at hstrings
      cases ts with
      | nil => contradiction
      | cons first rest =>
          dsimp only at hstrings
          split_ifs at hstrings with hfirst
          · obtain ⟨hgeneric, -⟩ := Option.filter_eq_some_iff.mp hstrings
            have hle := length_decode_genericStrings digit hgeneric
            have hall : kept (first :: rest) = 2 + kept rest := by rw [hfirst]; rfl
            omega
          · have hlen := length_decode_charStrings digit hstrings
            cases hkept with
            | inl hlt => omega
            | inr hescape =>
                have hlt := hlen.2 hescape.2
                omega

/-- A plain text is read back if it has at most 255 octets. -/
theorem readBack_plain {text : Str} (hne : text ≠ []) (h : ∀ c ∈ text, isSpecial c = false) :
    readBack digit text = if (Utf8.encode text).length ≤ 255 then some text else none := by
  have hback : '\\' ∉ text := by
    intro hmem
    have := h _ hmem
    contradiction
  have hoctets : octets (text.map Piece.char) = Utf8.encode text := by
    rw [octets, List.flatMap_map]
    rfl
  have hfirst : (⟨text, false⟩ : Token) ≠ ⟨['\\', '#'], false⟩ := by
    intro heq
    rw [Token.mk.injEq] at heq
    rw [heq.1] at hback
    exact hback (by simp)
  have hstring : charString digit ⟨text, false⟩ =
      if (Utf8.encode text).length ≤ 255 then some (Utf8.encode text) else none := by
    rw [charString, unescape_plain digit hback, Option.bind_some, hoctets]
  unfold readBack txtStrings
  rw [tokens_plain hne h]
  simp only [hfirst, if_false, List.mapM_cons, List.mapM_nil, hstring]
  split_ifs with hlen
  · simp
  · rfl

/-- A text is read back as it is exactly when it has no special character
and fits one character-string. -/
theorem readBack_iff {text : Str} (hne : text ≠ []) :
    readBack digit text = some text ↔
      (∀ c ∈ text, isSpecial c = false) ∧ (Utf8.encode text).length ≤ 255 := by
  by_cases hspecial : ∃ c ∈ text, isSpecial c = true
  · refine iff_of_false (fun h => ?_) fun h => ?_
    · exact Nat.lt_irrefl _ (length_readBack_lt digit h hspecial)
    · obtain ⟨c, hmem, hc⟩ := hspecial
      rw [h.1 c hmem] at hc
      contradiction
  · have hplain : ∀ c ∈ text, isSpecial c = false := by simpa using hspecial
    rw [readBack_plain digit hne hplain, and_iff_right hplain]
    simp

end MasterFile
