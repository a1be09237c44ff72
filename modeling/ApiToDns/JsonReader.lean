import ApiToDns.Dumps
import ApiToDns.Lib.Octets
import ApiToDns.Py.JsonText

/-!
# JsonReader

A reader of JSON (RFC 8259), and what it makes of the texts that
`json.dumps(…, ensure_ascii=True, separators=(",", ":"))` writes.

* `parseJson` — the reader;
* `Readable` — the structures whose texts are JSON and say the same;
* `parseJson_compact_iff` — exactly these are read back.
-/

namespace ApiToDns.Dumps

open Py JsonText

/-! ## numbers -/

def isNumberChar (c : Char) : Bool :=
  c.isDigit || c = '-' || c = '+' || c = '.' || c = 'e' || c = 'E'

/-- `1*DIGIT` -/
def isDigits (s : Str) : Bool := s ≠ [] && s.all Char.isDigit

/-- `int` -/
def isNatToken (s : Str) : Bool := s = ['0'] || isDigits s && s.head? ≠ some '0'

/-- `[ minus ] int` -/
def isIntToken : Str → Bool
  | '-' :: s => isNatToken s
  | s => isNatToken s

/-- `[ minus / plus ] 1*DIGIT` -/
def isExponent : Str → Bool
  | '-' :: s | '+' :: s => isDigits s
  | s => isDigits s

/-- `[ minus ] int [ frac ] [ exp ]`, with one of the two. -/
def isFloatToken (s : Str) : Bool :=
  let mantissa := s.takeWhile fun c => c ≠ 'e' && c ≠ 'E'
  let exponent := s.dropWhile fun c => c ≠ 'e' && c ≠ 'E'
  let frac := mantissa.dropWhile (· ≠ '.')
  isIntToken (mantissa.takeWhile (· ≠ '.')) && (frac = [] || isDigits frac.tail) &&
    (exponent = [] || isExponent exponent.tail) && (frac ≠ [] || exponent ≠ [])

def natOfToken (s : Str) : Nat := Nat.ofDigitChars 10 s 0

def intOfToken : Str → Int
  | '-' :: s => -(natOfToken s : Int)
  | s => natOfToken s

/-- A number; one with a fraction or an exponent is known by its text. -/
def readNumber (s : Str) : Option (Details × Str) :=
  let token := s.takeWhile isNumberChar
  if isIntToken token then some (.int (intOfToken token), s.dropWhile isNumberChar)
  else if isFloatToken token then some (.float token, s.dropWhile isNumberChar)
  else none

/-! ## values -/

/-- White space. -/
def isWs (c : Char) : Bool := c = ' ' || c = '\t' || c = '\n' || c = '\r'

def skipWs (s : Str) : Str := s.dropWhile isWs

def readLiteral (s : Str) : Option (Details × Str) :=
  if startsWith s (lit "null") then some (.null, s.drop 4)
  else if startsWith s (lit "true") then some (.bool true, s.drop 4)
  else if startsWith s (lit "false") then some (.bool false, s.drop 5)
  else readNumber s

section Items

variable {α : Type} (one : Str → Option (α × Str)) (close : Char)

/-- Items up to the closing bracket, at least one. -/
def readItems : Nat → Str → Option (List α × Str)
  | 0, _ => none
  | n + 1, s => do
      let (item, rest) ← one s
      match skipWs rest with
      | [] => none
      | c :: rest =>
          if c = close then some ([item], rest)
          else if c = ',' then do
            let (items, rest) ← readItems n rest
            some (item :: items, rest)
          else none

/-- The items after an opening bracket. -/
def readMany (n : Nat) (s : Str) : Option (List α × Str) :=
  match skipWs s with
  | [] => none
  | c :: rest => if c = close then some ([], rest) else readItems one close n s

end Items

/-- A string. -/
def readString (s : Str) : Option (Text × Str) :=
  match skipWs s with
  | '"' :: s => do
      let (points, rest) ← readPoints s
      some (joinSurrogates points, rest)
  | _ => none

/-- A name and its value. -/
def readMember (one : Str → Option (Details × Str)) (s : Str) :
    Option ((Text × Details) × Str) := do
  let (key, rest) ← readString s
  match skipWs rest with
  | ':' :: rest => do
      let (value, rest) ← one rest
      some ((key, value), rest)
  | _ => none

/-- A value, with the calls that are left. -/
def read : Nat → Str → Option (Details × Str)
  | 0, _ => none
  | n + 1, s =>
      match skipWs s with
      | '[' :: s => (readMany (read n) ']' n s).map fun r => (.list r.1, r.2)
      | '\x7b' :: s => (readMany (readMember (read n)) '\x7d' n s).map fun r => (.dict r.1, r.2)
      | '"' :: s => (readString ('"' :: s)).map fun r => (.str r.1, r.2)
      | s => readLiteral s

/-- A text that is one value. -/
def parseJson (s : Str) : Option Details :=
  match read (s.length + 1) s with
  | some (value, rest) => if skipWs rest = [] then some value else none
  | none => none

example : parseJson (lit "[1, -2.5e3, \"\\u00e4\", \x7b\"a\": null\x7d, []]") =
    some (.list [.int 1, .float (lit "-2.5e3"), .str (Text.ofStr (lit "ä")),
      .dict [(Text.ofStr (lit "a"), .null)], .list []]) := by
  rfl

/-! ## compact texts -/

section Compact

variable (float : Str → Str)

mutual

/-- The text of `json.dumps(…, ensure_ascii=True, separators=(",", ":"))`, for a
way to write floats. -/
def compact : Details → Str
  | .null => lit "null"
  | .bool b => if b then lit "true" else lit "false"
  | .int i => intStr i
  | .float text => float text
  | .str s => quoted s
  | .list items | .tuple items => '[' :: join (lit ",") (compactItems items) ++ [']']
  | .dict fields => '\x7b' :: join (lit ",") (compactFields fields) ++ ['\x7d']

def compactItems : List Details → List Str
  | [] => []
  | item :: items => compact item :: compactItems items

def compactFields : List (Text × Details) → List Str
  | [] => []
  | (key, value) :: fields => (quoted key ++ ':' :: compact value) :: compactFields fields

end

end Compact

mutual

/-- A tuple is a list in JSON. -/
def asJson : Details → Details
  | .list items | .tuple items => .list (asJsonItems items)
  | .dict fields => .dict (asJsonFields fields)
  | a => a

def asJsonItems : List Details → List Details
  | [] => []
  | item :: items => asJson item :: asJsonItems items

def asJsonFields : List (Text × Details) → List (Text × Details)
  | [] => []
  | (key, value) :: fields => (key, asJson value) :: asJsonFields fields

end

mutual

/-- Floats are finite, and no text has a pair of surrogates that stands for
another character. -/
def readable : Details → Bool
  | .null | .bool _ | .int _ => true
  | .float text => isFloatToken text
  | .str s => !hasPair s
  | .list items | .tuple items => readableItems items
  | .dict fields => readableFields fields

def readableItems : List Details → Bool
  | [] => true
  | item :: items => readable item && readableItems items

def readableFields : List (Text × Details) → Bool
  | [] => true
  | (key, value) :: fields => !hasPair key && readable value && readableFields fields

end

mutual

/-- The depth and the numbers are such that the interpreter writes them. -/
def dumpable : Nat → Details → Bool
  | _, .null | _, .bool _ | _, .float _ | _, .str _ => true
  | _, .int i => i.natAbs < 10 ^ maxStrDigits
  | 0, .list _ | 0, .tuple _ | 0, .dict _ => false
  | n + 1, .list items | n + 1, .tuple items => dumpableItems n items
  | n + 1, .dict fields => dumpableFields n fields

def dumpableItems (n : Nat) : List Details → Bool
  | [] => true
  | item :: items => dumpable n item && dumpableItems n items

def dumpableFields (n : Nat) : List (Text × Details) → Bool
  | [] => true
  | (_, value) :: fields => dumpable n value && dumpableFields n fields

end

/-- Joining texts is joining strings. -/
theorem ofStr_join (sep : Str) (parts : List Str) :
    (Text.ofStr sep).intercalate (parts.map Text.ofStr) = Text.ofStr (join sep parts) := by
  induction parts with
  | nil => rfl
  | cons part parts ih =>
      cases parts with
      | nil => simp [join, Text.ofStr]
      | cons next parts =>
          rw [List.map_cons, List.map_cons, List.intercalate_cons_cons, ← List.map_cons, ih, join,
            join, List.intercalate_cons_cons]
          simp [Text.ofStr]

/-- Bracketing texts is bracketing strings. -/
theorem bracketed_ofStr (before after : Char) (parts : List Str) :
    bracketed (lit ",") before after (parts.map Text.ofStr) =
      Text.ofStr (before :: join (lit ",") parts ++ [after]) := by
  rw [bracketed, ofStr_join]
  simp [Text.ofStr]

theorem compactStyle_comma : compactStyle.comma = lit "," := rfl

theorem compactStyle_tuple : compactStyle.tuple = bracketed (lit ",") '[' ']' := rfl

mutual

/-- What is written. -/
theorem write_compact_iff (n : Nat) (a : Details) (t : Text) :
    write compactStyle n a = .ok t ↔ dumpable n a = true ∧ Text.ofStr (compact jsonFloat a) = t := by
  cases a with
  | null => simp [write, dumpable, compact, compactStyle]
  | bool b => simp [write, dumpable, compact, compactStyle]
  | int i =>
      by_cases hlt : i.natAbs < 10 ^ maxStrDigits
      · simp [write, dumpable, compact, hlt]
      · simp [write, dumpable, hlt]
  | float text => simp [write, dumpable, compact, compactStyle]
  | str s => simp [write, dumpable, compact, compactStyle, quoteAscii, quoted]
  | list items =>
      cases n with
      | zero => simp [write, dumpable]
      | succ n =>
          have hitems := writeItems_compact_iff n items
          simp [write, map_eq_ok_iff, hitems, dumpable, compact, compactStyle_comma, and_assoc,
            bracketed_ofStr]
  | tuple items =>
      cases n with
      | zero => simp [write, dumpable]
      | succ n =>
          have hitems := writeItems_compact_iff n items
          simp [write, map_eq_ok_iff, hitems, dumpable, compact, compactStyle_tuple, and_assoc,
            bracketed_ofStr]
  | dict fields =>
      cases n with
      | zero => simp [write, dumpable]
      | succ n =>
          have hfields := writeFields_compact_iff n fields
          simp [write, map_eq_ok_iff, hfields, dumpable, compact, compactStyle_comma, and_assoc,
            bracketed_ofStr]

/-- What is written of the items of a list. -/
theorem writeItems_compact_iff (n : Nat) (items : List Details) (parts : List Text) :
    writeItems compactStyle n items = .ok parts ↔
      dumpableItems n items = true ∧ (compactItems jsonFloat items).map Text.ofStr = parts := by
  cases items with
  | nil => simp [writeItems, dumpableItems, compactItems]
  | cons a items =>
      have ha := write_compact_iff n a
      have hitems := writeItems_compact_iff n items
      simp [writeItems, bind_eq_ok_iff, ha, hitems, dumpableItems, compactItems, and_assoc]

/-- What is written of the fields of an object. -/
theorem writeFields_compact_iff (n : Nat) (fields : List (Text × Details)) (parts : List Text) :
    writeFields compactStyle n fields = .ok parts ↔
      dumpableFields n fields = true ∧ (compactFields jsonFloat fields).map Text.ofStr = parts := by
  cases fields with
  | nil => simp [writeFields, dumpableFields, compactFields]
  | cons field fields =>
      obtain ⟨key, a⟩ := field
      have ha := write_compact_iff n a
      have hfields := writeFields_compact_iff n fields
      have hpart : compactStyle.str key ++ Text.ofStr compactStyle.colon ++
          Text.ofStr (compact jsonFloat a) = Text.ofStr (quoted key ++ ':' :: compact jsonFloat a) := by
        simp [compactStyle, quoteAscii, quoted, Text.ofStr, lit]
      simp [writeFields, bind_eq_ok_iff, ha, hfields, dumpableFields, compactFields,
        and_assoc]
      grind

end

/-! ## reading compact texts -/

/-- What follows a value and does not go on with it. -/
def Ends (rest : Str) : Prop := ∀ c ∈ rest.head?, isNumberChar c = false ∧ isWs c = false

/-- Nothing is skipped before another character. -/
theorem skipWs_cons {c : Char} (h : isWs c = false) (s : Str) : skipWs (c :: s) = c :: s := by
  simp [skipWs, h]

/-- A text is read as the value before every rest, exactly if the value is one
that can be read. -/
def Recognizes {α : Type} (one : Str → Option (α × Str)) (text : Str) (value : α) (ok : Bool) :
    Prop :=
  ∀ rest, Ends rest → (ok = true → one (text ++ rest) = some (value, rest)) ∧
    ∀ rest', one (text ++ rest) = some (value, rest') → ok = true

section Items

variable {α β : Type} {one : Str → Option (α × Str)} {close : Char} {text : β → Str} {value : β → α}
  {ok : β → Bool} {as : List β}

/-- The first of the items, and the ones after a comma. -/
theorem readItems_eq_cons {n : Nat} {s rest : Str} {v : α} {vs : List α}
    (h : readItems one close n s = some (v :: vs, rest)) :
    ∃ m rest', n = m + 1 ∧ one s = some (v, rest') ∧
      (vs = [] ∨ ∃ after, skipWs rest' = ',' :: after ∧
        readItems one close m after = some (vs, rest)) := by
  cases n with
  | zero => contradiction
  | succ m =>
      rw [readItems] at h
      obtain ⟨⟨item, rest'⟩, hone, h⟩ := Option.bind_eq_some_iff.mp h
      refine ⟨m, rest', rfl, ?_⟩
      cases hrest : skipWs rest' with
      | nil => simp [hrest] at h
      | cons c after =>
          simp only [hrest] at h
          split at h
          · obtain ⟨⟨rfl, rfl⟩, -⟩ := by simpa using h
            exact ⟨hone, .inl rfl⟩
          · split at h
            · next hc =>
                obtain ⟨⟨items, rest''⟩, hitems, h⟩ := Option.bind_eq_some_iff.mp h
                obtain ⟨⟨rfl, rfl⟩, rfl⟩ := by simpa using h
                exact ⟨hone, .inr ⟨after, by rw [hc], hitems⟩⟩
            · contradiction

/-- Items are read one after the other. -/
theorem readItems_join (hclose : isNumberChar close = false ∧ isWs close = false)
    (hcomma : close ≠ ',') (h : ∀ a ∈ as, Recognizes one (text a) (value a) (ok a))
    (hne : as ≠ []) {n : Nat} (hn : as.length ≤ n) (rest : Str) :
    (as.all ok = true → readItems one close n (join (lit ",") (as.map text) ++ close :: rest) =
      some (as.map value, rest)) ∧
    ∀ rest', readItems one close n (join (lit ",") (as.map text) ++ close :: rest) =
      some (as.map value, rest') → as.all ok = true := by
  induction as generalizing n with
  | nil => contradiction
  | cons a as ih =>
      obtain ⟨n, rfl⟩ := Nat.exists_eq_add_of_le' (Nat.le_trans (Nat.le_add_left 1 _) hn)
      have hfirst := h a (by simp)
      cases as with
      | nil =>
          have hends : Ends (close :: rest) := by
            intro c hc
            obtain rfl := Option.some.inj hc
            exact hclose
          have hread := hfirst (close :: rest) hends
          have hjoin : join (lit ",") ([a].map text) = text a := by simp [join]
          rw [hjoin]
          constructor
          · intro hok
            rw [readItems, hread.1 (by simpa using hok)]
            simp [skipWs_cons hclose.2]
          · intro rest' heq
            obtain ⟨m, after, -, hone, -⟩ := readItems_eq_cons heq
            simpa using hread.2 after hone
      | cons b as =>
          have hends : Ends (',' :: (join (lit ",") ((b :: as).map text) ++ close :: rest)) := by
            intro c hc
            obtain rfl := Option.some.inj hc
            decide
          have hread := hfirst _ hends
          have hjoin : join (lit ",") ((a :: b :: as).map text) ++ close :: rest =
              text a ++ ',' :: (join (lit ",") ((b :: as).map text) ++ close :: rest) := by
            simp [join, List.intercalate_cons_cons, lit]
          have hrest := ih (fun x hx => h x (by simp [hx])) (by simp)
            (Nat.le_of_succ_le_succ hn)
          have hskip := skipWs_cons (by decide : isWs ',' = false)
            (join (lit ",") ((b :: as).map text) ++ close :: rest)
          rw [hjoin, List.all_cons, Bool.and_eq_true]
          constructor
          · intro hok
            rw [readItems, hread.1 hok.1, Option.bind_eq_bind, Option.bind_some]
            simp only [hskip, if_neg hcomma.symm, hrest.1 hok.2]
            simp
          · intro rest' heq
            obtain ⟨m, after, hm, hone, hnext⟩ := readItems_eq_cons heq
            have hok := hread.2 after hone
            rw [hread.1 hok] at hone
            obtain rfl := (Prod.mk.inj (Option.some.inj hone)).2
            obtain rfl := Nat.succ.inj hm
            obtain hnil | ⟨after, hafter, hitems⟩ := hnext
            · simp at hnil
            · rw [hskip] at hafter
              obtain rfl := (List.cons.inj hafter).2
              exact ⟨hok, hrest.2 rest' hitems⟩

/-- Items between brackets. -/
theorem readMany_join (hclose : isNumberChar close = false ∧ isWs close = false)
    (hcomma : close ≠ ',') (h : ∀ a ∈ as, Recognizes one (text a) (value a) (ok a))
    (hhead : ∀ a ∈ as, ok a = true → ∃ c s, text a = c :: s ∧ isWs c = false ∧ c ≠ close)
    {n : Nat} (hn : as.length ≤ n) (rest : Str) :
    (as.all ok = true → readMany one close n (join (lit ",") (as.map text) ++ close :: rest) =
      some (as.map value, rest)) ∧
    ∀ rest', readMany one close n (join (lit ",") (as.map text) ++ close :: rest) =
      some (as.map value, rest') → as.all ok = true := by
  cases as with
  | nil => simp [readMany, join, skipWs_cons hclose.2]
  | cons a as =>
      have hitems := readItems_join hclose hcomma h (by simp) hn rest
      constructor
      · intro hok
        obtain ⟨c, s, hc, hws, hne⟩ := hhead a (by simp) (by simp at hok; exact hok.1)
        have hstart : ∃ s', join (lit ",") ((a :: as).map text) = c :: s' := by
          cases as with
          | nil => exact ⟨s, by simp [join, hc]⟩
          | cons b as => exact ⟨_, by rw [List.map_cons, List.map_cons, join,
              List.intercalate_cons_cons, hc]; rfl⟩
        obtain ⟨s', hs'⟩ := hstart
        rw [← hitems.1 hok, readMany, hs', List.cons_append, skipWs_cons hws]
        simp [hne]
      · intro rest' heq
        unfold readMany at heq
        split at heq
        · contradiction
        · split at heq
          · simp at heq
          · exact hitems.2 rest' heq

end Items

/-! ## reading numbers -/

/-- A number ends where its characters do. -/
theorem takeWhile_token {token rest : Str} (h : ∀ c ∈ token, isNumberChar c = true)
    (hends : Ends rest) :
    (token ++ rest).takeWhile isNumberChar = token ∧
      (token ++ rest).dropWhile isNumberChar = rest := by
  induction token with
  | nil =>
      cases rest with
      | nil => simp
      | cons c rest =>
          have hc := (hends c rfl).1
          simp [hc]
  | cons c token ih =>
      have hc := h c (by simp)
      have hrest := ih fun d hd => h d (by simp [hd])
      simp [hc, hrest]

/-- Digits belong to numbers. -/
theorem isNumberChar_of_isDigits {s : Str} (h : isDigits s = true) :
    ∀ c ∈ s, isNumberChar c = true := by
  intro c hc
  simp only [isDigits, Bool.and_eq_true, List.all_eq_true] at h
  simp [isNumberChar, h.2 c hc]

/-- A natural number consists of digits. -/
theorem isDigits_of_isNatToken {s : Str} (h : isNatToken s = true) : isDigits s = true := by
  simp only [isNatToken, Bool.or_eq_true, Bool.and_eq_true, decide_eq_true_eq] at h
  obtain rfl | h := h
  · rfl
  · exact h.1

/-- An integer begins with a sign or a digit, and has no other characters. -/
theorem isIntToken_chars {s : Str} (h : isIntToken s = true) :
    (∃ c t, s = c :: t ∧ (c = '-' ∨ c.isDigit = true)) ∧ ∀ c ∈ s, c = '-' ∨ c.isDigit = true := by
  have hall : ∀ {t : Str}, isNatToken t = true → ∀ c ∈ t, c.isDigit = true := by
    intro t ht c hc
    have hds := isDigits_of_isNatToken ht
    simp only [isDigits, Bool.and_eq_true, List.all_eq_true] at hds
    exact hds.2 c hc
  unfold isIntToken at h
  split at h
  · next t =>
      refine ⟨⟨'-', t, rfl, .inl rfl⟩, ?_⟩
      intro c hc
      obtain rfl | hc := List.mem_cons.mp hc
      · exact .inl rfl
      · exact .inr (hall h c hc)
  · cases s with
    | nil => contradiction
    | cons c t => exact ⟨⟨c, t, rfl, .inr (hall h c (by simp))⟩, fun d hd => .inr (hall h d hd)⟩

/-- Exponents belong to numbers. -/
theorem isNumberChar_of_isExponent {s : Str} (h : isExponent s = true) :
    ∀ c ∈ s, isNumberChar c = true := by
  unfold isExponent at h
  intro c hc
  split at h
  · obtain rfl | hc := List.mem_cons.mp hc
    · rfl
    · exact isNumberChar_of_isDigits h c hc
  · obtain rfl | hc := List.mem_cons.mp hc
    · rfl
    · exact isNumberChar_of_isDigits h c hc
  · exact isNumberChar_of_isDigits h c hc

/-- So do the sign and the digits. -/
theorem isNumberChar_of_minus_or_digit {c : Char} (h : c = '-' ∨ c.isDigit = true) :
    isNumberChar c = true := by
  obtain rfl | h := h
  · rfl
  · simp [isNumberChar, h]

/-- What is left when the front is dropped begins with another character. -/
theorem dropWhile_cases (p : Char → Bool) (s : Str) :
    s.dropWhile p = [] ∨ ∃ c t, s.dropWhile p = c :: t ∧ p c = false := by
  cases hdrop : s.dropWhile p with
  | nil => exact .inl rfl
  | cons c t =>
      have hhead := List.head_dropWhile_not p (l := s) (by simp [hdrop])
      exact .inr ⟨c, t, rfl, by simpa [hdrop] using hhead⟩

/-- A float begins with a sign or a digit, and is no integer. -/
theorem isFloatToken_chars {s : Str} (h : isFloatToken s = true) :
    (∃ c t, s = c :: t ∧ (c = '-' ∨ c.isDigit = true)) ∧
      (∀ c ∈ s, isNumberChar c = true) ∧ isIntToken s = false := by
  simp only [isFloatToken, Bool.and_eq_true, Bool.or_eq_true, decide_eq_true_eq] at h
  obtain ⟨⟨⟨hwhole, hfrac⟩, hexp⟩, hsome⟩ := h
  have hs := List.takeWhile_append_dropWhile (p := fun c => c ≠ 'e' && c ≠ 'E') (l := s)
  have hexps := dropWhile_cases (fun c => c ≠ 'e' && c ≠ 'E') s
  generalize s.takeWhile (fun c => c ≠ 'e' && c ≠ 'E') = mantissa at *
  generalize s.dropWhile (fun c => c ≠ 'e' && c ≠ 'E') = exponent at *
  have hm := List.takeWhile_append_dropWhile (p := fun c => decide (c ≠ '.')) (l := mantissa)
  have hfracs := dropWhile_cases (fun c => decide (c ≠ '.')) mantissa
  generalize mantissa.takeWhile (fun c => decide (c ≠ '.')) = whole at *
  generalize mantissa.dropWhile (fun c => decide (c ≠ '.')) = frac at *
  obtain ⟨⟨c, t, rfl, hc⟩, hall⟩ := isIntToken_chars hwhole
  subst hm hs
  refine ⟨⟨c, t ++ frac ++ exponent, rfl, hc⟩, ?_, ?_⟩
  · intro d hd
    obtain (hd | hd) | hd := by simpa only [List.mem_append] using hd
    · exact isNumberChar_of_minus_or_digit (hall d hd)
    · obtain rfl | ⟨x, ds, rfl, hx⟩ := hfracs
      · simp at hd
      · obtain rfl | hd := List.mem_cons.mp hd
        · have hdot : d = '.' := by simpa using hx
          rw [hdot]
          rfl
        · exact isNumberChar_of_isDigits (hfrac.resolve_left (by simp)) d hd
    · obtain rfl | ⟨x, ds, rfl, hx⟩ := hexps
      · simp at hd
      · obtain rfl | hd := List.mem_cons.mp hd
        · have hmark : d = 'e' ∨ d = 'E' := by
            simp only [ne_eq, Bool.and_eq_false_iff, decide_eq_false_iff_not, not_not] at hx
            exact hx
          obtain rfl | rfl := hmark <;> rfl
        · exact isNumberChar_of_isExponent (hexp.resolve_left (by simp)) d hd
  · rw [← Bool.not_eq_true]
    intro hint
    have hchars := (isIntToken_chars hint).2
    obtain hsome | hsome := hsome
    · obtain rfl | ⟨x, ds, rfl, hx⟩ := hfracs
      · contradiction
      · have hdot : x = '.' := by simpa using hx
        have hbad := hchars x (by simp)
        rw [hdot] at hbad
        revert hbad
        decide
    · obtain rfl | ⟨x, ds, rfl, hx⟩ := hexps
      · contradiction
      · have hbad := hchars x (by simp)
        simp only [ne_eq, Bool.and_eq_false_iff, decide_eq_false_iff_not, not_not] at hx
        obtain rfl | rfl := hx
        · revert hbad
          decide
        · revert hbad
          decide

/-- Every text of an integer is one. -/
theorem isIntToken_intStr (i : Int) : isIntToken (intStr i) = true ∧ intOfToken (intStr i) = i := by
  have hnat : ∀ n : Nat, isNatToken (natStr n) = true := by
    intro n
    have hdigits : (natStr n).all Char.isDigit = true :=
      List.all_eq_true.mpr fun c hc => mem_natStr hc
    have hne := natStr_ne_nil n
    cases n with
    | zero => rfl
    | succ n =>
        have hhead : (natStr (n + 1)).head? ≠ some '0' := Octets.head_toDigits (by omega)
        simp [isNatToken, isDigits, hne, hdigits, hhead]
  have hvalue : ∀ n : Nat, natOfToken (natStr n) = n := fun n => Nat.ofDigitChars_ten_toDigits
  have hsign : ∀ n : Nat, isIntToken (natStr n) = isNatToken (natStr n) ∧
      intOfToken (natStr n) = natOfToken (natStr n) := by
    intro n
    have hminus : '-' ∉ natStr n := not_mem_natStr rfl
    cases hn : natStr n with
    | nil => exact ⟨rfl, rfl⟩
    | cons c t =>
        have hc : c ≠ '-' := by
          intro hc
          simp [hn, hc] at hminus
        unfold isIntToken intOfToken
        constructor
        · split
          · next heq => exact absurd (List.cons.inj heq).1 hc
          · rfl
        · split
          · next heq => exact absurd (List.cons.inj heq).1 hc
          · rfl
  cases i with
  | ofNat n => exact ⟨(hsign n).1.trans (hnat n), by rw [intStr, (hsign n).2, hvalue]; rfl⟩
  | negSucc n =>
      refine ⟨hnat (n + 1), ?_⟩
      rw [intStr, intOfToken, hvalue]
      rfl

/-! ## reading values -/

/-- Neither is whitespace. -/
theorem isWs_of_minus_or_digit {c : Char} (h : c = '-' ∨ c.isDigit = true) : isWs c = false := by
  obtain rfl | h := h
  · rfl
  · have hn := toNat_of_isDigit h
    have hws : ∀ d : Char, d.toNat < 48 → c ≠ d := by
      intro d hd heq
      rw [heq] at hn
      omega
    simp [isWs, hws]

/-- A sign or a digit is followed by the rest of a number. -/
theorem read_number {c : Char} (h : c = '-' ∨ c.isDigit = true) (n : Nat) (s : Str) :
    read (n + 1) (c :: s) = readNumber (c :: s) := by
  have hne : ∀ d : Char, d ≠ '-' → d.isDigit = false → c ≠ d := by
    intro d hd hdigit heq
    obtain rfl | h := h
    · exact hd heq.symm
    · rw [heq, hdigit] at h
      contradiction
  rw [read, skipWs_cons (isWs_of_minus_or_digit h)]
  split
  · next heq => exact absurd (List.cons.inj heq).1 (hne '[' (by decide) (by decide))
  · next heq => exact absurd (List.cons.inj heq).1 (hne '\x7b' (by decide) (by decide))
  · next heq => exact absurd (List.cons.inj heq).1 (hne '"' (by decide) (by decide))
  · have hn := hne 'n' (by decide) (by decide)
    have ht := hne 't' (by decide) (by decide)
    have hf := hne 'f' (by decide) (by decide)
    simp [readLiteral, lit, hn.symm, ht.symm, hf.symm]

/-- Only the text of a float is read as a float. -/
theorem isFloatToken_of_readNumber {s text rest : Str}
    (h : readNumber s = some (.float text, rest)) : isFloatToken text = true := by
  simp only [readNumber] at h
  split at h
  · simp at h
  · split at h
    · next hfloat =>
        obtain ⟨rfl, -⟩ := by simpa using h
        exact hfloat
    · contradiction

/-- What is read as a float is written as one. -/
theorem isFloatToken_of_read {n : Nat} {s text rest : Str}
    (h : read n s = some (.float text, rest)) : isFloatToken text = true := by
  cases n with
  | zero => contradiction
  | succ n =>
      unfold read at h
      split at h
      · simp at h
      · simp at h
      · simp at h
      · unfold readLiteral at h
        split at h
        · simp at h
        · split at h
          · simp at h
          · split at h
            · simp at h
            · exact isFloatToken_of_readNumber h

/-- A quoted string is recognized. -/
theorem recognizes_string (s : Text) : Recognizes readString (quoted s) s (!hasPair s) := by
  intro rest hends
  have hread : readString (quoted s ++ rest) = some (joinSurrogates s, rest) := by
    have hquoted : quoted s ++ rest =
        '"' :: (s.flatMap escapePointAscii ++ '"' :: rest) := by
      simp [quoted]
    rw [hquoted, readString, skipWs_cons rfl]
    simp [readPoints_escaped, joinSurrogates_flatMap_splitPoint]
  rw [hread, Bool.not_eq_true', ← joinSurrogates_eq_self_iff]
  constructor
  · intro h
    rw [h]
  · intro rest' h
    exact (Prod.mk.inj (Option.some.inj h)).1

/-- A member is recognized if its value is. -/
theorem recognizes_member {one : Str → Option (Details × Str)} {text : Str} {value : Details}
    {ok : Bool} (key : Text) (h : Recognizes one text value ok) :
    Recognizes (readMember one) (quoted key ++ ':' :: text) (key, value) (!hasPair key && ok) := by
  intro rest hends
  have hcolon : Ends (':' :: (text ++ rest)) := by
    intro c hc
    obtain rfl := Option.some.inj hc
    decide
  have hkey := recognizes_string key _ hcolon
  have hvalue := h rest hends
  rw [List.append_assoc, List.cons_append, Bool.and_eq_true]
  constructor
  · intro hok
    rw [readMember, hkey.1 hok.1, Option.bind_eq_bind, Option.bind_some]
    simp [skipWs_cons, isWs, hvalue.1 hok.2]
  · intro rest' heq
    rw [readMember] at heq
    obtain ⟨⟨key', after⟩, hkey', heq⟩ := Option.bind_eq_some_iff.mp heq
    dsimp only at heq
    split at heq
    · next after' hafter =>
        obtain ⟨⟨value', rest''⟩, hvalue', heq⟩ := Option.bind_eq_some_iff.mp heq
        obtain ⟨⟨rfl, rfl⟩, rfl⟩ := by simpa using heq
        have hok := hkey.2 after hkey'
        rw [hkey.1 hok] at hkey'
        obtain rfl := (Prod.mk.inj (Option.some.inj hkey')).2
        rw [skipWs_cons rfl] at hafter
        obtain rfl := (List.cons.inj hafter).2
        exact ⟨hok, hvalue.2 rest'' hvalue'⟩
    · contradiction

/-- The items are written one by one. -/
theorem compactItems_eq_map (float : Str → Str) (items : List Details) :
    compactItems float items = items.map (compact float) := by
  induction items with
  | nil => rfl
  | cons a items ih => rw [compactItems, ih, List.map_cons]

/-- The items are converted one by one. -/
theorem asJsonItems_eq_map (items : List Details) : asJsonItems items = items.map asJson := by
  induction items with
  | nil => rfl
  | cons a items ih => rw [asJsonItems, ih, List.map_cons]

/-- A list can be read if its items can. -/
theorem readableItems_eq_all (items : List Details) :
    readableItems items = items.all readable := by
  induction items with
  | nil => rfl
  | cons a items ih => rw [readableItems, ih, List.all_cons]

/-- The fields are written one by one. -/
theorem compactFields_eq_map (float : Str → Str) (fields : List (Text × Details)) :
    compactFields float fields = fields.map fun f => quoted f.1 ++ ':' :: compact float f.2 := by
  induction fields with
  | nil => rfl
  | cons f fields ih => rw [compactFields, ih, List.map_cons]

/-- The fields are converted one by one. -/
theorem asJsonFields_eq_map (fields : List (Text × Details)) :
    asJsonFields fields = fields.map fun f => (f.1, asJson f.2) := by
  induction fields with
  | nil => rfl
  | cons f fields ih => rw [asJsonFields, ih, List.map_cons]

/-- An object can be read if its fields can. -/
theorem readableFields_eq_all (fields : List (Text × Details)) :
    readableFields fields = fields.all fun f => !hasPair f.1 && readable f.2 := by
  induction fields with
  | nil => rfl
  | cons f fields ih => rw [readableFields, ih, List.all_cons]

/-- Every part is shorter than the whole, and there are no more parts than
characters. -/
theorem length_le_length_join (parts : List Str) :
    (∀ part ∈ parts, part.length ≤ (join (lit ",") parts).length) ∧
      parts.length ≤ (join (lit ",") parts).length + 1 := by
  induction parts with
  | nil => simp
  | cons x xs ih =>
      cases xs with
      | nil => simp [join]
      | cons y ys =>
          have hlen : (join (lit ",") (x :: y :: ys)).length =
              x.length + 1 + (join (lit ",") (y :: ys)).length := by
            simp [join, List.intercalate_cons_cons, lit]
            omega
          rw [hlen]
          constructor
          · intro part hpart
            obtain rfl | hpart := List.mem_cons.mp hpart
            · omega
            · have hle := ih.1 part hpart
              omega
          · have hle := ih.2
            simp only [List.length_cons] at hle ⊢
            omega

/-- A float that JSON has is written as it is. -/
theorem jsonFloat_eq_self {text : Str} (h : isFloatToken text = true) : jsonFloat text = text := by
  have hchars := (isFloatToken_chars h).2.1
  have hnan : text ≠ lit "nan" := by
    intro heq
    have hn := hchars 'n' (by simp [heq, lit])
    revert hn
    decide
  have hinf : ∀ t, text = t → 'i' ∉ t := by
    intro t heq hi
    have hn := hchars 'i' (by rw [heq]; exact hi)
    revert hn
    decide
  have hpos : text ≠ lit "inf" := fun heq => hinf _ heq (by decide)
  have hneg : text ≠ lit "-inf" := fun heq => hinf _ heq (by decide)
  simp [jsonFloat, hnan, hpos, hneg]

/-- The text of a finite float is written. -/
def KeepsFloats (float : Str → Str) : Prop := ∀ text, isFloatToken text = true → float text = text

/-- The writer keeps such floats. -/
theorem keepsFloats_jsonFloat : KeepsFloats jsonFloat := fun _ h => jsonFloat_eq_self h

section Floats

variable {float : Str → Str}

/-- A value that can be read begins with no white space and no bracket that
closes. -/
theorem head_compact (hfloat : KeepsFloats float) {a : Details} (h : readable a = true) :
    ∃ c s, compact float a = c :: s ∧ isWs c = false ∧ c ≠ ']' := by
  have hnumber : ∀ {c : Char}, c = '-' ∨ c.isDigit = true → isWs c = false ∧ c ≠ ']' := by
    intro c hc
    refine ⟨isWs_of_minus_or_digit hc, ?_⟩
    intro heq
    rw [heq] at hc
    revert hc
    decide
  cases a with
  | null => exact ⟨'n', _, rfl, by decide⟩
  | bool b =>
      cases b with
      | true => exact ⟨'t', _, rfl, by decide⟩
      | false => exact ⟨'f', _, rfl, by decide⟩
  | int i =>
      obtain ⟨c, t, heq, hc⟩ := (isIntToken_chars (isIntToken_intStr i).1).1
      exact ⟨c, t, heq, hnumber hc⟩
  | float text =>
      obtain ⟨c, t, heq, hc⟩ := (isFloatToken_chars h).1
      exact ⟨c, t, (hfloat text h).trans heq, hnumber hc⟩
  | str s => exact ⟨'"', _, rfl, by decide⟩
  | list items => exact ⟨'[', _, rfl, by decide⟩
  | tuple items => exact ⟨'[', _, rfl, by decide⟩
  | dict fields => exact ⟨'\x7b', _, rfl, by decide⟩

/-- An integer is recognized. -/
theorem recognizes_int (i : Int) (n : Nat) :
    Recognizes (read (n + 1)) (intStr i) (.int i) true := by
  intro rest hends
  obtain ⟨htoken, hvalue⟩ := isIntToken_intStr i
  obtain ⟨⟨c, t, heq, hc⟩, hall⟩ := isIntToken_chars htoken
  have hchars : ∀ d ∈ intStr i, isNumberChar d = true := fun d hd =>
    isNumberChar_of_minus_or_digit (hall d hd)
  have hsplit := takeWhile_token hchars hends
  have hread : read (n + 1) (intStr i ++ rest) = readNumber (intStr i ++ rest) := by
    rw [heq]
    exact read_number hc n (t ++ rest)
  refine ⟨?_, fun _ _ => rfl⟩
  intro _
  rw [hread]
  simp only [readNumber, hsplit.1, hsplit.2, htoken, hvalue, if_true]

/-- A float is recognized. -/
theorem recognizes_float (hfloat : KeepsFloats float) (text : Str) (n : Nat) :
    Recognizes (read (n + 1)) (float text) (.float text) (isFloatToken text) := by
  intro rest hends
  refine ⟨?_, fun rest' h => isFloatToken_of_read h⟩
  intro htoken
  obtain ⟨⟨c, t, heq, hc⟩, hchars, hint⟩ := isFloatToken_chars htoken
  have hsplit := takeWhile_token hchars hends
  have hread : read (n + 1) (text ++ rest) = readNumber (text ++ rest) := by
    rw [heq]
    exact read_number hc n (t ++ rest)
  rw [hfloat text htoken, hread]
  simp only [readNumber, hsplit.1, hsplit.2, htoken, hint, if_true]
  simp

/-- A list, if its items can be read. -/
theorem recognizes_list (hfloat : KeepsFloats float) {items : List Details} {n : Nat}
    (h : ∀ a ∈ items, Recognizes (read n) (compact float a) (asJson a) (readable a))
    (hn : items.length ≤ n) :
    Recognizes (read (n + 1)) ('[' :: join (lit ",") (compactItems float items) ++ [']'])
      (.list (asJsonItems items)) (readableItems items) := by
  intro rest hends
  have hread : read (n + 1) ('[' :: join (lit ",") (compactItems float items) ++ [']'] ++ rest) =
      (readMany (read n) ']' n (join (lit ",") (compactItems float items) ++ ']' :: rest)).map
        fun r => (.list r.1, r.2) := by
    rw [List.cons_append, List.cons_append, List.append_assoc, read, skipWs_cons rfl]
    rfl
  have hmany := readMany_join (by decide) (by decide) h
    (fun a _ hok => head_compact hfloat hok) hn rest
  rw [← compactItems_eq_map, ← asJsonItems_eq_map, ← readableItems_eq_all] at hmany
  rw [hread]
  constructor
  · intro hok
    rw [hmany.1 hok]
    rfl
  · intro rest' heq
    obtain ⟨⟨items', after⟩, hitems, heq⟩ := Option.map_eq_some_iff.mp heq
    obtain rfl := Details.list.inj (Prod.mk.inj heq).1
    exact hmany.2 after hitems

/-- A dictionary, if its values can be read. -/
theorem recognizes_dict {fields : List (Text × Details)} {n : Nat}
    (h : ∀ f ∈ fields, Recognizes (read n) (compact float f.2) (asJson f.2) (readable f.2))
    (hn : fields.length ≤ n) :
    Recognizes (read (n + 1)) ('\x7b' :: join (lit ",") (compactFields float fields) ++ ['\x7d'])
      (.dict (asJsonFields fields)) (readableFields fields) := by
  intro rest hends
  have hread : read (n + 1) ('\x7b' :: join (lit ",") (compactFields float fields) ++ ['\x7d'] ++ rest) =
      (readMany (readMember (read n)) '\x7d' n
        (join (lit ",") (compactFields float fields) ++ '\x7d' :: rest)).map
        fun r => (.dict r.1, r.2) := by
    rw [List.cons_append, List.cons_append, List.append_assoc, read, skipWs_cons rfl]
    rfl
  have hmembers : ∀ f ∈ fields, Recognizes (readMember (read n))
      (quoted f.1 ++ ':' :: compact float f.2) (f.1, asJson f.2) (!hasPair f.1 && readable f.2) :=
    fun f hf => recognizes_member f.1 (h f hf)
  have hhead : ∀ f ∈ fields, (!hasPair f.1 && readable f.2) = true →
      ∃ c s, quoted f.1 ++ ':' :: compact float f.2 = c :: s ∧ isWs c = false ∧ c ≠ '\x7d' :=
    fun f _ _ => ⟨'"', _, rfl, by decide⟩
  have hmany := readMany_join (by decide) (by decide) hmembers hhead hn rest
  rw [← compactFields_eq_map, ← asJsonFields_eq_map, ← readableFields_eq_all] at hmany
  rw [hread]
  constructor
  · intro hok
    rw [hmany.1 hok]
    rfl
  · intro rest' heq
    obtain ⟨⟨fields', after⟩, hfields, heq⟩ := Option.map_eq_some_iff.mp heq
    obtain rfl := Details.dict.inj (Prod.mk.inj heq).1
    exact hmany.2 after hfields

mutual

/-- The text of a structure is read as the structure, exactly if it is one that
can be read. -/
theorem recognizes (hfloat : KeepsFloats float) (a : Details) {n : Nat}
    (hn : (compact float a).length < n) :
    Recognizes (read n) (compact float a) (asJson a) (readable a) := by
  obtain ⟨n, rfl⟩ := Nat.exists_eq_add_of_le' (Nat.zero_lt_of_lt hn)
  have hlist : ∀ items : List Details,
      ('[' :: join (lit ",") (compactItems float items) ++ [']']).length < n + 1 →
      (∀ a ∈ items, (compact float a).length < n) ∧ items.length ≤ n := by
    intro items hlt
    have hlen := length_le_length_join (compactItems float items)
    rw [compactItems_eq_map] at hlen hlt
    simp only [List.length_append, List.length_cons, List.length_nil, List.length_map] at hlen hlt
    refine ⟨?_, by omega⟩
    intro a ha
    have hle := hlen.1 (compact float a) (List.mem_map_of_mem ha)
    omega
  cases a with
  | null => exact fun rest hends => ⟨fun _ => rfl, fun _ _ => rfl⟩
  | bool b =>
      cases b with
      | true => exact fun rest hends => ⟨fun _ => rfl, fun _ _ => rfl⟩
      | false => exact fun rest hends => ⟨fun _ => rfl, fun _ _ => rfl⟩
  | int i => exact recognizes_int i n
  | float text => exact recognizes_float hfloat text n
  | str s =>
      intro rest hends
      have hstring := recognizes_string s rest hends
      have hread : read (n + 1) (quoted s ++ rest) =
          (readString (quoted s ++ rest)).map fun r => (.str r.1, r.2) := by
        unfold quoted
        rw [List.cons_append, List.cons_append, read, skipWs_cons rfl]
        rfl
      show (_ → read (n + 1) (quoted s ++ rest) = _) ∧
        ∀ rest', read (n + 1) (quoted s ++ rest) = _ → _
      rw [hread]
      constructor
      · intro hok
        rw [hstring.1 hok]
        rfl
      · intro rest' heq
        obtain ⟨⟨s', after⟩, hs, heq⟩ := Option.map_eq_some_iff.mp heq
        obtain rfl := Details.str.inj (Prod.mk.inj heq).1
        exact hstring.2 after hs
  | list items =>
      obtain ⟨hlens, hcount⟩ := hlist items hn
      exact recognizes_list hfloat (fun a ha => recognizesItems hfloat items a ha (hlens a ha)) hcount
  | tuple items =>
      obtain ⟨hlens, hcount⟩ := hlist items hn
      exact recognizes_list hfloat (fun a ha => recognizesItems hfloat items a ha (hlens a ha)) hcount
  | dict fields =>
      have hlt : ('\x7b' :: join (lit ",") (compactFields float fields) ++ ['\x7d']).length < n + 1 := hn
      have hlen := length_le_length_join (compactFields float fields)
      rw [compactFields_eq_map] at hlen hlt
      simp only [List.length_append, List.length_cons, List.length_nil, List.length_map] at hlen hlt
      refine recognizes_dict (fun f hf => recognizesFields hfloat fields f hf ?_) (by omega)
      have hle := hlen.1 _ (List.mem_map_of_mem hf)
      simp only [List.length_append, List.length_cons] at hle
      omega

/-- The items of a list are recognized. -/
theorem recognizesItems (hfloat : KeepsFloats float) (items : List Details) :
    ∀ a ∈ items, ∀ {n : Nat}, (compact float a).length < n →
      Recognizes (read n) (compact float a) (asJson a) (readable a) := by
  intro a ha n hn
  cases items with
  | nil => contradiction
  | cons x xs =>
      by_cases heq : a = x
      · rw [heq] at hn ⊢
        exact recognizes hfloat x hn
      · exact recognizesItems hfloat xs a ((List.mem_cons.mp ha).resolve_left heq) hn

/-- The fields of an object are recognized. -/
theorem recognizesFields (hfloat : KeepsFloats float) (fields : List (Text × Details)) :
    ∀ f ∈ fields, ∀ {n : Nat}, (compact float f.2).length < n →
      Recognizes (read n) (compact float f.2) (asJson f.2) (readable f.2) := by
  intro f hf n hn
  cases fields with
  | nil => contradiction
  | cons x xs =>
      obtain ⟨key, value⟩ := x
      by_cases heq : f = (key, value)
      · rw [heq] at hn ⊢
        exact recognizes hfloat value hn
      · exact recognizesFields hfloat xs f ((List.mem_cons.mp hf).resolve_left heq) hn

end

/-- Exactly the readable structures are read back. -/
theorem parseJson_compact_iff (hfloat : KeepsFloats float) (a : Details) :
    parseJson (compact float a) = some (asJson a) ↔ readable a = true := by
  have hends : Ends [] := by simp [Ends]
  have h := recognizes hfloat a (Nat.lt_succ_self _) [] hends
  rw [List.append_nil] at h
  constructor
  · intro hparse
    unfold parseJson at hparse
    split at hparse
    · next value rest hread =>
        split at hparse
        · obtain rfl := Option.some.inj hparse
          exact h.2 rest hread
        · contradiction
    · contradiction
  · intro hok
    rw [parseJson, h.1 hok]
    rfl

end Floats

/-! ## other ways to write floats -/

/-- A mapping of joined parts. -/
theorem map_join (g : Char → Char) (sep : Str) (parts : List Str) :
    (join sep parts).map g = join (sep.map g) (parts.map (List.map g)) := by
  induction parts with
  | nil => rfl
  | cons part parts ih =>
      cases parts with
      | nil => simp [join]
      | cons next parts =>
          rw [List.map_cons, List.map_cons, join, join, List.intercalate_cons_cons,
            List.intercalate_cons_cons, List.map_append, List.map_append, ← List.map_cons]
          exact congrArg _ ih

/-- ASCII is left alone. -/
def KeepsAscii (g : Char → Char) : Prop := ∀ c, isAscii c = true → g c = c

section Map

variable {g : Char → Char}

/-- A mapping that keeps ASCII keeps ASCII text. -/
theorem map_of_isAscii (hg : KeepsAscii g) {s : Str} (h : ∀ c ∈ s, isAscii c = true) : s.map g = s := by
  have hid : s.map g = s.map id := List.map_congr_left fun c hc => hg c (h c hc)
  rw [hid, List.map_id]

/-- It keeps what is quoted. -/
theorem map_quoted (hg : KeepsAscii g) (s : Text) : (quoted s).map g = quoted s :=
  map_of_isAscii hg fun _ hc => isAscii_of_mem_quoted hc

mutual

/-- What leaves ASCII alone changes the texts of floats only. -/
theorem map_compact (hg : KeepsAscii g) (float : Str → Str) (a : Details) :
    (compact float a).map g = compact (fun text => (float text).map g) a := by
  have hlit : ∀ {s : Str}, s.all isAscii = true → s.map g = s := fun h =>
    map_of_isAscii hg (List.all_eq_true.mp h)
  have hcomma : (lit ",").map g = lit "," := hlit rfl
  have hopen : g '[' = '[' := hg _ rfl
  have hclose : g ']' = ']' := hg _ rfl
  cases a with
  | null => exact hlit rfl
  | bool b => cases b <;> exact hlit rfl
  | int i =>
      refine map_of_isAscii hg fun c hc => ?_
      obtain rfl | hdigit := mem_intStr hc
      · rfl
      · have hn := toNat_of_isDigit hdigit
        simp only [isAscii, decide_eq_true_eq]
        omega
  | float text => simp [compact]
  | str s => exact map_quoted hg s
  | list items => simp [compact, map_join, hcomma, hopen, hclose, map_compactItems hg float items]
  | tuple items => simp [compact, map_join, hcomma, hopen, hclose, map_compactItems hg float items]
  | dict fields =>
      have hbrace : g '\x7b' = '\x7b' := hg _ rfl
      have hbrace' : g '\x7d' = '\x7d' := hg _ rfl
      simp [compact, map_join, hcomma, hbrace, hbrace', map_compactFields hg float fields]

/-- It maps the floats of a list only. -/
theorem map_compactItems (hg : KeepsAscii g) (float : Str → Str) (items : List Details) :
    (compactItems float items).map (List.map g) =
      compactItems (fun text => (float text).map g) items := by
  cases items with
  | nil => rfl
  | cons a items =>
      rw [compactItems, List.map_cons, map_compact hg float a, map_compactItems hg float items,
        compactItems]

/-- It maps the floats of an object only. -/
theorem map_compactFields (hg : KeepsAscii g) (float : Str → Str) (fields : List (Text × Details)) :
    (compactFields float fields).map (List.map g) =
      compactFields (fun text => (float text).map g) fields := by
  cases fields with
  | nil => rfl
  | cons field fields =>
      obtain ⟨key, a⟩ := field
      have hcolon : g ':' = ':' := hg _ rfl
      rw [compactFields, List.map_cons, List.map_append, List.map_cons, hcolon, map_quoted hg,
        map_compact hg float a, map_compactFields hg float fields, compactFields]

end

end Map

end ApiToDns.Dumps
