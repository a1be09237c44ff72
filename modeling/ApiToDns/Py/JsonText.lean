import ApiToDns.Py.CodePoints

/-!
# Py.JsonText

Reading the strings of a JSON text (RFC 8259), and what is read of the strings
that `json.dumps` writes with `ensure_ascii=True`.

* `readPoints_escaped` — every text is read back, a character that needs two
  code units in two halves;
* `joinSurrogates_eq_self_iff` — putting the halves together leaves a text
  alone exactly if it has no pair of surrogates of its own.
-/

namespace Py.JsonText

/-! ## reading -/

/-- The value of a hexadecimal digit. -/
def hexValue (c : Char) : Option Nat :=
  if '0'.toNat ≤ c.toNat ∧ c.toNat ≤ '9'.toNat then some (c.toNat - 48)
  else if 'a'.toNat ≤ c.toNat ∧ c.toNat ≤ 'f'.toNat then some (c.toNat - 87)
  else if 'A'.toNat ≤ c.toNat ∧ c.toNat ≤ 'F'.toNat then some (c.toNat - 55)
  else none

/-- The code unit of four hexadecimal digits. -/
def unitOf (a b c d : Char) : Option Nat := do
  let a ← hexValue a
  let b ← hexValue b
  let c ← hexValue c
  let d ← hexValue d
  some (4096 * a + 256 * b + 16 * c + d)

/-- A code unit by itself. -/
def pointOf (u : Nat) : CodePoint :=
  if h : 0xD800 ≤ u ∧ u < 0xE000 then .surrogate ⟨u - 0xD800, by omega⟩ else .char (Char.ofNat u)

/-- A character after a backslash. -/
def unescape (c : Char) : Option Char :=
  if c = '"' ∨ c = '\\' ∨ c = '/' then some c
  else if c = 'b' then some (Char.ofNat 8)
  else if c = 'f' then some (Char.ofNat 12)
  else if c = 'n' then some '\n'
  else if c = 'r' then some '\r'
  else if c = 't' then some '\t'
  else none

/-- The code points before a closing quote, and what follows it. -/
def readPoints : Str → Option (Text × Str)
  | [] => none
  | '"' :: s => some ([], s)
  | '\\' :: 'u' :: a :: b :: c :: d :: s => do
      let u ← unitOf a b c d
      let (points, rest) ← readPoints s
      some (pointOf u :: points, rest)
  | '\\' :: e :: s => do
      let c ← unescape e
      let (points, rest) ← readPoints s
      some (.char c :: points, rest)
  | c :: s =>
      if c.toNat < 32 then none
      else do
        let (points, rest) ← readPoints s
        some (.char c :: points, rest)

/-- A high surrogate and a low one stand for a character. -/
def joinPoint : CodePoint → Text → Text
  | .surrogate h, .surrogate l :: s =>
      if h.val < 1024 ∧ 1024 ≤ l.val then
        .char (Char.ofNat (0x10000 + 1024 * h.val + (l.val - 1024))) :: s
      else .surrogate h :: .surrogate l :: s
  | p, s => p :: s

def joinSurrogates (s : Text) : Text := s.foldr joinPoint []

/-- A high surrogate stands before a low one. -/
def isPair : CodePoint → Text → Bool
  | .surrogate h, .surrogate l :: _ => decide (h.val < 1024 ∧ 1024 ≤ l.val)
  | _, _ => false

/-- Somewhere a high surrogate stands before a low one. -/
def hasPair : Text → Bool
  | [] => false
  | p :: s => isPair p s || hasPair s

/-- A string has no pair of surrogates. -/
theorem hasPair_ofStr (s : Str) : hasPair (Text.ofStr s) = false := by
  induction s with
  | nil => rfl
  | cons c s ih => exact ih

/-- Surrogates in the place of a character that needs two code units. -/
def splitPoint : CodePoint → Text
  | .char c => (Utf16.unitsOf c).map pointOf
  | .surrogate n => [.surrogate n]

/-- A character is joined with nothing. -/
theorem joinPoint_char (c : Char) (s : Text) : joinPoint (.char c) s = .char c :: s := by
  cases s <;> rfl

/-- A low surrogate is joined with nothing behind it. -/
theorem joinPoint_low {n : Fin 2048} (h : 1024 ≤ n.val) (s : Text) :
    joinPoint (.surrogate n) s = .surrogate n :: s := by
  cases s with
  | nil => rfl
  | cons p s =>
      cases p with
      | char c => rfl
      | surrogate l =>
          rw [joinPoint, if_neg]
          omega

/-- A code point stays if it starts no pair. -/
theorem joinPoint_eq_cons_iff {p : CodePoint} {s t : Text} :
    joinPoint p s = p :: t ↔ s = t ∧ isPair p s = false := by
  unfold joinPoint
  split
  · next h l s =>
      by_cases hpair : h.val < 1024 ∧ 1024 ≤ l.val
      · simp [isPair, hpair]
      · rw [if_neg hpair]
        simp [isPair, hpair]
  · next hother =>
      have hnone : isPair p s = false := by
        unfold isPair
        split
        · next h l s => exact absurd rfl (hother h l s rfl)
        · rfl
      simp [hnone]

/-- A text without such a pair is left alone, and only such a text. -/
theorem joinSurrogates_eq_self_iff (s : Text) : joinSurrogates s = s ↔ hasPair s = false := by
  induction s with
  | nil => simp [joinSurrogates, hasPair]
  | cons p s ih =>
      have hcons : joinSurrogates (p :: s) = joinPoint p (joinSurrogates s) := rfl
      rw [hcons, joinPoint_eq_cons_iff, hasPair, Bool.or_eq_false_iff, ← ih]
      constructor
      · intro h
        have hself := h.1
        rw [hself] at h
        exact ⟨h.2, hself⟩
      · intro h
        rw [h.2]
        exact ⟨rfl, h.1⟩

/-- The halves of a character are put together. -/
theorem joinPoint_splitPoint (p : CodePoint) (s : Text) :
    (splitPoint p).foldr joinPoint s = joinPoint p s := by
  cases p with
  | surrogate n => rfl
  | char c =>
      by_cases hsmall : c.toNat < 0x10000
      · have hpoint : pointOf c.toNat = .char c := by
          rw [pointOf, dif_neg, Char.ofNat_toNat]
          have : c.toNat.isValidChar := c.valid
          simp only [Nat.isValidChar] at this
          omega
        simp [splitPoint, Utf16.unitsOf, hsmall, hpoint]
      · have hmax : c.toNat < 0x110000 := by
          have : c.toNat.isValidChar := c.valid
          simp only [Nat.isValidChar] at this
          omega
        have hhigh : pointOf (0xD800 + (c.toNat - 0x10000) / 0x400) =
            .surrogate ⟨(c.toNat - 0x10000) / 0x400, by omega⟩ := by
          rw [pointOf, dif_pos (by omega)]
          simp
        have hlow : pointOf (0xDC00 + (c.toNat - 0x10000) % 0x400) =
            .surrogate ⟨1024 + (c.toNat - 0x10000) % 0x400, by omega⟩ := by
          rw [pointOf, dif_pos (by omega)]
          rw [CodePoint.surrogate.injEq, Fin.mk.injEq]
          omega
        have hvalue : 0x10000 + 1024 * ((c.toNat - 0x10000) / 0x400) +
            (1024 + (c.toNat - 0x10000) % 0x400 - 1024) = c.toNat := by
          omega
        have hpair : (c.toNat - 0x10000) / 0x400 < 1024 := by omega
        have hsecond : joinPoint (.surrogate ⟨1024 + (c.toNat - 0x10000) % 0x400, by omega⟩) s =
            .surrogate ⟨1024 + (c.toNat - 0x10000) % 0x400, by omega⟩ :: s :=
          joinPoint_low (Nat.le_add_right 1024 _) s
        rw [splitPoint, Utf16.unitsOf, if_neg hsmall, List.map_cons, List.map_singleton, hhigh,
          hlow, List.foldr_cons, List.foldr_cons, List.foldr_nil,
          hsecond, joinPoint,
          if_pos ⟨hpair, Nat.le_add_right 1024 _⟩, joinPoint_char, hvalue, Char.ofNat_toNat]

/-- Splitting characters into surrogates is undone by joining. -/
theorem joinSurrogates_flatMap_splitPoint (s : Text) :
    joinSurrogates (s.flatMap splitPoint) = joinSurrogates s := by
  induction s with
  | nil => rfl
  | cons p s ih =>
      rw [List.flatMap_cons, joinSurrogates, List.foldr_append, joinPoint_splitPoint]
      exact congrArg (joinPoint p) ih

/-! ## quoted strings -/

/-- A hexadecimal digit has its value. -/
theorem hexValue_digitChar {d : Nat} (h : d < 16) : hexValue d.digitChar = some d := by
  revert h
  revert d
  decide

/-- The four digits of a code unit. -/
theorem hexPad_four {u : Nat} (h : u < 0x10000) :
    Ucd.hexPad 4 u = [(u / 4096).digitChar, (u / 256 % 16).digitChar, (u / 16 % 16).digitChar,
      (u % 16).digitChar] := by
  have hzero : (0 : Nat).digitChar = '0' := rfl
  unfold Ucd.hexPad hexStr
  rw [Nat.toDigits_eq_if (by omega)]
  split
  · next h1 =>
      have h4096 : u / 4096 = 0 := by omega
      have h256 : u / 256 % 16 = 0 := by omega
      have h16 : u / 16 % 16 = 0 := by omega
      have h0 : u % 16 = u := by omega
      simp [h4096, h256, h16, h0, hzero, List.replicate]
  · rw [Nat.toDigits_eq_if (by omega)]
    split
    · next h1 h2 =>
        have h4096 : u / 4096 = 0 := by omega
        have h256 : u / 256 % 16 = 0 := by omega
        have h16 : u / 16 % 16 = u / 16 := by omega
        simp [h4096, h256, h16, hzero, List.replicate]
    · rw [Nat.toDigits_eq_if (by omega)]
      split
      · next h1 h2 h3 =>
          have h4096 : u / 4096 = 0 := by omega
          have h256 : u / 256 % 16 = u / 16 / 16 := by omega
          simp [h4096, h256, hzero]
      · rw [Nat.toDigits_of_lt_base (by omega)]
        have h4096 : u / 4096 = u / 16 / 16 / 16 := by omega
        have h256 : u / 256 % 16 = u / 16 / 16 % 16 := by omega
        simp [h4096, h256]

/-- An escaped code unit is read back. -/
theorem readPoints_unit {u : Nat} (h : u < 0x10000) (s : Str) :
    readPoints (lit "\\u" ++ Ucd.hexPad 4 u ++ s) =
      (readPoints s).map fun r => (pointOf u :: r.1, r.2) := by
  have hunit : unitOf (u / 4096).digitChar (u / 256 % 16).digitChar (u / 16 % 16).digitChar
      (u % 16).digitChar = some u := by
    unfold unitOf
    rw [hexValue_digitChar (by omega), hexValue_digitChar (by omega),
      hexValue_digitChar (by omega), hexValue_digitChar (by omega)]
    simp only [Option.bind_some, Option.bind_eq_bind, Option.some.injEq]
    omega
  rw [hexPad_four h]
  show readPoints ('\\' :: 'u' :: _ :: _ :: _ :: _ :: s) = _
  rw [readPoints, hunit]
  cases readPoints s with
  | none => rfl
  | some r => rfl

/-- A code unit has 16 bits. -/
theorem lt_of_mem_unitsOf {c : Char} {u : Nat} (h : u ∈ Utf16.unitsOf c) :
    u < 0x10000 := by
  have hmax : c.toNat < 0x110000 := by
    have : c.toNat.isValidChar := c.valid
    simp only [Nat.isValidChar] at this
    omega
  unfold Utf16.unitsOf at h
  split at h
  · simp at h
    omega
  · simp at h
    omega

/-- Escaped code units are read back. -/
theorem readPoints_units {us : List Nat} (h : ∀ u ∈ us, u < 0x10000) (s : Str) :
    readPoints ((us.flatMap fun u => lit "\\u" ++ Ucd.hexPad 4 u) ++ s) =
      (readPoints s).map fun r => (us.map pointOf ++ r.1, r.2) := by
  induction us with
  | nil => cases hs : readPoints s <;> simp [hs]
  | cons u us ih =>
      rw [List.flatMap_cons, List.append_assoc, readPoints_unit (h u (by simp)),
        ih fun v hv => h v (by simp [hv])]
      cases readPoints s with
      | none => rfl
      | some r => rfl

/-- One character that has a short escape. -/
theorem readPoints_escape {e c : Char} (hne : e ≠ 'u') (h : unescape e = some c) (s : Str) :
    readPoints ('\\' :: e :: s) = (readPoints s).map fun r => (.char c :: r.1, r.2) := by
  rw [readPoints, h]
  · cases readPoints s with
    | none => rfl
    | some r => rfl
  · intro a b c d s' hu
    exact absurd hu hne

/-- A character that needs no escape is read as it is. -/
theorem readPoints_plain {c : Char} (hquote : c ≠ '"') (hslash : c ≠ '\\')
    (hplain : 32 ≤ c.toNat) (s : Str) :
    readPoints (c :: s) = (readPoints s).map fun r => (.char c :: r.1, r.2) := by
  rw [readPoints, if_neg (by omega)]
  · cases readPoints s with
    | none => rfl
    | some r => rfl
  all_goals simp_all

/-- The three ways to write a character. -/
theorem escapePointAscii_char (c : Char) :
    (∃ e, e ≠ 'u' ∧ unescape e = some c ∧ c.toNat < 0x80 ∧
      escapePointAscii (.char c) = ['\\', e]) ∨
    (c ≠ '"' ∧ c ≠ '\\' ∧ 32 ≤ c.toNat ∧ c.toNat < 0x80 ∧
      escapePointAscii (.char c) = [c]) ∨
    escapePointAscii (.char c) =
      (Utf16.unitsOf c).flatMap fun u => lit "\\u" ++ Ucd.hexPad 4 u := by
  by_cases hshort : c ∈ ['"', '\\', '\n', '\r', '\t', Char.ofNat 12, Char.ofNat 8]
  · refine .inl ?_
    simp only [List.mem_cons, List.not_mem_nil, or_false] at hshort
    obtain rfl | rfl | rfl | rfl | rfl | rfl | rfl := hshort
    · exact ⟨'"', by decide⟩
    · exact ⟨'\\', by decide⟩
    · exact ⟨'n', by decide⟩
    · exact ⟨'r', by decide⟩
    · exact ⟨'t', by decide⟩
    · exact ⟨'f', by decide⟩
    · exact ⟨'b', by decide⟩
  · refine .inr ?_
    have hne : ∀ n, n ∈ [8, 12] → c.toNat ≠ n := by
      intro n hn heq
      have hc : c = Char.ofNat n := by rw [← heq, Char.ofNat_toNat]
      rw [hc] at hshort
      simp only [List.mem_cons, List.not_mem_nil, or_false] at hn
      obtain rfl | rfl := hn <;> simp at hshort
    have hescape : escapeChar c =
        if c.toNat < 32 then lit "\\u" ++ Ucd.hexPad 4 c.toNat else [c] := by
      simp only [List.mem_cons, not_or] at hshort
      simp [escapeChar, hshort, hne]
    simp only [List.mem_cons, not_or] at hshort
    by_cases hplain : 32 ≤ c.toNat ∧ c.toNat < 127
    · refine .inl ⟨hshort.1, hshort.2.1, hplain.1, by omega, ?_⟩
      rw [escapePointAscii, if_pos (.inl hplain), hescape, if_neg (by omega)]
    · refine .inr ?_
      by_cases hcontrol : c.toNat < 32
      · have hunits : Utf16.unitsOf c = [c.toNat] := if_pos (by omega)
        rw [escapePointAscii, if_pos, hescape, if_pos hcontrol, hunits,
          List.flatMap_singleton]
        refine .inr ?_
        rw [hescape, if_pos hcontrol]
        simp [lit]
      · rw [escapePointAscii, if_neg]
        rw [hescape, if_neg hcontrol]
        simpa using hplain

/-- What is written for a code point is read back, a character that needs two
code units in two halves. -/
theorem readPoints_escapePointAscii (p : CodePoint) (s : Str) :
    readPoints (escapePointAscii p ++ s) =
      (readPoints s).map fun r => (splitPoint p ++ r.1, r.2) := by
  have hchar : ∀ c : Char, c.toNat < 0x80 → splitPoint (.char c) = [.char c] := by
    intro c hc
    have hpoint : pointOf c.toNat = .char c := by
      rw [pointOf, dif_neg (by omega), Char.ofNat_toNat]
    have hunits : Utf16.unitsOf c = [c.toNat] := if_pos (by omega)
    rw [splitPoint, hunits, List.map_singleton, hpoint]
  cases p with
  | surrogate n =>
      have hpoint : pointOf (0xD800 + n) = .surrogate n := by
        rw [pointOf, dif_pos (by omega)]
        simp
      rw [escapePointAscii, readPoints_unit (by omega), hpoint]
      rfl
  | char c =>
      obtain ⟨e, hne, hun, hsmall, heq⟩ | ⟨hquote, hslash, hplain, hsmall, heq⟩ | heq :=
        escapePointAscii_char c
      · rw [heq, hchar c hsmall]
        exact readPoints_escape hne hun s
      · rw [heq, hchar c hsmall]
        exact readPoints_plain hquote hslash hplain s
      · rw [heq, splitPoint]
        exact readPoints_units (fun u hu => lt_of_mem_unitsOf hu) s

/-- A quoted string, as characters. -/
def quoted (s : Text) : Str := '"' :: s.flatMap escapePointAscii ++ ['"']

/-- An escaped text is read back, in surrogates. -/
theorem readPoints_escaped (s : Text) (rest : Str) :
    readPoints (s.flatMap escapePointAscii ++ '"' :: rest) =
      some (s.flatMap splitPoint, rest) := by
  induction s with
  | nil => rfl
  | cons p s ih =>
      rw [List.flatMap_cons, List.append_assoc, readPoints_escapePointAscii, ih]
      rfl

/-! ## ASCII -/

/-- Escapes are ASCII. -/
theorem isAscii_of_unescape {e c : Char} (h : unescape e = some c) : isAscii e = true := by
  unfold unescape at h
  split at h
  · next heq => obtain rfl | rfl | rfl := heq <;> rfl
  all_goals repeat' split at h
  all_goals first | contradiction | (next heq => rw [heq]; rfl)

/-- An escaped code unit is ASCII. -/
theorem isAscii_of_mem_unit {u : Nat} (hu : u < 0x10000) {c : Char}
    (h : c ∈ lit "\\u" ++ Ucd.hexPad 4 u) : isAscii c = true := by
  have hdigit : ∀ d < 16, isAscii d.digitChar = true := by decide
  obtain h | h := List.mem_append.mp h
  · exact forall_mem_of_all (by decide : (lit "\\u").all fun c => isAscii c = true) c h
  · rw [hexPad_four hu] at h
    simp only [List.mem_cons, List.not_mem_nil, or_false] at h
    obtain rfl | rfl | rfl | rfl := h <;> exact hdigit _ (by omega)

/-- What `json.dumps` quotes is ASCII. -/
theorem isAscii_of_mem_quoted {s : Text} {c : Char} (h : c ∈ quoted s) : isAscii c = true := by
  have hunits : ∀ {us : List Nat}, (∀ u ∈ us, u < 0x10000) →
      c ∈ us.flatMap (fun u => lit "\\u" ++ Ucd.hexPad 4 u) → isAscii c = true := by
    intro us hus hmem
    obtain ⟨u, hu, hmem⟩ := List.mem_flatMap.mp hmem
    exact isAscii_of_mem_unit (hus u hu) hmem
  have hpoint : ∀ p, c ∈ escapePointAscii p → isAscii c = true := by
    intro p hmem
    cases p with
    | surrogate n => exact isAscii_of_mem_unit (by omega) hmem
    | char d =>
        obtain ⟨e, -, hun, -, heq⟩ | ⟨-, -, -, hsmall, heq⟩ | heq := escapePointAscii_char d
        · rw [heq] at hmem
          obtain rfl | hmem := List.mem_cons.mp hmem
          · rfl
          · rw [List.mem_singleton.mp hmem]
            exact isAscii_of_unescape hun
        · rw [heq] at hmem
          rw [List.mem_singleton.mp hmem]
          simpa [isAscii] using hsmall
        · rw [heq] at hmem
          exact hunits (fun u hu => lt_of_mem_unitsOf hu) hmem
  unfold quoted at h
  rw [List.cons_append] at h
  obtain rfl | h := List.mem_cons.mp h
  · rfl
  · obtain h | h := List.mem_append.mp h
    · obtain ⟨p, -, hmem⟩ := List.mem_flatMap.mp h
      exact hpoint p hmem
    · rw [List.mem_singleton.mp h]
      rfl

end Py.JsonText
