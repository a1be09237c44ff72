import ApiToDns.Py.Str

/-!
# Py.Utf8

`str.encode()` and `bytes.decode("utf-8")`, strict and with
`errors="replace"` or `errors="ignore"`.

A decoding step consumes its first byte and continuation bytes only
(`isCont_of_mem_taken`), so bytes that were put together from encoded
characters and single bytes decode to at most one character for each of them.
-/

namespace Py

namespace Utf8

/-- `s.encode()`. -/
def encode (s : Str) : List UInt8 := s.flatMap String.utf8EncodeChar

/-- A continuation byte. -/
def isCont (b : UInt8) : Bool := 0x80 ≤ b && b < 0xC0

/-- The byte may follow the first byte `b` of a sequence of three or four. -/
def isSecond (b b₂ : UInt8) : Bool :=
  isCont b₂ &&
    (if b = 0xE0 then 0xA0 ≤ b₂
    else if b = 0xED then b₂ < 0xA0
    else if b = 0xF0 then 0x90 ≤ b₂
    else if b = 0xF4 then b₂ < 0x90
    else 0xE0 ≤ b && b < 0xF4)

/-- How many of the bytes after `b` belong to an ill-formed sequence that
starts with `b`. -/
def badTail (b : UInt8) : List UInt8 → Nat
  | [] => 0
  | b₂ :: rest =>
      if isSecond b b₂ then
        if 0xF0 ≤ b && rest.head?.any isCont then 2 else 1
      else 0

/-- The replacement character. -/
def replacement : Char := Char.ofNat 0xFFFD

/-- The character that starts at `b`, and how many of the bytes after `b` it
takes. -/
def head (b : UInt8) (rest : List UInt8) : Char × Nat :=
  match (b :: rest).toByteArray.utf8DecodeChar? 0 with
  | some c => (c, c.utf8Size - 1)
  | none => (replacement, badTail b rest)

/-- Decode after skipping some bytes. -/
def decodeFrom : Nat → List UInt8 → Str
  | _, [] => []
  | skip + 1, _ :: rest => decodeFrom skip rest
  | 0, b :: rest => (head b rest).1 :: decodeFrom (head b rest).2 rest

/-- `bs.decode("utf-8", errors="replace")`. -/
def decode (bs : List UInt8) : Str := decodeFrom 0 bs

/-- Decode after skipping some bytes, without ill-formed sequences. -/
def decodeIgnoreFrom : Nat → List UInt8 → Str
  | _, [] => []
  | skip + 1, _ :: rest => decodeIgnoreFrom skip rest
  | 0, b :: rest =>
      match (b :: rest).toByteArray.utf8DecodeChar? 0 with
      | some c => c :: decodeIgnoreFrom (c.utf8Size - 1) rest
      | none => decodeIgnoreFrom (badTail b rest) rest

/-- `bs.decode("utf-8", errors="ignore")`. -/
def decodeIgnore (bs : List UInt8) : Str := decodeIgnoreFrom 0 bs

/-- `bs.decode("utf-8")`; `none` if it raises. -/
def decodeStrict (bs : List UInt8) : Option Str :=
  if encode (decode bs) = bs then some (decode bs) else none

@[simp] theorem encode_nil : encode [] = [] := rfl

/-- The octets of the first character come first. -/
@[simp] theorem encode_cons (c : Char) (s : Str) :
    encode (c :: s) = String.utf8EncodeChar c ++ encode s := List.flatMap_cons

/-- The octets of a concatenation. -/
@[simp] theorem encode_append (s t : Str) : encode (s ++ t) = encode s ++ encode t :=
  List.flatMap_append

@[simp] theorem decode_nil : decode [] = [] := rfl

/-- The first octet decides how many are skipped. -/
theorem decode_cons (b : UInt8) (rest : List UInt8) :
    decode (b :: rest) = (head b rest).1 :: decodeFrom (head b rest).2 rest := rfl

/-! ## encoded characters -/

/-- The byte array of a concatenation. -/
theorem toByteArray_append (bs cs : List UInt8) :
    (bs ++ cs).toByteArray = bs.toByteArray ++ cs.toByteArray := by
  simp

/-- The continuation octets. -/
theorem isCont_iff {b : UInt8} : isCont b = true ↔ 0x80 ≤ b.toNat ∧ b.toNat < 0xC0 := by
  simp [isCont, UInt8.le_iff_toNat_le, UInt8.lt_iff_toNat_lt]

/-- Six bits make a continuation octet. -/
theorem isCont_ofNat {n : Nat} (h : n < 64) : isCont (UInt8.ofNat (n + 0x80)) = true := by
  rw [isCont_iff, UInt8.toNat_ofNat']
  omega

/-- The other octets are none. -/
theorem not_isCont_ofNat {n : Nat} (h : n < 0x80 ∨ 0xC0 ≤ n ∧ n < 0x100) :
    isCont (UInt8.ofNat n) = false := by
  rw [Bool.eq_false_iff, ne_eq, isCont_iff, UInt8.toNat_ofNat']
  omega

/-- Only the first byte of an encoded character is no continuation byte. -/
theorem utf8EncodeChar_shape (c : Char) :
    ∃ b tail, String.utf8EncodeChar c = b :: tail ∧ tail.length = c.utf8Size - 1 ∧
      isCont b = false ∧ ∀ b' ∈ tail, isCont b' = true := by
  have hlen := String.length_utf8EncodeChar c
  have htail (n : Nat) : isCont (UInt8.ofNat (n % 64 + 0x80)) = true :=
    isCont_ofNat (Nat.mod_lt _ (by decide))
  suffices h : ∃ b tail, String.utf8EncodeChar c = b :: tail ∧ isCont b = false ∧
      ∀ b' ∈ tail, isCont b' = true by
    obtain ⟨b, tail, hc, hb, htail⟩ := h
    rw [hc, List.length_cons] at hlen
    exact ⟨b, tail, hc, by omega, hb, htail⟩
  fun_cases String.utf8EncodeChar c with
  | case1 v h => exact ⟨_, [], rfl, not_isCont_ofNat (by omega), by simp⟩
  | case2 v h₁ h₂ => exact ⟨_, _, rfl, not_isCont_ofNat (by omega), by
        simp only [List.forall_mem_cons, htail, List.not_mem_nil, false_implies, implies_true,
          and_self]⟩
  | case3 v h₁ h₂ h₃ => exact ⟨_, _, rfl, not_isCont_ofNat (by omega), by
        simp only [List.forall_mem_cons, htail, List.not_mem_nil, false_implies, implies_true,
          and_self]⟩
  | case4 v h₁ h₂ h₃ => exact ⟨_, _, rfl, not_isCont_ofNat (by omega), by
        simp only [List.forall_mem_cons, htail, List.not_mem_nil, false_implies, implies_true,
          and_self]⟩

/-- A character is read back from its octets. -/
theorem head_utf8EncodeChar {c : Char} {b : UInt8} {tail : List UInt8}
    (hc : String.utf8EncodeChar c = b :: tail) (rest : List UInt8) :
    head b (tail ++ rest) = (c, c.utf8Size - 1) := by
  have hdec := ByteArray.utf8DecodeChar?_utf8EncodeChar_append (b := rest.toByteArray) (c := c)
  rw [← toByteArray_append, hc, List.cons_append] at hdec
  unfold head
  rw [hdec]

/-- Skipped octets are skipped. -/
theorem decodeFrom_append {skipped : List UInt8} {skip : Nat} (h : skipped.length = skip)
    (rest : List UInt8) : decodeFrom skip (skipped ++ rest) = decode rest := by
  subst h
  induction skipped with
  | nil => rfl
  | cons b skipped ih => exact ih

/-- An encoded character decodes to itself. -/
theorem decode_utf8EncodeChar_append (c : Char) (rest : List UInt8) :
    decode (String.utf8EncodeChar c ++ rest) = c :: decode rest := by
  obtain ⟨b, tail, hc, hlen, -⟩ := utf8EncodeChar_shape c
  rw [hc, List.cons_append, decode_cons, head_utf8EncodeChar hc, decodeFrom_append hlen]

/-- A text is read back before every rest. -/
@[simp] theorem decode_encode_append (s : Str) (rest : List UInt8) :
    decode (encode s ++ rest) = s ++ decode rest := by
  induction s with
  | nil => rfl
  | cons c s ih =>
      rw [encode_cons, List.append_assoc, decode_utf8EncodeChar_append, ih]
      rfl

/-- A text is read back. -/
@[simp] theorem decode_encode (s : Str) : decode (encode s) = s := by
  have h := decode_encode_append s []
  rw [List.append_nil, decode_nil, List.append_nil] at h
  exact h

/-- A strict reading reads it back too. -/
theorem decodeStrict_encode (s : Str) : decodeStrict (encode s) = some s := by
  rw [decodeStrict, decode_encode, if_pos rfl]

/-! ## at most one character for each part -/

/-- What starts with a decodable character starts with its encoding. -/
theorem eq_append_of_utf8DecodeChar? {bs : List UInt8} {c : Char}
    (h : bs.toByteArray.utf8DecodeChar? 0 = some c) :
    ∃ rest, bs = String.utf8EncodeChar c ++ rest := by
  obtain ⟨rest, hrest⟩ := ByteArray.exists_of_utf8DecodeChar?_eq_some h
  refine ⟨rest.data.toList, ?_⟩
  have hlist := congrArg (fun bytes => bytes.data.toList) hrest
  simpa using hlist

/-- What is skipped after a bad octet are continuation octets. -/
theorem badTail_isCont (b : UInt8) (rest : List UInt8) :
    ∀ b' ∈ rest.take (badTail b rest), isCont b' = true := by
  cases rest with
  | nil => simp
  | cons b₂ rest =>
      rw [badTail]
      by_cases h₂ : isSecond b b₂ = true
      · have hb₂ : isCont b₂ = true := (Bool.and_eq_true_iff.mp h₂).1
        rw [if_pos h₂]
        by_cases h₃ : (0xF0 ≤ b && rest.head?.any isCont) = true
        · rw [if_pos h₃]
          cases rest with
          | nil => simp [hb₂]
          | cons b₃ rest =>
              have hb₃ : isCont b₃ = true := by simpa using (Bool.and_eq_true_iff.mp h₃).2
              simp [hb₂, hb₃]
        · rw [if_neg h₃]
          simp [hb₂]
      · rw [if_neg h₂]
        simp

/-- A decoding step takes continuation bytes only. -/
theorem isCont_of_mem_taken (b : UInt8) (rest : List UInt8) :
    ∀ b' ∈ rest.take (head b rest).2, isCont b' = true := by
  unfold head
  cases hdec : (b :: rest).toByteArray.utf8DecodeChar? 0 with
  | some c =>
      obtain ⟨b₀, tail, hc, hlen, -, htail⟩ := utf8EncodeChar_shape c
      obtain ⟨rest', hsplit⟩ := eq_append_of_utf8DecodeChar? hdec
      rw [hc, List.cons_append] at hsplit
      have htaken : rest.take (c.utf8Size - 1) = tail := by
        rw [(List.cons.inj hsplit).2, ← hlen, List.take_left]
      simpa [htaken] using htail
  | none => exact badTail_isCont b rest

/-- No character starts at a continuation byte. -/
theorem utf8DecodeChar?_of_isCont {b : UInt8} (hb : isCont b = true) (rest : List UInt8) :
    (b :: rest).toByteArray.utf8DecodeChar? 0 = none := by
  rw [Option.eq_none_iff_forall_ne_some]
  intro c hdec
  obtain ⟨b₀, tail, hc, -, hb₀, -⟩ := utf8EncodeChar_shape c
  obtain ⟨rest', hsplit⟩ := eq_append_of_utf8DecodeChar? hdec
  rw [hc, List.cons_append] at hsplit
  rw [(List.cons.inj hsplit).1, hb₀] at hb
  contradiction

/-- Nothing is skipped after a stray continuation octet. -/
theorem badTail_of_isCont {b : UInt8} (hb : isCont b = true) (rest : List UInt8) :
    badTail b rest = 0 := by
  have hrange := isCont_iff.mp hb
  cases rest with
  | nil => rfl
  | cons b₂ rest =>
      have h₂ : isSecond b b₂ = false := by
        have hlow (k : UInt8) (hk : 0xC0 ≤ k.toNat) : ¬k ≤ b := by
          rw [UInt8.le_iff_toNat_le]
          omega
        have hne (k : UInt8) (hk : 0xC0 ≤ k.toNat) : b ≠ k :=
          fun h => hlow k hk (h ▸ UInt8.le_refl b)
        rw [isSecond, if_neg (hne 0xE0 (by decide)), if_neg (hne 0xED (by decide)),
          if_neg (hne 0xF0 (by decide)), if_neg (hne 0xF4 (by decide))]
        simp [hlow 0xE0 (by decide)]
      rw [badTail, h₂]
      rfl

/-- A continuation byte on its own is replaced. -/
theorem head_of_isCont {b : UInt8} (hb : isCont b = true) (rest : List UInt8) :
    head b rest = (replacement, 0) := by
  unfold head
  rw [utf8DecodeChar?_of_isCont hb, badTail_of_isCont hb]

/-- Skipping octets makes no text longer. -/
theorem length_decodeFrom_le {skip : Nat} {rest : List UInt8}
    (h : ∀ b ∈ rest.take skip, isCont b = true) :
    (decodeFrom skip rest).length ≤ (decode rest).length := by
  induction rest generalizing skip with
  | nil => cases skip <;> rfl
  | cons b rest ih =>
      cases skip with
      | zero => exact Nat.le_refl _
      | succ skip =>
          have hb : isCont b = true := h b (by simp)
          have hcont : ∀ b' ∈ rest.take skip, isCont b' = true := fun b' hb' =>
            h b' (by simp [hb'])
          have hrest := ih hcont
          calc (decodeFrom (skip + 1) (b :: rest)).length
              = (decodeFrom skip rest).length := rfl
            _ ≤ (decode rest).length := hrest
            _ ≤ (decode (b :: rest)).length := by
              rw [decode_cons, head_of_isCont hb]
              exact Nat.le_succ _

/-- A single byte adds at most one character. -/
theorem length_decode_cons_le (b : UInt8) (rest : List UInt8) :
    (decode (b :: rest)).length ≤ (decode rest).length + 1 := by
  rw [decode_cons, List.length_cons]
  exact Nat.succ_le_succ (length_decodeFrom_le (isCont_of_mem_taken b rest))

/-- There are at most as many characters as octets. -/
theorem length_decode_le (bs : List UInt8) : (decode bs).length ≤ bs.length := by
  induction bs with
  | nil => exact Nat.le_refl _
  | cons b rest ih => exact Nat.le_trans (length_decode_cons_le b rest) (Nat.succ_le_succ ih)

/-! ## ignoring what is cut off -/

/-- Continuation bytes on their own are ignored. -/
theorem decodeIgnoreFrom_of_isCont {bs : List UInt8} (h : ∀ b ∈ bs, isCont b = true) (skip : Nat) :
    decodeIgnoreFrom skip bs = [] := by
  induction bs generalizing skip with
  | nil => cases skip <;> rfl
  | cons b rest ih =>
      have hrest := ih fun b' hb' => h b' (by simp [hb'])
      cases skip with
      | succ skip => exact hrest skip
      | zero =>
          have hb := h b (by simp)
          rw [decodeIgnoreFrom, utf8DecodeChar?_of_isCont hb, badTail_of_isCont hb]
          exact hrest 0

/-- Skipped octets are skipped when errors are ignored. -/
theorem decodeIgnoreFrom_append {skipped : List UInt8} {skip : Nat} (h : skipped.length = skip)
    (rest : List UInt8) : decodeIgnoreFrom skip (skipped ++ rest) = decodeIgnore rest := by
  subst h
  induction skipped with
  | nil => rfl
  | cons b skipped ih => exact ih

/-- An encoded character is not ignored. -/
theorem decodeIgnore_utf8EncodeChar_append (c : Char) (rest : List UInt8) :
    decodeIgnore (String.utf8EncodeChar c ++ rest) = c :: decodeIgnore rest := by
  obtain ⟨b, tail, hc, hlen, -⟩ := utf8EncodeChar_shape c
  have hdec := ByteArray.utf8DecodeChar?_utf8EncodeChar_append (b := rest.toByteArray) (c := c)
  rw [← toByteArray_append, hc, List.cons_append] at hdec
  rw [hc, List.cons_append, decodeIgnore, decodeIgnoreFrom, hdec]
  exact congrArg (c :: ·) (decodeIgnoreFrom_append hlen rest)

/-- The first bytes of a character are ignored, as long as one is missing. -/
theorem decodeIgnore_take_utf8EncodeChar {c : Char} {n : Nat}
    (h : n < (String.utf8EncodeChar c).length) :
    decodeIgnore ((String.utf8EncodeChar c).take n) = [] := by
  obtain ⟨b, tail, hc, hlen, -, htail⟩ := utf8EncodeChar_shape c
  cases n with
  | zero => rfl
  | succ n =>
      have hnone : (b :: tail.take n).toByteArray.utf8DecodeChar? 0 = none := by
        rw [Option.eq_none_iff_forall_ne_some]
        intro d hdec
        obtain ⟨rest, hrest⟩ := eq_append_of_utf8DecodeChar? hdec
        have hwhole : String.utf8EncodeChar c = String.utf8EncodeChar d ++ (rest ++ tail.drop n) := by
          rw [← List.append_assoc, ← hrest, List.cons_append, List.take_append_drop, hc]
        have hread := decodeIgnore_utf8EncodeChar_append d (rest ++ tail.drop n)
        have hself := decodeIgnore_utf8EncodeChar_append c []
        rw [List.append_nil, hwhole, hread] at hself
        have hd : d = c := (List.cons.inj hself).1
        have hcount := congrArg List.length hrest
        rw [hd, List.length_append, List.length_cons, List.length_take] at hcount
        omega
      rw [hc, List.take_succ_cons, decodeIgnore, decodeIgnoreFrom, hnone]
      exact decodeIgnoreFrom_of_isCont (fun b' hb' => htail b' (List.mem_of_mem_take hb')) _

/-- Encoded text that is cut off decodes to whole characters of it. -/
theorem decodeIgnore_take_encode (s : Str) (n : Nat) :
    decodeIgnore ((encode s).take n) <+: s ∧
      (encode (decodeIgnore ((encode s).take n))).length ≤ n := by
  induction s generalizing n with
  | nil => simp [decodeIgnore, decodeIgnoreFrom]
  | cons c s ih =>
      rw [encode_cons, List.take_append]
      by_cases hfit : (String.utf8EncodeChar c).length ≤ n
      · obtain ⟨hpre, hlen⟩ := ih (n - (String.utf8EncodeChar c).length)
        rw [List.take_of_length_le hfit, decodeIgnore_utf8EncodeChar_append, encode_cons,
          List.length_append]
        exact ⟨(List.prefix_cons_inj c).mpr hpre, by omega⟩
      · have hzero : n - (String.utf8EncodeChar c).length = 0 := by omega
        rw [hzero, List.take_zero, List.append_nil, decodeIgnore_take_utf8EncodeChar (by omega)]
        simp

end Utf8

end Py
