import ApiToDns.Py.Utf8

/-!
# Py.Encodings

`str.encode("utf_16_le")`, and the Windows-1252 code page that Windows
PowerShell reads a script file in.

* `Utf16.decode_encode` — UTF-16 keeps every text;
* `Cp1252.decode_utf8_eq_iff` — UTF-8 read in the code page keeps a text
  exactly if the text is plain ASCII.
-/

namespace Py

/-! ## UTF-16 -/

namespace Utf16

/-- The code units of a character. -/
def unitsOf (c : Char) : List Nat :=
  if c.toNat < 0x10000 then [c.toNat]
  else [0xD800 + (c.toNat - 0x10000) / 0x400, 0xDC00 + (c.toNat - 0x10000) % 0x400]

/-- A code unit, low byte first. -/
def bytesOf (u : Nat) : List UInt8 := [UInt8.ofNat (u % 256), UInt8.ofNat (u / 256)]

/-- `s.encode("utf_16_le")`. -/
def encode (s : Str) : List UInt8 := s.flatMap fun c => (unitsOf c).flatMap bytesOf

/-- The code units of bytes. -/
def units : List UInt8 → List Nat
  | lo :: hi :: rest => (lo.toNat + 256 * hi.toNat) :: units rest
  | _ => []

/-- A code unit that is not part of a pair; a lone surrogate is replaced. -/
def single (u : Nat) : Char := if u.isValidChar then Char.ofNat u else Utf8.replacement

/-- Decode code units. -/
def decodeUnits : List Nat → Str
  | [] => []
  | [u] => [single u]
  | u :: v :: rest =>
      if (0xD800 ≤ u ∧ u < 0xDC00) ∧ 0xDC00 ≤ v ∧ v < 0xE000 then
        Char.ofNat (0x10000 + (u - 0xD800) * 0x400 + (v - 0xDC00)) :: decodeUnits rest
      else single u :: decodeUnits (v :: rest)

/-- `bs.decode("utf_16_le", errors="replace")`. -/
def decode (bs : List UInt8) : Str := decodeUnits (units bs)

/-- Code units are read back from their octets. -/
theorem units_bytesOf {us : List Nat} (h : ∀ u ∈ us, u < 0x10000) (rest : List UInt8) :
    units (us.flatMap bytesOf ++ rest) = us ++ units rest := by
  induction us with
  | nil => rfl
  | cons u us ih =>
      have hu : u < 0x10000 := h u (by simp)
      have hrest := ih fun v hv => h v (by simp [hv])
      have hunit : u % 256 + 256 * (u / 256) = u := by omega
      have hlow : (UInt8.ofNat (u % 256)).toNat = u % 256 := by
        rw [UInt8.toNat_ofNat']
        omega
      have hhigh : (UInt8.ofNat (u / 256)).toNat = u / 256 := by
        rw [UInt8.toNat_ofNat']
        omega
      simp [bytesOf, units, hlow, hhigh, hunit, hrest]

/-- A character is no surrogate. -/
theorem toNat_range (c : Char) : c.toNat < 0xD800 ∨ 0xDFFF < c.toNat ∧ c.toNat < 0x110000 :=
  c.valid

/-- The code units of a character have 16 bits. -/
theorem unitsOf_lt (c : Char) : ∀ u ∈ unitsOf c, u < 0x10000 := by
  have hrange := toNat_range c
  rw [unitsOf]
  split
  · simpa
  · simp only [List.mem_cons, List.not_mem_nil, or_false]
    omega

/-- A character is read back from its code units. -/
theorem decodeUnits_unitsOf_append (c : Char) (rest : List Nat) :
    decodeUnits (unitsOf c ++ rest) = c :: decodeUnits rest := by
  have hrange := toNat_range c
  rw [unitsOf]
  split
  · next hplane =>
      have hsingle : single c.toNat = c := by
        have hvalid : c.toNat.isValidChar := c.valid
        rw [single, if_pos hvalid, Char.ofNat_toNat]
      cases rest with
      | nil => simp [decodeUnits, hsingle]
      | cons v rest =>
          have hnot : ¬((0xD800 ≤ c.toNat ∧ c.toNat < 0xDC00) ∧ 0xDC00 ≤ v ∧ v < 0xE000) := by
            omega
          simp [decodeUnits, hnot, hsingle]
  · next hplane =>
      have hcode : 0x10000 + (0xD800 + (c.toNat - 0x10000) / 0x400 - 0xD800) * 0x400 +
          (0xDC00 + (c.toNat - 0x10000) % 0x400 - 0xDC00) = c.toNat := by
        omega
      have hpair : (0xD800 ≤ 0xD800 + (c.toNat - 0x10000) / 0x400 ∧
          0xD800 + (c.toNat - 0x10000) / 0x400 < 0xDC00) ∧
          0xDC00 ≤ 0xDC00 + (c.toNat - 0x10000) % 0x400 ∧
          0xDC00 + (c.toNat - 0x10000) % 0x400 < 0xE000 := by
        omega
      rw [List.cons_append, List.cons_append, List.nil_append, decodeUnits, if_pos hpair, hcode,
        Char.ofNat_toNat]

/-- What is encoded is decoded. -/
theorem decode_encode (s : Str) : decode (encode s) = s := by
  unfold decode
  induction s with
  | nil => rfl
  | cons c s ih =>
      have hcons : encode (c :: s) = (unitsOf c).flatMap bytesOf ++ encode s := List.flatMap_cons
      rw [hcons, units_bytesOf (unitsOf_lt c), decodeUnits_unitsOf_append, ih]

/-- Every character takes two bytes at least. -/
theorem two_mul_length_le (s : Str) : 2 * s.length ≤ (encode s).length := by
  induction s with
  | nil => exact Nat.le_refl _
  | cons c s ih =>
      have hchar : 2 ≤ ((unitsOf c).flatMap bytesOf).length := by
        rw [unitsOf]
        split <;> simp [bytesOf]
      have hcons : encode (c :: s) = (unitsOf c).flatMap bytesOf ++ encode s := List.flatMap_cons
      rw [hcons, List.length_append, List.length_cons]
      omega

/-- ASCII takes two bytes a character. -/
theorem length_encode {s : Str} (h : ∀ c ∈ s, isAscii c = true) :
    (encode s).length = 2 * s.length := by
  induction s with
  | nil => rfl
  | cons c s ih =>
      have hc : c.toNat < 128 := by simpa [isAscii] using h c (by simp)
      have hrest := ih fun d hd => h d (by simp [hd])
      have hone : unitsOf c = [c.toNat] := by rw [unitsOf, if_pos (by omega)]
      have hcons : encode (c :: s) = bytesOf c.toNat ++ encode s := by simp [encode, hone]
      rw [hcons, List.length_append, hrest, List.length_cons]
      simp only [bytesOf, List.length_cons, List.length_nil]
      omega

end Utf16

/-! ## Windows-1252 -/

namespace Cp1252

/-- The characters from 0x80 to 0x9F; the five bytes without one stand for the
control characters of the same number. -/
def high : List Nat := [
  0x20AC, 0x81, 0x201A, 0x0192, 0x201E, 0x2026, 0x2020, 0x2021,
  0x02C6, 0x2030, 0x0160, 0x2039, 0x0152, 0x8D, 0x017D, 0x8F,
  0x90, 0x2018, 0x2019, 0x201C, 0x201D, 0x2022, 0x2013, 0x2014,
  0x02DC, 0x2122, 0x0161, 0x203A, 0x0153, 0x9D, 0x017E, 0x0178]

/-- The character of a byte. -/
def charOf (b : UInt8) : Char :=
  if 0x80 ≤ b ∧ b < 0xA0 then Char.ofNat (high.getD (b.toNat - 0x80) 0) else Char.ofNat b.toNat

/-- Decode in the code page. -/
def decode (bs : List UInt8) : Str := bs.map charOf

end Cp1252

/-! ## UTF-8 against single bytes -/

/-- An ASCII character is one octet. -/
theorem utf8EncodeChar_of_isAscii {c : Char} (h : isAscii c = true) :
    String.utf8EncodeChar c = [UInt8.ofNat c.toNat] := by
  have hc : c.toNat < 128 := by simpa [isAscii] using h
  have hle : c.val.toNat ≤ 0x7F := by
    have : c.val.toNat = c.toNat := rfl
    omega
  fun_cases String.utf8EncodeChar c with
  | case1 v hv => rfl
  | case2 v hv => exact absurd hle hv
  | case3 v hv => exact absurd hle hv
  | case4 v hv => exact absurd hle hv

/-- Any other character is several octets. -/
theorem one_lt_utf8Size {c : Char} (h : isAscii c = false) : 1 < c.utf8Size := by
  have hc : 128 ≤ c.toNat := by simpa [isAscii] using h
  have hne : c.utf8Size ≠ 1 := by
    rw [ne_eq, Char.utf8Size_eq_one_iff, UInt32.le_iff_toNat_le]
    have : c.val.toNat = c.toNat := rfl
    simp only [UInt32.reduceToNat]
    omega
  have hpos := Char.utf8Size_pos c
  omega

/-- There are at least as many octets as characters. -/
theorem length_le_encode (s : Str) : s.length ≤ (Utf8.encode s).length := by
  induction s with
  | nil => exact Nat.le_refl _
  | cons c s ih =>
      have hpos := Char.utf8Size_pos c
      simp only [Utf8.encode_cons, List.length_append, String.length_utf8EncodeChar,
        List.length_cons]
      omega

/-- A character beyond ASCII takes several bytes. -/
theorem length_lt_encode {s : Str} {c : Char} (hc : c ∈ s) (h : isAscii c = false) :
    s.length < (Utf8.encode s).length := by
  obtain ⟨before, after, rfl⟩ := List.append_of_mem hc
  have hbefore := length_le_encode before
  have hafter := length_le_encode after
  have hsize := one_lt_utf8Size h
  simp only [Utf8.encode_append, Utf8.encode_cons, List.length_append, List.length_cons,
    String.length_utf8EncodeChar]
  omega

namespace Cp1252

/-- A character for each octet. -/
@[simp] theorem length_decode (bs : List UInt8) : (decode bs).length = bs.length :=
  List.length_map _

/-- An ASCII octet is its character. -/
theorem charOf_ofNat {c : Char} (h : isAscii c = true) : charOf (UInt8.ofNat c.toNat) = c := by
  have hc : c.toNat < 128 := by simpa [isAscii] using h
  have hbyte : (UInt8.ofNat c.toNat).toNat = c.toNat := by
    rw [UInt8.toNat_ofNat']
    omega
  have hlow : ¬(0x80 ≤ UInt8.ofNat c.toNat ∧ UInt8.ofNat c.toNat < 0xA0) := by
    rw [UInt8.le_iff_toNat_le, hbyte]
    simp only [UInt8.reduceToNat]
    omega
  rw [charOf, if_neg hlow, hbyte, Char.ofNat_toNat]

/-- ASCII text is read as it is. -/
theorem decode_utf8_of_isAscii {s : Str} (h : ∀ c ∈ s, isAscii c = true) :
    decode (Utf8.encode s) = s := by
  induction s with
  | nil => rfl
  | cons c s ih =>
      have hc := h c (by simp)
      have hrest := ih fun d hd => h d (by simp [hd])
      rw [decode] at hrest ⊢
      simp [utf8EncodeChar_of_isAscii hc, charOf_ofNat hc, hrest]

/-- UTF-8 read in the code page is the text exactly if the text is ASCII. -/
theorem decode_utf8_eq_iff {s : Str} :
    decode (Utf8.encode s) = s ↔ ∀ c ∈ s, isAscii c = true := by
  constructor
  · intro heq c hc
    by_contra hnot
    have hlt := length_lt_encode hc (by simpa using hnot)
    have hlen := congrArg List.length heq
    rw [length_decode] at hlen
    omega
  · exact decode_utf8_of_isAscii

end Cp1252

end Py
