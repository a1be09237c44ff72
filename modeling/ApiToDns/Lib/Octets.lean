import Mathlib.Data.Nat.Digits.Defs
import Mathlib.Data.List.TakeWhile

/-!
# Lib.Octets

Messages on a stream of bytes, each after the count of its bytes in decimal and
a space: what a receiver reads from frames, and from frames that are followed
by a part of another one (`decode_frames`).
-/

namespace Octets

/-- The bytes of decimal digits. -/
def countOf (n : Nat) : List UInt8 := (Nat.toDigits 10 n).map fun c => UInt8.ofNat c.toNat

def space : UInt8 := 32

def frame (message : List UInt8) : List UInt8 := countOf message.length ++ space :: message

def isDigit (b : UInt8) : Bool := decide (48 ≤ b.toNat ∧ b.toNat ≤ 57)

def valueOf (digits : List UInt8) : Nat := digits.foldl (fun n b => 10 * n + (b.toNat - 48)) 0

/-- The count of a frame, which does not begin with a zero, and what follows its
space. -/
def readCount (bytes : List UInt8) : Option (Nat × List UInt8) :=
  match bytes.takeWhile isDigit, bytes.dropWhile isDigit with
  | first :: digits, b :: rest =>
      if first ≠ 48 ∧ b = space then some (valueOf (first :: digits), rest) else none
  | _, _ => none

/-- The messages of complete frames, up to `fuel` of them. -/
def decodeUpTo : Nat → List UInt8 → List (List UInt8)
  | 0, _ => []
  | fuel + 1, bytes =>
      match readCount bytes with
      | none => []
      | some (n, rest) =>
          if n ≤ rest.length then rest.take n :: decodeUpTo fuel (rest.drop n) else []

def decode (bytes : List UInt8) : List (List UInt8) := decodeUpTo bytes.length bytes

/-! ## counts -/

/-- The code points of the digits. -/
theorem toNat_of_digit {c : Char} (h : c.isDigit = true) : 48 ≤ c.toNat ∧ c.toNat ≤ 57 := by
  simpa [Char.isDigit, UInt32.le_iff_toNat_le, ← Char.toNat_val] using h

/-- A digit is one octet of its own number. -/
theorem toNat_byte {c : Char} (h : c.isDigit = true) : (UInt8.ofNat c.toNat).toNat = c.toNat := by
  have hrange := toNat_of_digit h
  simp
  omega

/-- A count consists of digits. -/
theorem isDigit_of_mem_countOf {n : Nat} {b : UInt8} (h : b ∈ countOf n) : isDigit b = true := by
  obtain ⟨c, hc, rfl⟩ := List.mem_map.mp h
  have hdigit : c.isDigit = true := Nat.isDigit_of_mem_toDigits (by decide) (by decide) hc
  have hrange := toNat_of_digit hdigit
  rw [isDigit, toNat_byte hdigit]
  simp [hrange]

/-- A count has its value. -/
theorem valueOf_countOf (n : Nat) : valueOf (countOf n) = n := by
  have hread : ∀ (cs : List Char) (m : Nat), (∀ c ∈ cs, c.isDigit = true) →
      (cs.map fun c => UInt8.ofNat c.toNat).foldl (fun n b => 10 * n + (b.toNat - 48)) m =
        Nat.ofDigitChars 10 cs m := by
    intro cs
    induction cs with
    | nil => exact fun m _ => rfl
    | cons c cs ih =>
        intro m h
        have hrest := ih (10 * m + (c.toNat - 48)) fun d hd => h d (List.mem_cons_of_mem _ hd)
        rw [List.map_cons, List.foldl_cons, toNat_byte (h c List.mem_cons_self), hrest]
        rfl
  have hdigits : ∀ c ∈ Nat.toDigits 10 n, c.isDigit = true :=
    fun c hc => Nat.isDigit_of_mem_toDigits (by decide) (by decide) hc
  rw [valueOf, countOf, hread _ _ hdigits]
  exact Nat.ofDigitChars_ten_toDigits

/-- A positive count does not start with a zero. -/
theorem head_toDigits {n : Nat} (hn : 0 < n) : (Nat.toDigits 10 n).head? ≠ some '0' := by
  induction n using Nat.strongRecOn with
  | ind n ih =>
      rw [Nat.toDigits_eq_if (by decide)]
      split
      · next hlt =>
          have hchar : ∀ d < 10, 0 < d → d.digitChar ≠ '0' := by decide
          simpa using hchar n hlt hn
      · next hge =>
          have hrest := ih (n / 10) (by omega) (by omega)
          cases hdigits : Nat.toDigits 10 (n / 10) with
          | nil => exact absurd hdigits Nat.toDigits_ne_nil
          | cons c cs =>
              rw [hdigits] at hrest
              simpa using hrest

/-- A positive count begins with a digit that is not zero. -/
theorem countOf_eq_cons {n : Nat} (hn : 0 < n) :
    ∃ first digits, countOf n = first :: digits ∧ first ≠ 48 := by
  cases hdigits : Nat.toDigits 10 n with
  | nil => exact absurd hdigits Nat.toDigits_ne_nil
  | cons c cs =>
      have hmem : c ∈ Nat.toDigits 10 n := by simp [hdigits]
      have hdigit : c.isDigit = true := Nat.isDigit_of_mem_toDigits (by decide) (by decide) hmem
      refine ⟨UInt8.ofNat c.toNat, _, by rw [countOf, hdigits]; rfl, fun hzero => ?_⟩
      have hnat := congrArg UInt8.toNat hzero
      rw [toNat_byte hdigit] at hnat
      have hchar : c = '0' := Char.toNat_inj.mp hnat
      have hhead := head_toDigits hn
      rw [hdigits, hchar] at hhead
      exact hhead rfl

/-! ## frames -/

theorem isDigit_space : isDigit space = false := rfl

/-- The count before a frame is read back. -/
theorem readCount_frame {n : Nat} (hn : 0 < n) (rest : List UInt8) :
    readCount (countOf n ++ space :: rest) = some (n, rest) := by
  have hdigits : ∀ b ∈ countOf n, isDigit b = true := fun b hb => isDigit_of_mem_countOf hb
  have htake : (countOf n ++ space :: rest).takeWhile isDigit = countOf n := by
    rw [List.takeWhile_append_of_pos hdigits, List.takeWhile_cons_of_neg (by simp [isDigit_space]),
      List.append_nil]
  have hdrop : (countOf n ++ space :: rest).dropWhile isDigit = space :: rest := by
    rw [List.dropWhile_append_of_pos hdigits, List.dropWhile_cons_of_neg (by simp [isDigit_space])]
  obtain ⟨first, digits, hcount, hfirst⟩ := countOf_eq_cons hn
  have hvalue := valueOf_countOf n
  rw [readCount, htake, hdrop]
  rw [hcount] at hvalue ⊢
  simp [hfirst, hvalue]

/-- Digits with no space behind them are no count. -/
theorem readCount_of_digits {bytes : List UInt8} (h : ∀ b ∈ bytes, isDigit b = true) :
    readCount bytes = none := by
  have hdrop : bytes.dropWhile isDigit = [] := List.dropWhile_eq_nil_iff.mpr h
  rw [readCount, hdrop]
  cases bytes.takeWhile isDigit <;> rfl

/-- What follows a count is shorter than what it was read from. -/
theorem length_of_readCount {bytes rest : List UInt8} {n : Nat}
    (h : readCount bytes = some (n, rest)) : rest.length < bytes.length := by
  have hsplit := congrArg List.length (List.takeWhile_append_dropWhile (p := isDigit) (l := bytes))
  rw [List.length_append] at hsplit
  unfold readCount at h
  split at h
  · next first digits b rest' htake hdrop =>
      rw [htake, hdrop, List.length_cons, List.length_cons] at hsplit
      split at h
      · rw [Option.some.injEq, Prod.mk.injEq] at h
        rw [← h.2]
        omega
      · contradiction
  · contradiction

/-- More fuel than there are bytes changes nothing. -/
theorem decodeUpTo_eq_decode {fuel : Nat} {bytes : List UInt8} (h : bytes.length ≤ fuel) :
    decodeUpTo fuel bytes = decode bytes := by
  have hsame : ∀ (fuel fuel' : Nat) (bytes : List UInt8), bytes.length ≤ fuel →
      bytes.length ≤ fuel' → decodeUpTo fuel bytes = decodeUpTo fuel' bytes := by
    intro fuel
    induction fuel with
    | zero =>
        intro fuel' bytes hlen _
        have hnil : bytes = [] := List.length_eq_zero_iff.mp (by omega)
        subst hnil
        cases fuel' <;> rfl
    | succ fuel ih =>
        intro fuel' bytes hlen hlen'
        cases fuel' with
        | zero =>
            have hnil : bytes = [] := List.length_eq_zero_iff.mp (by omega)
            subst hnil
            rfl
        | succ fuel' =>
            rw [decodeUpTo, decodeUpTo]
            cases hread : readCount bytes with
            | none => rfl
            | some count =>
                obtain ⟨n, rest⟩ := count
                have hshort := length_of_readCount hread
                have hdrop : (rest.drop n).length ≤ rest.length := by simp
                have hrest := ih fuel' (rest.drop n) (by omega) (by omega)
                dsimp only
                rw [hrest]
  exact hsame fuel bytes.length bytes h le_rfl

/-- A frame is read, and then what follows it. -/
theorem decode_frame_append {message : List UInt8} (h : message ≠ []) (rest : List UInt8) :
    decode (frame message ++ rest) = message :: decode rest := by
  have hlen : 0 < message.length := List.length_pos_iff.mpr h
  have hread : readCount (frame message ++ rest) = some (message.length, message ++ rest) := by
    rw [frame, List.append_assoc, List.cons_append]
    exact readCount_frame hlen _
  have hsize : (frame message ++ rest).length =
      (countOf message.length).length + message.length + rest.length + 1 := by
    simp [frame]
    omega
  rw [decode, hsize, decodeUpTo, hread]
  have hle : message.length ≤ (message ++ rest).length := by simp
  simp only [hle, if_true, List.take_left, List.drop_left]
  rw [decodeUpTo_eq_decode (by omega)]

/-- No message is read from a part of a frame. -/
theorem decode_take_frame {message : List UInt8} (h : message ≠ []) {k : Nat}
    (hk : k < (frame message).length) : decode ((frame message).take k) = [] := by
  have hlen : 0 < message.length := List.length_pos_iff.mpr h
  have hnone : ∀ bytes, (readCount bytes = none ∨
      ∃ n rest, readCount bytes = some (n, rest) ∧ rest.length < n) → decode bytes = [] := by
    intro bytes hread
    rw [← decodeUpTo_eq_decode (Nat.le_succ _), decodeUpTo]
    rcases hread with hread | ⟨n, rest, hread, hshort⟩
    · rw [hread]
    · have hnot : ¬ n ≤ rest.length := by omega
      rw [hread]
      simp [hnot]
  refine hnone _ ?_
  rw [frame, List.take_append]
  by_cases hcount : k ≤ (countOf message.length).length
  · -- the part ends within the count
    have hzero : k - (countOf message.length).length = 0 := by omega
    rw [hzero, List.take_zero, List.append_nil]
    exact .inl (readCount_of_digits fun b hb => isDigit_of_mem_countOf (List.mem_of_mem_take hb))
  · obtain ⟨j, hj⟩ : ∃ j, k - (countOf message.length).length = j + 1 :=
      Nat.exists_eq_succ_of_ne_zero (by omega)
    have hall : (countOf message.length).take k = countOf message.length :=
      List.take_of_length_le (by omega)
    rw [hall, hj, List.take_succ_cons]
    refine .inr ⟨message.length, message.take j, readCount_frame hlen _, ?_⟩
    simp [frame] at hk
    simp
    omega

/-- What a receiver reads from frames that are followed by what is no frame. -/
theorem decode_frames {messages : List (List UInt8)} (h : ∀ message ∈ messages, message ≠ [])
    {rest : List UInt8} (hrest : decode rest = []) :
    decode ((messages.map frame).flatten ++ rest) = messages := by
  induction messages with
  | nil => exact hrest
  | cons message messages ih =>
      rw [List.map_cons, List.flatten_cons, List.append_assoc,
        decode_frame_append (h message List.mem_cons_self),
        ih fun m hm => h m (List.mem_cons_of_mem _ hm)]

end Octets
