import ApiToDns.Py.Str

/-!
# Py.Base64

`base64.b64encode` and `base64.b64decode`, with and without `validate=True`.

* `decode_encode` — what is encoded is decoded;
* `decode_of_strict` — a text that passes validation decodes to the same
  bytes without it.
-/

namespace Py

namespace Base64

/-- The alphabet. -/
def alphabet : Str :=
  lit "ABCDEFGHIJKLMNOPQRSTUVWXYZabcdefghijklmnopqrstuvwxyz0123456789+/"

/-- The six bits as a character. -/
def digit (n : Nat) : Char := alphabet.getD n '='

/-- The six bits of a character. -/
def digit? (c : Char) : Option Nat :=
  if c.isUpper then some (c.toNat - 65)
  else if c.isLower then some (c.toNat - 71)
  else if c.isDigit then some (c.toNat + 4)
  else if c = '+' then some 62
  else if c = '/' then some 63
  else none

/-- `b64encode(bs).decode("ascii")`. -/
def encode : List UInt8 → Str
  | [] => []
  | [a] => [digit (a.toNat / 4), digit (a.toNat % 4 * 16), '=', '=']
  | [a, b] =>
      [digit (a.toNat / 4), digit (a.toNat % 4 * 16 + b.toNat / 16), digit (b.toNat % 16 * 4), '=']
  | a :: b :: c :: rest =>
      digit (a.toNat / 4) :: digit (a.toNat % 4 * 16 + b.toNat / 16) ::
        digit (b.toNat % 16 * 4 + c.toNat / 64) :: digit (c.toNat % 64) :: encode rest

/-- Where `a2b_base64` is: the digits of the group read so far, the bits they
left over, the padding characters after them, and whether any was seen. -/
structure State where
  quad : Nat
  left : Nat
  pads : Nat
  padded : Bool
deriving DecidableEq

/-- The byte that a digit completes, if any, and the state after it. -/
def push (st : State) (n : Nat) : List UInt8 × State :=
  match st.quad with
  | 0 => ([], ⟨1, n, 0, st.padded⟩)
  | 1 => ([UInt8.ofNat (st.left * 4 + n / 16)], ⟨2, n % 16, 0, st.padded⟩)
  | 2 => ([UInt8.ofNat (st.left * 16 + n / 4)], ⟨3, n % 4, 0, st.padded⟩)
  | _ => ([UInt8.ofNat (st.left * 64 + n)], ⟨0, 0, 0, st.padded⟩)

/-- `binascii.a2b_base64`; `none` if it raises. -/
def a2b (strict : Bool) (st : State) : Str → Option (List UInt8)
  | [] => if st.quad = 0 then some [] else none
  | c :: rest =>
      if c = '=' then
        if 2 ≤ st.quad ∧ 4 ≤ st.quad + (st.pads + 1) then
          if strict ∧ rest ≠ [] then none else some []
        else
          a2b strict
            ⟨st.quad, st.left, if 2 ≤ st.quad then st.pads + 1 else st.pads, true⟩ rest
      else
        match digit? c with
        | none => if strict then none else a2b strict st rest
        | some n =>
            if strict ∧ st.padded then none
            else (a2b strict (push st n).2 rest).map ((push st n).1 ++ ·)

/-- `base64.b64decode(text, validate=strict)`; `none` if it raises. -/
def b64decode (strict : Bool) (text : Str) : Option (List UInt8) :=
  if text.any fun c => !isAscii c then none
  else if strict ∧ text.head? = some '=' then none
  else a2b strict ⟨0, 0, 0, false⟩ text

set_option maxRecDepth 2000 in
/-- A digit is read back. -/
theorem digit?_digit {n : Nat} (h : n < 64) : digit? (digit n) = some n := by
  have hall : ∀ i : Fin 64, digit? (digit i) = some i.val := by decide
  exact hall ⟨n, h⟩

/-- A digit is no padding. -/
theorem digit_ne_pad {n : Nat} (h : n < 64) : digit n ≠ '=' := by
  intro heq
  have := digit?_digit h
  rw [heq] at this
  contradiction

section Digits

variable (strict : Bool) {n : Nat} (left : Nat) (rest : Str)

/-- A digit is read wherever it stands before the padding. -/
theorem a2b_digit (h : n < 64) (quad : Nat) :
    a2b strict ⟨quad, left, 0, false⟩ (digit n :: rest) =
      (a2b strict (push ⟨quad, left, 0, false⟩ n).2 rest).map
        ((push ⟨quad, left, 0, false⟩ n).1 ++ ·) := by
  rw [a2b, if_neg (digit_ne_pad h), digit?_digit h]
  simp

/-- The first digit of a group is kept. -/
theorem a2b_first (h : n < 64) :
    a2b strict ⟨0, left, 0, false⟩ (digit n :: rest) = a2b strict ⟨1, n, 0, false⟩ rest := by
  rw [a2b_digit strict left rest h]
  show (a2b strict ⟨1, n, 0, false⟩ rest).map ([] ++ ·) = _
  simp

/-- The second digit completes an octet. -/
theorem a2b_second (h : n < 64) :
    a2b strict ⟨1, left, 0, false⟩ (digit n :: rest) =
      (a2b strict ⟨2, n % 16, 0, false⟩ rest).map (UInt8.ofNat (left * 4 + n / 16) :: ·) :=
  a2b_digit strict left rest h 1

/-- The third digit completes an octet. -/
theorem a2b_third (h : n < 64) :
    a2b strict ⟨2, left, 0, false⟩ (digit n :: rest) =
      (a2b strict ⟨3, n % 4, 0, false⟩ rest).map (UInt8.ofNat (left * 16 + n / 4) :: ·) :=
  a2b_digit strict left rest h 2

/-- The fourth digit completes an octet and the group. -/
theorem a2b_fourth (h : n < 64) :
    a2b strict ⟨3, left, 0, false⟩ (digit n :: rest) =
      (a2b strict ⟨0, 0, 0, false⟩ rest).map (UInt8.ofNat (left * 64 + n) :: ·) :=
  a2b_digit strict left rest h 3

end Digits

theorem ofNat_eq {a : UInt8} {n : Nat} (h : n = a.toNat) : UInt8.ofNat n = a := by
  rw [h, UInt8.ofNat_toNat]

/-- What is encoded is decoded again. -/
theorem a2b_encode (strict : Bool) (bs : List UInt8) :
    a2b strict ⟨0, 0, 0, false⟩ (encode bs) = some bs := by
  fun_induction encode bs with
  | case1 => rfl
  | case2 a =>
      have ha := a.toNat_lt
      have hbyte : UInt8.ofNat (a.toNat / 4 * 4 + a.toNat % 4 * 16 / 16) = a :=
        ofNat_eq (by omega)
      rw [a2b_first strict 0 _ (show a.toNat / 4 < 64 by omega),
        a2b_second strict _ _ (show a.toNat % 4 * 16 < 64 by omega), hbyte]
      simp [a2b]
  | case3 a b =>
      have ha := a.toNat_lt
      have hb := b.toNat_lt
      have hbyte : UInt8.ofNat (a.toNat / 4 * 4 + (a.toNat % 4 * 16 + b.toNat / 16) / 16) = a :=
        ofNat_eq (by omega)
      have hbyte' : UInt8.ofNat ((a.toNat % 4 * 16 + b.toNat / 16) % 16 * 16 +
          b.toNat % 16 * 4 / 4) = b :=
        ofNat_eq (by omega)
      rw [a2b_first strict 0 _ (show a.toNat / 4 < 64 by omega),
        a2b_second strict _ _ (show a.toNat % 4 * 16 + b.toNat / 16 < 64 by omega),
        a2b_third strict _ _ (show b.toNat % 16 * 4 < 64 by omega), hbyte, hbyte']
      simp [a2b]
  | case4 a b c rest ih =>
      have ha := a.toNat_lt
      have hb := b.toNat_lt
      have hc := c.toNat_lt
      have hbyte : UInt8.ofNat (a.toNat / 4 * 4 + (a.toNat % 4 * 16 + b.toNat / 16) / 16) = a :=
        ofNat_eq (by omega)
      have hbyte' : UInt8.ofNat ((a.toNat % 4 * 16 + b.toNat / 16) % 16 * 16 +
          (b.toNat % 16 * 4 + c.toNat / 64) / 4) = b :=
        ofNat_eq (by omega)
      have hbyte'' : UInt8.ofNat ((b.toNat % 16 * 4 + c.toNat / 64) % 4 * 64 + c.toNat % 64) = c :=
        ofNat_eq (by omega)
      rw [a2b_first strict 0 _ (show a.toNat / 4 < 64 by omega),
        a2b_second strict _ _ (show a.toNat % 4 * 16 + b.toNat / 16 < 64 by omega),
        a2b_third strict _ _ (show b.toNat % 16 * 4 + c.toNat / 64 < 64 by omega),
        a2b_fourth strict _ _ (show c.toNat % 64 < 64 by omega), hbyte, hbyte', hbyte'', ih]
      rfl

/-! ## the laws -/

/-- What holds of the alphabet and the padding holds of what is encoded. -/
theorem forall_mem_encode {p : Char → Prop} (hdigit : ∀ n < 64, p (digit n)) (hpad : p '=')
    (bs : List UInt8) : ∀ c ∈ encode bs, p c := by
  fun_induction encode bs with
  | case1 => simp
  | case2 a =>
      have ha := a.toNat_lt
      simp only [List.mem_cons, forall_eq_or_imp]
      exact ⟨hdigit _ (by omega), hdigit _ (by omega), hpad, hpad, by simp⟩
  | case3 a b =>
      have ha := a.toNat_lt
      have hb := b.toNat_lt
      simp only [List.mem_cons, forall_eq_or_imp]
      exact ⟨hdigit _ (by omega), hdigit _ (by omega), hdigit _ (by omega), hpad, by simp⟩
  | case4 a b c rest ih =>
      have ha := a.toNat_lt
      have hb := b.toNat_lt
      have hc := c.toNat_lt
      simp only [List.mem_cons, forall_eq_or_imp]
      exact ⟨hdigit _ (by omega), hdigit _ (by omega), hdigit _ (by omega), hdigit _ (by omega), ih⟩

set_option maxRecDepth 2000 in
/-- A digit is an ASCII character. -/
theorem isAscii_digit {n : Nat} (h : n < 64) : isAscii (digit n) = true := by
  have hall : ∀ i : Fin 64, isAscii (digit i) = true := by decide
  exact hall ⟨n, h⟩

theorem isAscii_pad : isAscii '=' = true := by decide

/-- Base64 is ASCII. -/
theorem isAscii_of_mem_encode {bs : List UInt8} : ∀ c ∈ encode bs, isAscii c = true :=
  forall_mem_encode (fun _ hn => isAscii_digit hn) isAscii_pad bs

/-- Four characters for every three bytes. -/
theorem length_encode (bs : List UInt8) : (encode bs).length = 4 * ((bs.length + 2) / 3) := by
  fun_induction encode bs with
  | case1 => rfl
  | case2 a => simp
  | case3 a b => simp
  | case4 a b c rest ih =>
      simp only [List.length_cons, ih]
      omega

/-- Two bytes after the last group leave one character of padding. -/
theorem exists_encode_eq_concat_pad {bs : List UInt8} (h : bs.length % 3 = 2) :
    ∃ s, encode bs = s ++ ['='] ∧ ∀ c ∈ s, ∃ n < 64, c = digit n := by
  fun_induction encode bs with
  | case1 => simp at h
  | case2 a => simp at h
  | case3 a b =>
      have ha := a.toNat_lt
      have hb := b.toNat_lt
      refine ⟨[digit _, digit _, digit _], rfl, ?_⟩
      simp only [List.mem_cons, forall_eq_or_imp]
      exact ⟨⟨_, by omega, rfl⟩, ⟨_, by omega, rfl⟩, ⟨_, by omega, rfl⟩, by simp⟩
  | case4 a b c rest ih =>
      have ha := a.toNat_lt
      have hb := b.toNat_lt
      have hc := c.toNat_lt
      obtain ⟨s, hs, hdigits⟩ := ih (by simp only [List.length_cons] at h; omega)
      refine ⟨digit _ :: digit _ :: digit _ :: digit _ :: s, by rw [hs]; rfl, ?_⟩
      simp only [List.mem_cons, forall_eq_or_imp]
      exact ⟨⟨_, by omega, rfl⟩, ⟨_, by omega, rfl⟩, ⟨_, by omega, rfl⟩, ⟨_, by omega, rfl⟩, hdigits⟩

/-- Base64 does not start with padding. -/
theorem head?_encode_ne_pad (bs : List UInt8) : (encode bs).head? ≠ some '=' := by
  cases bs with
  | nil => simp [encode]
  | cons a rest =>
      have ha := a.toNat_lt
      have hne : digit (a.toNat / 4) ≠ '=' := digit_ne_pad (by omega)
      match rest with
      | [] => simpa [encode] using hne
      | [b] => simpa [encode] using hne
      | b :: c :: rest => simpa [encode] using hne

/-- What is encoded is decoded, also under validation. -/
theorem decode_encode (strict : Bool) (bs : List UInt8) : b64decode strict (encode bs) = some bs := by
  have hascii : (encode bs).any (fun c => !isAscii c) = false := by
    rw [List.any_eq_false]
    intro c hc
    simp [isAscii_of_mem_encode c hc]
  rw [b64decode, hascii, if_neg (by simp), if_neg (by simp [head?_encode_ne_pad]), a2b_encode]

/-- What a strict reading accepts is read the same way by a lax one. -/
theorem a2b_of_strict {st : State} {text : Str} {bs : List UInt8} (h : a2b true st text = some bs) :
    a2b false st text = some bs := by
  induction text generalizing st bs with
  | nil => exact h
  | cons c rest ih =>
      rw [a2b] at h ⊢
      split
      · next hc =>
          rw [if_pos hc] at h
          split
          · next hq =>
              rw [if_pos hq] at h
              split at h
              · contradiction
              · exact h
          · next hq =>
              rw [if_neg hq] at h
              exact ih h
      · next hc =>
          rw [if_neg hc] at h
          cases hd : digit? c with
          | none => rw [hd] at h; contradiction
          | some n =>
              rw [hd] at h
              simp only at h
              split at h
              · contradiction
              · obtain ⟨bs', hbs', heq⟩ := Option.map_eq_some_iff.mp h
                simp [ih hbs', heq]

/-- What passes validation decodes to the same bytes without it. -/
theorem decode_of_strict {text : Str} {bs : List UInt8} (h : b64decode true text = some bs) :
    b64decode false text = some bs := by
  unfold b64decode at h ⊢
  split at h
  · contradiction
  · next hascii =>
      rw [if_neg hascii]
      split at h
      · contradiction
      · rw [if_neg (by simp)]
        exact a2b_of_strict h

end Base64

end Py
