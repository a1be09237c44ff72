import ApiToDns.Py.AddressText
import ApiToDns.RecordTypes

/-!
# AddressValues

The values of A and AAAA records (`normalize_record_value`): the texts of
addresses, and for AAAA also those with a scope identifier, which stays in the
value (`addressOnly_iff`).
-/

namespace ApiToDns

open Py IpAddress

/-- The record types whose values are addresses. -/
inductive Family where
  | v4
  | v6
deriving DecidableEq

namespace Family

def recordType : Family → RecordType
  | v4 => .a
  | v6 => .aaaa

/-- The length of an address. -/
def bits : Family → Nat
  | v4 => 32
  | v6 => 128

/-- The text denotes the number. -/
def Text : Family → Str → Nat → Prop
  | v4 => Ipv4Text
  | v6 => Ipv6Text

/-- What may stand in a value: digits and dots, or hexadecimal digits, colons
and dots. -/
def Character : Family → Char → Prop
  | v4, c => c = '.' ∨ c.isDigit = true
  | v6, c => c = ':' ∨ c = '.' ∨ ∃ d, HexDigit c d

end Family

/-- What becomes of a value: it is accepted exactly if it is the text of an
address, and is then a text of the same address, the same for all its texts. -/
structure AddressOnly (U : Ucd) (family : Family) (value : Str) : Prop where
  accepted : (∃ out, normalizeRecordValue U family.recordType value = .ok out) ↔
    ∃ n, n < 2 ^ family.bits ∧ family.Text (strip value) n
  characters : ∀ out, normalizeRecordValue U family.recordType value = .ok out →
    ∀ c ∈ out, family.Character c
  spellings : ∀ out n other, normalizeRecordValue U family.recordType value = .ok out →
    family.Text (strip value) n → family.Text (strip other) n →
      normalizeRecordValue U family.recordType other = .ok out
  stable : ∀ out, normalizeRecordValue U family.recordType value = .ok out →
    normalizeRecordValue U family.recordType out = .ok out

/-- An address with a scope identifier. -/
def Scoped (s : Str) : Prop := ∃ ip scope, ScopedText s ip scope

section

variable {U : Ucd} {family : Family} {value out : Str}

/-- The address that a text of the family denotes. -/
def Family.address : Family → Nat → IpAddress
  | .v4, n => .v4 n
  | .v6, n => .v6 n none

/-- `ip_address` reads exactly the addresses of a family. -/
theorem parse_eq_address_iff {s : Str} {n : Nat} :
    IpAddress.parse s = some (family.address n) ↔ family.Text s n := by
  cases family with
  | v4 => exact parse_eq_v4_iff
  | v6 => exact parse_eq_v6_iff

/-- An accepted value is an address of the family, as it is printed. -/
theorem normalizeRecordValue_address_iff :
    normalizeRecordValue U family.recordType value = .ok out ↔
      ∃ addr, IpAddress.parse (strip value) = some addr ∧
        addr.version = (family.address 0).version ∧ out = addr.format := by
  have hnil : IpAddress.parse [] = none := by decide
  unfold normalizeRecordValue
  dsimp only
  split
  · next h => simp [h, hnil]
  · have haddress (version : Nat) (article : Str) :
        normalizeAddress U version article (strip value) value = .ok out ↔
          ∃ addr, IpAddress.parse (strip value) = some addr ∧ addr.version = version ∧
            out = addr.format := by
      unfold normalizeAddress
      cases IpAddress.parse (strip value) with
      | none => simp
      | some addr =>
          simp only [Option.some_inj, exists_eq_left']
          split
          · next hne => simp [hne]
          · next heq => simp [not_not.mp heq, eq_comm]
    cases family with
    | v4 => exact haddress 4 _
    | v6 => exact haddress 6 _

/-- An address of the family has a text, or a scope identifier. -/
theorem eq_address_of_version {addr : IpAddress}
    (h : addr.version = (family.address 0).version) :
    (∃ n, addr = family.address n) ∨ family = .v6 ∧ ∃ ip scope, addr = .v6 ip (some scope) := by
  cases family with
  | v4 =>
      cases addr with
      | v4 ip => exact .inl ⟨ip, rfl⟩
      | v6 ip scope => exact absurd h (by simp [Family.address, version])
  | v6 =>
      cases addr with
      | v4 ip => exact absurd h (by simp [Family.address, version])
      | v6 ip scope =>
          cases scope with
          | none => exact .inl ⟨ip, rfl⟩
          | some scope => exact .inr ⟨rfl, ip, scope, rfl⟩

/-- An address in range has the bits of its family. -/
theorem inRange_address {n : Nat} :
    (family.address n).InRange ↔ n < 2 ^ family.bits := by
  cases family <;> exact Iff.rfl

/-- An address that is written is in range. -/
theorem lt_of_text {s : Str} {n : Nat} (h : family.Text s n) : n < 2 ^ family.bits :=
  inRange_address.mp (inRange_parse (parse_eq_address_iff.mpr h))

/-- What an address is printed as is a text of the address. -/
theorem text_format {n : Nat} (h : n < 2 ^ family.bits) :
    family.Text (family.address n).format n := by
  refine parse_eq_address_iff.mp (parse_format (inRange_address.mpr h) ?_)
  cases family <;> rfl

/-- The characters of an address. -/
theorem character_of_text {s : Str} {n : Nat} {c : Char} (h : family.Text s n) (hc : c ∈ s) :
    family.Character c := by
  cases family with
  | v4 => exact mem_ipv4Text h hc
  | v6 =>
      refine (mem_ipv6Text h hc).imp_right (Or.imp_right ?_)
      rintro ⟨d, hd, heq⟩
      exact ⟨d, hd, heq⟩

/-- None of them is whitespace. -/
theorem isSpace_of_character {c : Char} (h : family.Character c) : isSpace c = false := by
  have hdigit : ∀ d < 16, isSpace (Nat.digitChar d) = false ∧
      isSpace (Nat.digitChar d).toUpper = false := by decide
  cases family with
  | v4 =>
      rcases h with rfl | h
      · decide
      · exact isSpace_of_isDigit h
  | v6 =>
      rcases h with rfl | rfl | ⟨d, hd, rfl | rfl⟩
      · decide
      · decide
      · exact (hdigit d hd).1
      · exact (hdigit d hd).2

/-- An address has no whitespace around it. -/
theorem strip_of_text {s : Str} {n : Nat} (h : family.Text s n) : strip s = s :=
  strip_of_no_space fun _ hc => isSpace_of_character (character_of_text h hc)

/-- A text of an address is normalised to what the address is printed as. -/
theorem normalizeRecordValue_of_text {n : Nat} (h : family.Text (strip value) n) :
    normalizeRecordValue U family.recordType value = .ok (family.address n).format := by
  refine normalizeRecordValue_address_iff.mpr ⟨_, parse_eq_address_iff.mpr h, ?_, rfl⟩
  cases family <;> rfl

/-- An address is read one way. -/
theorem text_unique {s : Str} {m n : Nat} (hm : family.Text s m) (hn : family.Text s n) : m = n := by
  have heq := (parse_eq_address_iff.mpr hm).symm.trans (parse_eq_address_iff.mpr hn)
  cases family with
  | v4 => exact IpAddress.v4.inj (Option.some.inj heq)
  | v6 => exact (IpAddress.v6.inj (Option.some.inj heq)).1

/-- A value without a scope identifier that is accepted is a text. -/
theorem text_of_ok (hscope : ¬(family = .v6 ∧ Scoped (strip value)))
    (h : normalizeRecordValue U family.recordType value = .ok out) :
    ∃ n, family.Text (strip value) n ∧ out = (family.address n).format := by
  obtain ⟨addr, haddr, hversion, rfl⟩ := normalizeRecordValue_address_iff.mp h
  rcases eq_address_of_version hversion with ⟨n, rfl⟩ | ⟨rfl, ip, scope, rfl⟩
  · exact ⟨n, parse_eq_address_iff.mp haddr, rfl⟩
  · exact absurd ⟨rfl, ip, scope, parse_eq_v6_iff.mp haddr⟩ hscope

end

/-- A value of an A or AAAA record is treated as an address and nothing else
exactly if it is no AAAA value with a scope identifier. -/
theorem addressOnly_iff (U : Ucd) (family : Family) (value : Str) :
    AddressOnly U family value ↔ ¬(family = .v6 ∧ Scoped (strip value)) := by
  constructor
  · rintro honly ⟨rfl, ip, scope, htext⟩
    have hparse := parse_eq_v6_iff (o := some scope).mpr htext
    have hok : normalizeRecordValue U Family.v6.recordType value =
        .ok (IpAddress.v6 ip (some scope)).format :=
      normalizeRecordValue_address_iff.mpr ⟨_, hparse, rfl, rfl⟩
    obtain ⟨n, -, hn⟩ := honly.accepted.mp ⟨_, hok⟩
    have heq := hparse.symm.trans (parse_eq_v6_iff (o := none).mpr hn)
    simp at heq
  · intro hscope
    refine ⟨⟨?_, ?_⟩, ?_, ?_, ?_⟩
    · rintro ⟨out, hout⟩
      obtain ⟨n, htext, -⟩ := text_of_ok hscope hout
      exact ⟨n, lt_of_text htext, htext⟩
    · rintro ⟨n, -, htext⟩
      exact ⟨_, normalizeRecordValue_of_text htext⟩
    · intro out hout c hc
      obtain ⟨n, htext, rfl⟩ := text_of_ok hscope hout
      exact character_of_text (text_format (lt_of_text htext)) hc
    · intro out n other hout htext hother
      obtain ⟨m, hm, rfl⟩ := text_of_ok hscope hout
      rw [text_unique hm htext]
      exact normalizeRecordValue_of_text hother
    · intro out hout
      obtain ⟨n, htext, rfl⟩ := text_of_ok hscope hout
      have hformat := text_format (lt_of_text htext)
      exact normalizeRecordValue_of_text (by rwa [strip_of_text hformat])

/-- A link-local address with its interface is accepted as it is. -/
theorem not_addressOnly_scoped :
    normalizeRecordValue .ascii .aaaa (lit "fe80::1%eth0") = .ok (lit "fe80::1%eth0") ∧
      ¬AddressOnly .ascii .v6 (lit "fe80::1%eth0") := by
  have hok : normalizeRecordValue .ascii .aaaa (lit "fe80::1%eth0") =
      .ok (lit "fe80::1%eth0") := by decide
  refine ⟨hok, fun honly => ?_⟩
  rcases honly.characters _ hok '%' (by decide) with h | h | ⟨d, hd, h⟩
  · contradiction
  · contradiction
  · have hdigits : ∀ d < 16, '%' ≠ Nat.digitChar d ∧ '%' ≠ (Nat.digitChar d).toUpper := by decide
    rcases h with h | h
    · exact (hdigits d hd).1 h
    · exact (hdigits d hd).2 h

end ApiToDns
