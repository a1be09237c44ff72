import ApiToDns.Py.IpAddress
import Mathlib.Data.List.Forall2

/-!
# Py.AddressText

The texts of IPv4 and IPv6 addresses as a grammar, with the number that each
denotes, and that `ip_address` reads exactly these:

* `parseV4_eq_some_iff` — dotted quads;
* `parseV6Int_eq_some_iff` — eight groups, or fewer around a `::`, the last two
  of which may be a dotted quad;
* `parse_eq_v6_iff` — an IPv6 text, which a scope identifier may follow.
-/

namespace Py

namespace IpAddress

/-! ## the grammar -/

/-- A decimal number below 256, without leading zeros. -/
def Octet (t : Str) (n : Nat) : Prop := n < 256 ∧ t = natStr n

/-- The text of an IPv4 address. -/
def Ipv4Text (s : Str) (ip : Nat) : Prop :=
  ∃ ts ns, List.Forall₂ Octet ts ns ∧ ns.length = 4 ∧ s = join ['.'] ts ∧ ip = fromDigits 256 ns

/-- A hexadecimal digit of either case. -/
def HexDigit (c : Char) (d : Nat) : Prop := d < 16 ∧ (c = d.digitChar ∨ c = d.digitChar.toUpper)

/-- One to four hexadecimal digits. -/
def Hextet (t : Str) (n : Nat) : Prop :=
  0 < t.length ∧ t.length ≤ 4 ∧ ∃ ds, List.Forall₂ HexDigit t ds ∧ n = fromDigits 16 ds

/-- The last groups of a text: hextets, the last two of which may be written as
an IPv4 address. -/
inductive Groups : List Str → List Nat → Prop
  | nil : Groups [] []
  | quad {t : Str} {ip : Nat} (ht : Ipv4Text t ip) : Groups [t] [ip / 65536, ip % 65536]
  | cons {t : Str} {n : Nat} {ts : List Str} {ns : List Nat} (ht : Hextet t n)
      (hts : Groups ts ns) : Groups (t :: ts) (n :: ns)

/-- The text of an IPv6 address. -/
inductive Ipv6Text : Str → Nat → Prop
  | full {ts : List Str} {ns : List Nat} (hts : Groups ts ns) (hlen : ns.length = 8) :
      Ipv6Text (join [':'] ts) (fromDigits 65536 ns)
  /-- `::` stands for one group of zeros or more -/
  | gap {pre post : List Str} {ns ms : List Nat} (hpre : List.Forall₂ Hextet pre ns)
      (hpost : Groups post ms) (hlen : ns.length + ms.length < 8) :
      Ipv6Text (join [':'] pre ++ "::".toList ++ join [':'] post)
        (fromDigits 65536 (ns ++ List.replicate (8 - (ns.length + ms.length)) 0 ++ ms))

/-! ## reading numbers -/

/-- A list is read if every item is. -/
theorem mapM_eq_some_iff {f : α → Option β} {xs : List α} {ys : List β} :
    xs.mapM f = some ys ↔ List.Forall₂ (fun x y => f x = some y) xs ys := by
  induction xs generalizing ys with
  | nil =>
      rw [List.mapM_nil, List.forall₂_nil_left_iff, Option.pure_def, Option.some_inj, eq_comm]
  | cons x xs ih =>
      simp only [List.mapM_cons, Option.bind_eq_bind, Option.bind_eq_some_iff, Option.pure_def,
        Option.some_inj, ih]
      constructor
      · intro h
        obtain ⟨y, hy, ys', hys, rfl⟩ := h
        exact .cons hy hys
      · intro h
        cases h with
        | cons hy hys => exact ⟨_, hy, _, hys, rfl⟩

/-- An item of one list has its counterpart in the other. -/
theorem exists_of_forall₂ {R : α → β → Prop} {xs : List α} {ys : List β} {x : α}
    (h : List.Forall₂ R xs ys) (hx : x ∈ xs) : ∃ y, y ∈ ys ∧ R x y := by
  induction h with
  | nil => contradiction
  | @cons x' y xs ys hy _ ih =>
      rcases List.mem_cons.mp hx with rfl | hx
      · exact ⟨y, List.mem_cons_self, hy⟩
      · obtain ⟨y', hy', hR⟩ := ih hx
        exact ⟨y', List.mem_cons_of_mem y hy', hR⟩

/-- Digits without a leading zero are those of their number. -/
theorem toDigits_fromDigits {b d : Nat} {ds : List Nat} (hb : 1 < b) (hd : 0 < d)
    (h : ∀ x ∈ d :: ds, x < b) :
    0 < fromDigits b (d :: ds) ∧
      Nat.toDigits b (fromDigits b (d :: ds)) = (d :: ds).map Nat.digitChar := by
  induction ds using List.reverseRecOn with
  | nil =>
      have hone : fromDigits b [d] = d := by simp [fromDigits]
      rw [hone, Nat.toDigits_of_lt_base (h d List.mem_cons_self)]
      exact ⟨hd, rfl⟩
  | append_singleton ds e ih =>
      rw [← List.cons_append, List.forall_mem_append] at h
      obtain ⟨hpos, htext⟩ := ih h.1
      have he : e < b := h.2 e List.mem_cons_self
      have hstep : fromDigits b (d :: (ds ++ [e])) = b * fromDigits b (d :: ds) + e := by
        rw [← List.cons_append, fromDigits_append, Nat.mul_comm]
      rw [hstep, ← Nat.toDigits_append_toDigits hb hpos he, htext, Nat.toDigits_of_lt_base he]
      refine ⟨Nat.add_pos_left (Nat.mul_pos (by omega) hpos) e, ?_⟩
      simp

/-- `_parse_octet` reads exactly the octets. -/
theorem parseOctet_eq_some_iff {t : Str} {n : Nat} : parseOctet t = some n ↔ Octet t n := by
  constructor
  · intro h
    refine ⟨parseOctet_lt h, ?_⟩
    unfold parseOctet at h
    dsimp only at h
    split_ifs at h with hnil hdigits hlen hzero hbig
    rw [← Option.some.inj h]
    simp only [Bool.not_eq_true', Bool.not_eq_false, List.all_eq_true] at hdigits
    have htext : (t.map fun c => c.toNat - 48).map Nat.digitChar = t := by
      rw [List.map_map]
      exact (List.map_congr_left fun c hc => digitChar_of_isDigit (hdigits c hc)).trans
        (List.map_id t)
    cases t with
    | nil => contradiction
    | cons c cs =>
        by_cases hc : c = '0'
        · have hone : c :: cs = ['0'] := by simpa [hc] using hzero
          rw [hone]
          rfl
        · have hrange := toNat_of_isDigit (hdigits c List.mem_cons_self)
          have hpos : 0 < c.toNat - 48 := by
            by_contra hzero'
            have hnat : c.toNat = 48 := by omega
            exact hc (by rw [← Char.ofNat_toNat c, hnat])
          have hlt : ∀ x ∈ (c :: cs).map (fun c => c.toNat - 48), x < 10 := by
            intro x hx
            obtain ⟨e, he, rfl⟩ := List.mem_map.mp hx
            have := toNat_of_isDigit (hdigits e he)
            omega
          rw [natStr, List.map_cons, (toDigits_fromDigits (by decide) hpos hlt).2]
          exact htext.symm
  · intro h
    obtain ⟨hlt, rfl⟩ := h
    exact parseOctet_natStr hlt

/-- The hexadecimal digits, in both cases. -/
theorem hexDigit?_eq_some_iff {c : Char} {d : Nat} : hexDigit? c = some d ↔ HexDigit c d := by
  constructor
  · intro h
    have hlt := hexDigit?_lt h
    refine ⟨hlt, ?_⟩
    have hlower : ∀ n, 10 ≤ n → n < 16 → (n : Nat).digitChar = Char.ofNat (n + 87) := by decide
    have hupper : ∀ n, 10 ≤ n → n < 16 → (n : Nat).digitChar.toUpper = Char.ofNat (n + 55) := by
      decide
    unfold hexDigit? at h
    split_ifs at h with hdigit hrange hrange
    · rw [← Option.some.inj h, digitChar_of_isDigit hdigit]
      exact .inl rfl
    · simp only [Char.le_def, UInt32.le_iff_toNat_le, Char.toNat_val, Char.reduceToNat] at hrange
      have hd := Option.some.inj h
      left
      rw [hlower d (by omega) hlt, ← hd, Nat.sub_add_cancel (by omega), Char.ofNat_toNat]
    · simp only [Char.le_def, UInt32.le_iff_toNat_le, Char.toNat_val, Char.reduceToNat] at hrange
      have hd := Option.some.inj h
      right
      rw [hupper d (by omega) hlt, ← hd, Nat.sub_add_cancel (by omega), Char.ofNat_toNat]
  · intro h
    obtain ⟨hlt, hc⟩ := h
    have hall : ∀ n < 16, hexDigit? (n : Nat).digitChar = some n ∧
        hexDigit? n.digitChar.toUpper = some n := by decide
    rcases hc with rfl | rfl
    · exact (hall d hlt).1
    · exact (hall d hlt).2

/-- `_parse_hextet` reads exactly the hextets. -/
theorem parseHextet_eq_some_iff {t : Str} {n : Nat} : parseHextet t = some n ↔ Hextet t n := by
  unfold parseHextet Hextet
  split
  · next hbad =>
      constructor
      · intro h
        contradiction
      · intro h
        obtain ⟨hpos, hle, -⟩ := h
        rcases hbad with rfl | hlt
        · contradiction
        · omega
  · next hgood =>
      rw [not_or] at hgood
      have hpos := List.length_pos_iff.mpr hgood.1
      have hle : t.length ≤ 4 := by omega
      simp only [Option.map_eq_some_iff, mapM_eq_some_iff, hexDigit?_eq_some_iff, hpos, hle,
        true_and]
      exact exists_congr fun ds => and_congr_right fun _ => eq_comm

/-- Octets are read one by one. -/
theorem forall₂_octet_iff {ts : List Str} {ns : List Nat} :
    List.Forall₂ Octet ts ns ↔ ts.mapM parseOctet = some ns := by
  simp only [mapM_eq_some_iff, parseOctet_eq_some_iff]

/-- Hextets are read one by one. -/
theorem forall₂_hextet_iff {ts : List Str} {ns : List Nat} :
    List.Forall₂ Hextet ts ns ↔ ts.mapM parseHextet = some ns := by
  simp only [mapM_eq_some_iff, parseHextet_eq_some_iff]

/-! ## IPv4 texts -/

/-- An octet consists of digits. -/
theorem mem_of_octet {t : Str} {n : Nat} {c : Char} (h : Octet t n) (hc : c ∈ t) :
    c.isDigit = true := by
  rw [h.2] at hc
  exact mem_natStr hc

/-- Digits and dots. -/
theorem mem_ipv4Text {s : Str} {ip : Nat} {c : Char} (h : Ipv4Text s ip) (hc : c ∈ s) :
    c = '.' ∨ c.isDigit = true := by
  obtain ⟨ts, ns, hts, -, rfl, -⟩ := h
  rcases mem_join hc with hc | ⟨t, ht, hc⟩
  · exact .inl (List.mem_singleton.mp hc)
  · obtain ⟨n, -, hoctet⟩ := exists_of_forall₂ hts ht
    exact .inr (mem_of_octet hoctet hc)

/-- `IPv4Address` reads the dotted quads. -/
theorem parseV4_eq_some_iff {s : Str} {ip : Nat} : parseV4 s = some ip ↔ Ipv4Text s ip := by
  constructor
  · intro h
    unfold parseV4 at h
    dsimp only at h
    split_ifs at h with hbad hlen
    obtain ⟨ns, hns, rfl⟩ := Option.map_eq_some_iff.mp h
    have hoctets := forall₂_octet_iff.mpr hns
    refine ⟨s.splitOn '.', ns, hoctets, ?_, (List.intercalate_splitOn '.').symm, rfl⟩
    rw [← hoctets.length_eq, not_not.mp hlen]
  · intro h
    have hchars := fun c hc => mem_ipv4Text h (c := c) hc
    obtain ⟨ts, ns, hts, hlen, rfl, rfl⟩ := h
    have hlength : ts.length = 4 := by rw [hts.length_eq, hlen]
    have hdot : ∀ t ∈ ts, '.' ∉ t := by
      intro t ht hmem
      obtain ⟨n, -, hoctet⟩ := exists_of_forall₂ hts ht
      exact absurd (mem_of_octet hoctet hmem) (by decide)
    have hsplit := splitOn_join (List.ne_nil_of_length_pos (by omega)) hdot
    have hslash : ¬('/' ∈ join ['.'] ts ∨ join ['.'] ts = []) := by
      rintro (hmem | hnil)
      · rcases hchars '/' hmem with hc | hc <;> contradiction
      · exact join_ne_nil (by decide) (by omega) hnil
    rw [parseV4, if_neg hslash, hsplit, if_neg (by omega), forall₂_octet_iff.mp hts,
      Option.map_some]

/-! ## the groups of an IPv6 text -/

/-- The groups as the parts they are read from: an IPv4 text gives two. -/
theorem groups_iff {ts : List Str} {ns : List Nat} :
    Groups ts ns ↔ List.Forall₂ Hextet ts ns ∨
      ∃ init t ip ms, ts = init ++ [t] ∧ ns = ms ++ [ip / 65536, ip % 65536] ∧
        List.Forall₂ Hextet init ms ∧ Ipv4Text t ip := by
  constructor
  · intro h
    induction h with
    | nil => exact .inl .nil
    | @quad t ip ht => exact .inr ⟨[], t, ip, [], rfl, rfl, .nil, ht⟩
    | @cons t n ts ns ht hts ih =>
        rcases ih with hplain | ⟨init, q, ip, ms, rfl, rfl, hinit, hq⟩
        · exact .inl (.cons ht hplain)
        · exact .inr ⟨t :: init, q, ip, n :: ms, rfl, rfl, .cons ht hinit, hq⟩
  · intro h
    rcases h with hplain | ⟨init, q, ip, ms, rfl, rfl, hinit, hq⟩
    · induction hplain with
      | nil => exact .nil
      | cons ht _ ih => exact .cons ht ih
    · induction hinit with
      | nil => exact .quad hq
      | cons ht _ ih => exact .cons ht ih

/-- The parts on a side of the `::`: an empty one where no group is. -/
def side (ts : List Str) : List Str := if ts = [] then [[]] else ts

/-- The parts of a text with groups around a `::`. -/
def around (pre post : List Str) : List Str := side pre ++ [] :: side post

section Around

variable {pre post parts : List Str} {skip hi lo : Nat}

/-- There is a part on each side of the gap. -/
theorem side_ne_nil (ts : List Str) : side ts ≠ [] := by
  unfold side
  split <;> simp_all

/-- An empty side is one empty part. -/
theorem length_side (ts : List Str) : (side ts).length = if ts = [] then 1 else ts.length := by
  unfold side
  split <;> rfl

/-- Only the first part of a side can be empty. -/
theorem mem_side_tail {ts : List Str} (h : ∀ t ∈ ts, t ≠ []) : ∀ t ∈ (side ts).tail, t ≠ [] := by
  unfold side
  split
  · simp
  · intro t ht
    exact h t (List.mem_of_mem_tail ht)

/-- Only the last part of a side can be empty. -/
theorem mem_side_dropLast {ts : List Str} (h : ∀ t ∈ ts, t ≠ []) :
    ∀ t ∈ (side ts).dropLast, t ≠ [] := by
  unfold side
  split
  · simp
  · intro t ht
    exact h t (List.dropLast_subset _ ht)

/-- The gap is the one empty part inside. -/
theorem skipIndices_around (hpre : ∀ t ∈ pre, t ≠ []) (hpost : ∀ t ∈ post, t ≠ []) :
    skipIndices (around pre post) = [(side pre).length] :=
  skipIndices_gap (side_ne_nil pre) (side_ne_nil post) (mem_side_tail hpre)
    (mem_side_dropLast hpost)

/-- The first part is empty if nothing is before the gap. -/
theorem isEmpty_head_around (hpre : ∀ t ∈ pre, t ≠ []) :
    ((around pre post).getD 0 []).isEmpty = pre.isEmpty := by
  cases pre with
  | nil => rfl
  | cons t ts =>
      have hne := hpre t List.mem_cons_self
      simpa [around, side] using hne

/-- The last part is empty if nothing is behind the gap. -/
theorem isEmpty_getLast!_around (hpost : ∀ t ∈ post, t ≠ []) :
    (around pre post).getLast!.isEmpty = post.isEmpty := by
  rw [List.getLast!_eq_getLast?_getD]
  cases post using List.reverseRecOn with
  | nil => simp [around, side]
  | append_singleton ts t =>
      have hne : t.isEmpty = false := List.isEmpty_eq_false_iff.mpr (hpost t (by simp))
      simp [around, side, List.getLast?_append, List.getLast?_cons, hne]

/-- The numbers of parts before and behind the gap. -/
theorem hiLo_around (hpre : ∀ t ∈ pre, t ≠ []) (hpost : ∀ t ∈ post, t ≠ [])
    (hlen : pre.length + post.length < 8) :
    hiLo (around pre post) (side pre).length = some (pre.length, post.length) := by
  unfold hiLo
  simp only [isEmpty_getLast!_around hpost, isEmpty_head_around hpre]
  simp only [around, List.length_append, List.length_cons, length_side]
  cases pre <;> cases post <;> simp_all <;> omega

/-- The parts before the gap. -/
theorem take_around : (around pre post).take pre.length = pre := by
  cases pre with
  | nil => rfl
  | cons t ts => simp [around, side]

/-- The parts behind the gap. -/
theorem rtake_around : (around pre post).rtake post.length = post := by
  cases post with
  | nil => simp
  | cons t ts =>
      have hsplit : around pre (t :: ts) = side pre ++ [[]] ++ (t :: ts) := by
        simp [around, side]
      rw [List.rtake, hsplit]
      exact List.drop_left' (by simp; omega)

/-- Parts with one empty part inside, that the checks let through, stand around it. -/
theorem around_of_hiLo (hskip : skipIndices parts = [skip]) (h : hiLo parts skip = some (hi, lo)) :
    parts = around (parts.take hi) (parts.rtake lo) ∧ (parts.take hi).length = hi ∧
      (parts.rtake lo).length = lo := by
  have hmem : skip ∈ skipIndices parts := by rw [hskip]; exact List.mem_cons_self
  rw [skipIndices, List.mem_filter] at hmem
  obtain ⟨hrange, hinside⟩ := hmem
  simp only [Bool.and_eq_true, decide_eq_true_eq, List.isEmpty_iff] at hinside
  obtain ⟨⟨hpos, hend⟩, hnil⟩ := hinside
  rw [List.getD_eq_getElem _ _ (by omega)] at hnil
  have hsplit : parts = parts.take skip ++ [] :: parts.drop (skip + 1) := by
    rw [← hnil, List.cons_getElem_drop_succ, List.take_append_drop]
  have hfirst : parts.getD 0 [] = parts[0] := List.getD_eq_getElem _ _ (by omega)
  have hlast : parts.getLast! = parts[parts.length - 1] := by
    rw [List.getLast!_eq_getLast?_getD, List.getLast?_eq_getElem?, List.getElem?_eq_getElem (by omega)]
    rfl
  have hcases : (parts[0].isEmpty = true ∧ hi = 0 ∧ skip = 1 ∨
        parts[0].isEmpty = false ∧ hi = skip) ∧
      (parts[parts.length - 1].isEmpty = true ∧ lo = 0 ∧ skip + 2 = parts.length ∨
        parts[parts.length - 1].isEmpty = false ∧ lo = parts.length - skip - 1) := by
    unfold hiLo at h
    simp only [hfirst, hlast] at h
    generalize parts[0].isEmpty = first at *
    generalize parts[parts.length - 1].isEmpty = last at *
    cases first <;> cases last <;>
      simp only [if_true, if_false, Bool.true_and, Bool.false_and, Bool.false_eq_true, ne_eq,
        decide_not, Bool.not_eq_true', decide_eq_false_iff_not] at h <;>
      split_ifs at h <;> obtain ⟨rfl, rfl⟩ := Prod.mk.inj (Option.some.inj h) <;> simp <;> omega
  have hpre : parts.take skip = side (parts.take hi) ∧ hi ≤ parts.length := by
    rcases hcases.1 with ⟨hempty, rfl, rfl⟩ | ⟨-, rfl⟩
    · have hone : parts.take 1 = [parts[0]] := by
        rw [List.take_one, List.head?_eq_getElem?, List.getElem?_eq_getElem (by omega)]
        rfl
      rw [hone, List.isEmpty_iff.mp hempty]
      exact ⟨rfl, Nat.zero_le _⟩
    · have hne : parts.take hi ≠ [] := by
        rw [ne_eq, List.take_eq_nil_iff]
        rintro (h0 | hparts)
        · omega
        · simp [hparts] at hend
      rw [side, if_neg hne]
      exact ⟨rfl, by omega⟩
  have hpost : parts.drop (skip + 1) = side (parts.rtake lo) ∧ lo ≤ parts.length := by
    rcases hcases.2 with ⟨hempty, rfl, hlength⟩ | ⟨-, rfl⟩
    · have hone : parts.drop (skip + 1) = [parts[parts.length - 1]] := by
        rw [show skip + 1 = parts.length - 1 by omega, List.drop_eq_getElem_cons (by omega),
          List.drop_eq_nil_of_le (by omega)]
      rw [hone, List.isEmpty_iff.mp hempty, List.rtake_zero]
      exact ⟨rfl, Nat.zero_le _⟩
    · have hrtake : parts.rtake (parts.length - skip - 1) = parts.drop (skip + 1) := by
        rw [List.rtake]
        congr 1
        omega
      have hne : parts.drop (skip + 1) ≠ [] := by
        rw [ne_eq, List.drop_eq_nil_iff]
        omega
      rw [hrtake, side, if_neg hne]
      exact ⟨rfl, by omega⟩
  refine ⟨?_, by simp [hpre.2], by simp [List.rtake]; omega⟩
  rw [around, ← hpre.1, ← hpost.1]
  exact hsplit

end Around

/-! ## IPv6 texts -/

/-- A hextet consists of hexadecimal digits. -/
theorem not_mem_hextet {t : Str} {n : Nat} {c : Char} (h : Hextet t n)
    (hc : ∀ d < 16, c ≠ d.digitChar ∧ c ≠ d.digitChar.toUpper) : c ∉ t := by
  intro hmem
  obtain ⟨-, -, ds, hds, -⟩ := h
  obtain ⟨d, -, hlt, heq⟩ := exists_of_forall₂ hds hmem
  rcases heq with heq | heq
  · exact (hc d hlt).1 heq
  · exact (hc d hlt).2 heq

/-- A hextet is not empty. -/
theorem hextet_ne_nil {t : Str} {n : Nat} (h : Hextet t n) : t ≠ [] := List.length_pos_iff.mp h.1

/-- An IPv4 address has 32 bits. -/
theorem Ipv4Text.lt {t : Str} {ip : Nat} (h : Ipv4Text t ip) : ip < 256 ^ 4 := by
  obtain ⟨ts, ns, hts, hlen, -, rfl⟩ := h
  have hall : ∀ n ∈ ns, n < 256 := by
    intro n hn
    obtain ⟨t, -, ht⟩ := exists_of_forall₂ hts.flip hn
    exact ht.1
  have hlt := fromDigits_lt hall
  rwa [hlen] at hlt

/-- An IPv4 address has a dot. -/
theorem Ipv4Text.dot_mem {t : Str} {ip : Nat} (h : Ipv4Text t ip) : '.' ∈ t := by
  obtain ⟨ts, ns, hts, hlen, rfl, -⟩ := h
  rw [← hts.length_eq] at hlen
  match ts, hlen with
  | [a, b, c, d], _ => simp [join]

/-- The two groups of an IPv4 text, as `_ip_int_from_string` writes them. -/
def quadParts (ip : Nat) : List Str := [hexStr (ip / 65536 % 65536), hexStr (ip % 65536)]

/-- A dotted quad stands for two hextets. -/
theorem forall₂_quadParts {t : Str} {ip : Nat} (h : Ipv4Text t ip) :
    List.Forall₂ Hextet (quadParts ip) [ip / 65536, ip % 65536] := by
  have hlt := h.lt
  rw [forall₂_hextet_iff, mapM_eq_some_iff]
  refine .cons ?_ (.cons (parseHextet_hexStr (Nat.mod_lt _ (by decide))) .nil)
  rw [parseHextet_hexStr (Nat.mod_lt _ (by decide)), Nat.mod_eq_of_lt (by omega)]

/-- Hextets have one reading. -/
theorem forall₂_hextet_unique {ts : List Str} {ns ns' : List Nat} (h : List.Forall₂ Hextet ts ns)
    (h' : List.Forall₂ Hextet ts ns') : ns = ns' := by
  rw [forall₂_hextet_iff] at h h'
  exact Option.some.inj (h.symm.trans h')

section Parts

variable {s : Str} {parts : List Str}

/-- The parts of a text without a dotted quad. -/
theorem v6Parts_plain (hcolon : ∀ t ∈ parts, ':' ∉ t) (hdot : ∀ t ∈ parts, '.' ∉ t)
    (hlen : 3 ≤ parts.length) : v6Parts (join [':'] parts) = some parts := by
  have hne : parts ≠ [] := List.ne_nil_of_length_pos (by omega)
  have hlast : '.' ∉ parts.getLast! := by
    rw [List.getLast!_eq_getLast?_getD, List.getLast?_eq_getLast_of_ne_nil hne]
    exact hdot _ (List.getLast_mem hne)
  simp only [v6Parts, splitOn_join hne hcolon, if_neg (Nat.not_lt.mpr hlen), if_neg hlast]

/-- A dotted quad at the end is taken as two parts. -/
theorem v6Parts_quad {init : List Str} {t : Str} {ip : Nat} (hcolon : ∀ t ∈ init, ':' ∉ t)
    (ht : Ipv4Text t ip) (hlen : 2 ≤ init.length) :
    v6Parts (join [':'] (init ++ [t])) = some (init ++ quadParts ip) := by
  have hall : ∀ p ∈ init ++ [t], ':' ∉ p := by
    rw [List.forall_mem_append]
    refine ⟨hcolon, fun p hp => ?_⟩
    rw [List.mem_singleton.mp hp]
    intro hmem
    rcases mem_ipv4Text ht hmem with hc | hc <;> contradiction
  have hlast : (init ++ [t]).getLast! = t := by
    rw [List.getLast!_eq_getLast?_getD, List.getLast?_concat]
    rfl
  have hlength : ¬(init ++ [t]).length < 3 := by simp; omega
  simp only [v6Parts, splitOn_join (by simp) hall, if_neg hlength, hlast, if_pos ht.dot_mem,
    parseV4_eq_some_iff.mpr ht, Option.map_some, List.dropLast_concat]
  rfl

/-- The parts are those of the text, or its last part is an IPv4 text. -/
theorem v6Parts_cases (h : v6Parts s = some parts) :
    s = join [':'] parts ∨
      ∃ init t ip, s = join [':'] (init ++ [t]) ∧ Ipv4Text t ip ∧ parts = init ++ quadParts ip := by
  unfold v6Parts at h
  dsimp only at h
  have hjoin : s = join [':'] (s.splitOn ':') := (List.intercalate_splitOn ':').symm
  split_ifs at h with hlen hdot
  · obtain ⟨ip, hip, rfl⟩ := Option.map_eq_some_iff.mp h
    right
    have hne : s.splitOn ':' ≠ [] := List.ne_nil_of_length_pos (by omega)
    have hlast : (s.splitOn ':').getLast! = (s.splitOn ':').getLast hne := by
      rw [List.getLast!_eq_getLast?_getD, List.getLast?_eq_getLast_of_ne_nil hne]
      rfl
    rw [hlast] at hip
    refine ⟨(s.splitOn ':').dropLast, (s.splitOn ':').getLast hne, ip, ?_,
      parseV4_eq_some_iff.mp hip, rfl⟩
    rw [List.dropLast_append_getLast]
    exact hjoin
  · rw [← Option.some.inj h]
    exact .inl hjoin

/-- Eight hextets are read as one number. -/
theorem parseV6Int_plain {ns : List Nat} (hs : v6Parts s = some parts)
    (h : List.Forall₂ Hextet parts ns) (hlen : ns.length = 8) :
    parseV6Int s = some (fromDigits 65536 ns) := by
  have hlength : parts.length = 8 := by rw [h.length_eq, hlen]
  have hskip : skipIndices parts = [] := by
    rw [skipIndices, List.filter_eq_nil_iff]
    intro i hi
    have hlt := List.mem_range.mp hi
    obtain ⟨n, -, hn⟩ := exists_of_forall₂ h (List.getElem_mem hlt)
    simp [List.getElem?_eq_getElem hlt, hextet_ne_nil hn]
  have hne : s ≠ [] := by
    rintro rfl
    contradiction
  rw [parseV6Int, if_neg hne, hs]
  simp only [hlength, hskip, forall₂_hextet_iff.mp h, Option.map_some]
  rfl

/-- Hextets around a gap are read with zeros in between. -/
theorem parseV6Int_around {pre post : List Str} {ns ms : List Nat}
    (hs : v6Parts s = some (around pre post)) (hpre : List.Forall₂ Hextet pre ns)
    (hpost : List.Forall₂ Hextet post ms) (hlen : ns.length + ms.length < 8) :
    parseV6Int s = some
      (fromDigits 65536 (ns ++ List.replicate (8 - (ns.length + ms.length)) 0 ++ ms)) := by
  have hnil : ∀ {ts : List Str} {ks : List Nat}, List.Forall₂ Hextet ts ks → ∀ t ∈ ts, t ≠ [] := by
    intro ts ks h t ht
    obtain ⟨k, -, hk⟩ := exists_of_forall₂ h ht
    exact hextet_ne_nil hk
  have hne : s ≠ [] := by
    rintro rfl
    contradiction
  rw [← hpre.length_eq, ← hpost.length_eq] at hlen ⊢
  have hparts : ¬9 < (around pre post).length := by
    simp only [around, List.length_append, List.length_cons, length_side]
    split <;> split <;> simp_all <;> omega
  rw [parseV6Int, if_neg hne, hs]
  simp only [if_neg hparts, skipIndices_around (hnil hpre) (hnil hpost),
    hiLo_around (hnil hpre) (hnil hpost) hlen, take_around, rtake_around,
    forall₂_hextet_iff.mp hpre, forall₂_hextet_iff.mp hpost]

/-- What is read is eight parts, or parts around a `::`. -/
theorem parseV6Int_cases {n : Nat} (h : parseV6Int s = some n) :
    ∃ parts, v6Parts s = some parts ∧
      ((∃ ns, List.Forall₂ Hextet parts ns ∧ ns.length = 8 ∧ n = fromDigits 65536 ns) ∨
        ∃ pre post ns ms, parts = around pre post ∧ List.Forall₂ Hextet pre ns ∧
          List.Forall₂ Hextet post ms ∧ ns.length + ms.length < 8 ∧
          n = fromDigits 65536 (ns ++ List.replicate (8 - (ns.length + ms.length)) 0 ++ ms)) := by
  unfold parseV6Int at h
  split_ifs at h
  split at h
  · contradiction
  · next parts hparts =>
      refine ⟨parts, hparts, ?_⟩
      by_cases hnine : 9 < parts.length
      · rw [if_pos hnine] at h
        contradiction
      rw [if_neg hnine] at h
      split at h
      · split at h
        · contradiction
        · next height =>
            obtain ⟨ns, hns, rfl⟩ := Option.map_eq_some_iff.mp h
            have hall := forall₂_hextet_iff.mpr hns
            exact .inl ⟨ns, hall, by rw [← hall.length_eq, not_not.mp height], rfl⟩
      · next skip hskip =>
          split at h
          · contradiction
          · next hi lo hhilo =>
              obtain ⟨haround, hhi, hlo⟩ := around_of_hiLo hskip hhilo
              have hlt := hiLo_lt hhilo
              split at h
              · next ns ms hns hms =>
                  have hpre := forall₂_hextet_iff.mpr hns
                  have hpost := forall₂_hextet_iff.mpr hms
                  rw [← hhi, ← hlo, hpre.length_eq, hpost.length_eq] at hlt h
                  exact .inr ⟨_, _, ns, ms, haround, hpre, hpost, hlt, (Option.some.inj h).symm⟩
              · contradiction
      · contradiction

end Parts

/-- Joined lists one after the other. -/
theorem join_append {sep : Str} {xs ys : List Str} (hx : xs ≠ []) (hy : ys ≠ []) :
    join sep (xs ++ ys) = join sep xs ++ sep ++ join sep ys := by
  induction xs with
  | nil => contradiction
  | cons x xs ih =>
      cases xs with
      | nil =>
          obtain ⟨y, ys', rfl⟩ := List.exists_cons_of_ne_nil hy
          simp [join]
      | cons x' xs =>
          have hstep : ∀ zs, join sep (x :: x' :: zs) = x ++ sep ++ join sep (x' :: zs) := by
            simp [join]
          rw [List.cons_append, List.cons_append, hstep, ← List.cons_append, ih (by simp), hstep]
          simp

/-- A side is written as its parts. -/
theorem join_side (ts : List Str) : join [':'] (side ts) = join [':'] ts := by
  unfold side
  split
  · next h => rw [h]; rfl
  · rfl

/-- What is written around a gap. -/
theorem join_around (pre post : List Str) :
    join [':'] (around pre post) = join [':'] pre ++ "::".toList ++ join [':'] post := by
  have hpost : join [':'] ([] :: side post) = ':' :: join [':'] post := by
    have hsplit : [] :: side post = [[]] ++ side post := rfl
    rw [hsplit, join_append (by simp) (side_ne_nil post), join_side]
    rfl
  rw [around, join_append (side_ne_nil pre) (by simp), join_side, hpost]
  simp

/-- The last part of what is around a gap. -/
theorem around_concat (pre ts : List Str) (t : Str) :
    around pre (ts ++ [t]) = (side pre ++ [] :: ts) ++ [t] := by
  simp [around, side]

/-- Parts around a `::` that end in two nonempty ones. -/
theorem around_eq_append {pre post init : List Str} {a b : Str} (ha : a ≠ []) (hb : b ≠ [])
    (h : around pre post = init ++ [a, b]) :
    ∃ post', post = post' ++ [a, b] ∧ ∀ t, around pre (post' ++ [t]) = init ++ [t] := by
  have hinit : init ++ [a, b] = (init ++ [a]) ++ [b] := by simp
  rw [hinit] at h
  cases post using List.reverseRecOn with
  | nil =>
      have hlast : around pre [] = (side pre ++ [[]]) ++ [[]] := by simp [around, side]
      rw [hlast] at h
      exact absurd (List.append_inj' h rfl).2 (by simpa using hb.symm)
  | append_singleton ts y =>
      rw [around_concat] at h
      obtain ⟨hrest, hy⟩ := List.append_inj' h rfl
      obtain rfl : y = b := by simpa using hy
      cases ts using List.reverseRecOn with
      | nil => exact absurd (List.append_inj' hrest rfl).2 (by simpa using ha.symm)
      | append_singleton ts z =>
          have hsplit : side pre ++ [] :: (ts ++ [z]) = (side pre ++ [] :: ts) ++ [z] := by simp
          rw [hsplit] at hrest
          obtain ⟨hbefore, hz⟩ := List.append_inj' hrest rfl
          obtain rfl : z = a := by simpa using hz
          refine ⟨ts, by simp, fun t => ?_⟩
          rw [around_concat, hbefore]

/-- Groups that are read are the parts, whether or not they end in an IPv4 text. -/
theorem groups_of_quad {init : List Str} {t : Str} {ip : Nat} {ns : List Nat}
    (ht : Ipv4Text t ip) (h : List.Forall₂ Hextet (init ++ quadParts ip) ns) :
    Groups (init ++ [t]) ns := by
  have hinit := (List.forall₂_take_append _ _ _ h.flip).flip
  have hquad := (List.forall₂_drop_append _ _ _ h.flip).flip
  refine groups_iff.mpr (.inr ⟨init, t, ip, ns.take init.length, rfl, ?_, hinit, ht⟩)
  rw [← forall₂_hextet_unique hquad (forall₂_quadParts ht), List.take_append_drop]

/-- Hextets consist of hexadecimal digits. -/
theorem not_mem_of_forall₂ {ts : List Str} {ns : List Nat} {c : Char}
    (h : List.Forall₂ Hextet ts ns)
    (hc : ∀ d < 16, c ≠ d.digitChar ∧ c ≠ d.digitChar.toUpper) : ∀ t ∈ ts, c ∉ t := by
  intro t ht
  obtain ⟨n, -, hn⟩ := exists_of_forall₂ h ht
  exact not_mem_hextet hn hc

/-- A character that no part has is on no side. -/
theorem not_mem_side {ts : List Str} {c : Char} (h : ∀ t ∈ ts, c ∉ t) : ∀ t ∈ side ts, c ∉ t := by
  unfold side
  split
  · simp
  · exact h

/-- Nor is it around the gap. -/
theorem not_mem_around {pre post : List Str} {c : Char} (hpre : ∀ t ∈ pre, c ∉ t)
    (hpost : ∀ t ∈ post, c ∉ t) : ∀ t ∈ around pre post, c ∉ t := by
  rw [around, List.forall_mem_append, List.forall_mem_cons]
  exact ⟨not_mem_side hpre, by simp, not_mem_side hpost⟩

/-- A gap makes at least three parts. -/
theorem three_le_length_around (pre post : List Str) : 3 ≤ (around pre post).length := by
  have hpre := List.length_pos_iff.mpr (side_ne_nil pre)
  have hpost := List.length_pos_iff.mpr (side_ne_nil post)
  simp only [around, List.length_append, List.length_cons]
  omega

/-- `_ip_int_from_string` reads the texts of the grammar. -/
theorem parseV6Int_eq_some_iff {s : Str} {n : Nat} : parseV6Int s = some n ↔ Ipv6Text s n := by
  constructor
  · intro h
    obtain ⟨parts, hparts, ⟨ns, hns, hlen, rfl⟩ | ⟨pre, post, ns, ms, rfl, hns, hms, hlen, rfl⟩⟩ :=
      parseV6Int_cases h
    · rcases v6Parts_cases hparts with rfl | ⟨init, t, ip, rfl, ht, rfl⟩
      · exact .full (groups_iff.mpr (.inl hns)) hlen
      · exact .full (groups_of_quad ht hns) hlen
    · rcases v6Parts_cases hparts with rfl | ⟨init, t, ip, rfl, ht, heq⟩
      · rw [join_around]
        exact .gap hns (groups_iff.mpr (.inl hms)) hlen
      · obtain ⟨post', rfl, hinit⟩ := around_eq_append (hexStr_ne_nil _) (hexStr_ne_nil _) heq
        rw [← hinit, join_around]
        exact .gap hns (groups_of_quad ht hms) hlen
  · intro h
    cases h with
    | @full ts ns hts hlen =>
        rcases groups_iff.mp hts with hall | ⟨init, t, ip, ms, rfl, rfl, hinit, ht⟩
        · have hlength : 3 ≤ ts.length := by rw [hall.length_eq, hlen]; decide
          exact parseV6Int_plain (v6Parts_plain (not_mem_of_forall₂ hall (by decide))
            (not_mem_of_forall₂ hall (by decide)) hlength) hall hlen
        · have hlength : 2 ≤ init.length := by
            rw [hinit.length_eq]
            simp at hlen
            omega
          exact parseV6Int_plain (v6Parts_quad (not_mem_of_forall₂ hinit (by decide)) ht hlength)
            (List.rel_append hinit (forall₂_quadParts ht)) hlen
    | @gap pre post ns ms hpre hpost hlen =>
        rw [← join_around]
        rcases groups_iff.mp hpost with hall | ⟨init, t, ip, ms, rfl, rfl, hinit, ht⟩
        · refine parseV6Int_around (v6Parts_plain ?_ ?_ ?_) hpre hall hlen
          · exact not_mem_around (not_mem_of_forall₂ hpre (by decide))
              (not_mem_of_forall₂ hall (by decide))
          · exact not_mem_around (not_mem_of_forall₂ hpre (by decide))
              (not_mem_of_forall₂ hall (by decide))
          · exact three_le_length_around pre post
        · have hparts : v6Parts (join [':'] (around pre (init ++ [t]))) =
              some (around pre (init ++ quadParts ip)) := by
            have hquad : around pre (init ++ quadParts ip) =
                (side pre ++ [] :: init) ++ quadParts ip := by
              simp [around, side, quadParts]
            rw [around_concat, hquad]
            refine v6Parts_quad ?_ ht ?_
            · rw [List.forall_mem_append]
              refine ⟨not_mem_side (not_mem_of_forall₂ hpre (by decide)), ?_⟩
              exact List.forall_mem_cons.mpr ⟨by simp, not_mem_of_forall₂ hinit (by decide)⟩
            · have := List.length_pos_iff.mpr (side_ne_nil pre)
              simp
              omega
          exact parseV6Int_around hparts hpre (List.rel_append hinit (forall₂_quadParts ht)) hlen

/-! ## addresses -/

section Parse

variable {s t scope : Str} {ip : Nat}

/-- A text without the separator is one part. -/
theorem splitOn_of_not_mem {c : Char} (h : c ∉ s) : s.splitOn c = [s] := by
  have hall : ∀ p ∈ [s], c ∉ p := by simpa using h
  simpa using List.splitOn_intercalate c hall (by simp)

/-- An IPv6 address has a colon. -/
theorem Ipv6Text.colon_mem (h : Ipv6Text t ip) : ':' ∈ t := by
  by_contra hcolon
  obtain ⟨parts, hparts, -⟩ := parseV6Int_cases (parseV6Int_eq_some_iff.mpr h)
  rw [v6Parts, splitOn_of_not_mem hcolon] at hparts
  contradiction

/-- A text with a colon is no IPv4 text. -/
theorem parseV4_of_colon (h : ':' ∈ s) : parseV4 s = none := by
  cases hip : parseV4 s with
  | none => rfl
  | some ip =>
      rcases mem_ipv4Text (parseV4_eq_some_iff.mp hip) h with hc | hc <;> contradiction

/-- The characters of the groups. -/
theorem mem_groups {ts : List Str} {ns : List Nat} {c : Char} (h : Groups ts ns) (ht : t ∈ ts)
    (hc : c ∈ t) : c = '.' ∨ ∃ d < 16, c = d.digitChar ∨ c = d.digitChar.toUpper := by
  have hextet {t : Str} {n : Nat} (ht : Hextet t n) (hc : c ∈ t) :
      ∃ d < 16, c = d.digitChar ∨ c = d.digitChar.toUpper := by
    obtain ⟨-, -, ds, hds, -⟩ := ht
    obtain ⟨d, -, hlt, hd⟩ := exists_of_forall₂ hds hc
    exact ⟨d, hlt, hd⟩
  induction h with
  | nil => contradiction
  | @quad q ip hq =>
      rw [List.mem_singleton.mp ht] at hc
      refine (mem_ipv4Text hq hc).imp id fun hdigit => ?_
      have := toNat_of_isDigit hdigit
      exact ⟨c.toNat - 48, by omega, .inl (digitChar_of_isDigit hdigit).symm⟩
  | cons hfirst _ ih =>
      rcases List.mem_cons.mp ht with rfl | ht
      · exact .inr (hextet hfirst hc)
      · exact ih ht

/-- Hexadecimal digits, colons and dots. -/
theorem mem_ipv6Text {c : Char} (h : Ipv6Text t ip) (hc : c ∈ t) :
    c = ':' ∨ c = '.' ∨ ∃ d < 16, c = d.digitChar ∨ c = d.digitChar.toUpper := by
  cases h with
  | full hts _ =>
      refine (mem_join hc).imp List.mem_singleton.mp ?_
      rintro ⟨p, hp, hc⟩
      exact mem_groups hts hp hc
  | gap hpre hpost _ =>
      have hpre' := groups_iff.mpr (.inl hpre)
      rcases List.mem_append.mp hc with hc | hc
      · rcases List.mem_append.mp hc with hc | hc
        · refine (mem_join hc).imp List.mem_singleton.mp ?_
          rintro ⟨p, hp, hc⟩
          exact mem_groups hpre' hp hc
        · simp at hc
          exact .inl hc
      · refine (mem_join hc).imp List.mem_singleton.mp ?_
        rintro ⟨p, hp, hc⟩
        exact mem_groups hpost hp hc

/-- The characters of an IPv6 address. -/
theorem not_mem_ipv6Text {c : Char} (h : Ipv6Text t ip) (hcolon : c ≠ ':') (hdot : c ≠ '.')
    (hc : ∀ d < 16, c ≠ d.digitChar ∧ c ≠ d.digitChar.toUpper) : c ∉ t := by
  intro hmem
  rcases mem_ipv6Text h hmem with heq | heq | ⟨d, hd, heq⟩
  · exact hcolon heq
  · exact hdot heq
  · rcases heq with heq | heq
    · exact (hc d hd).1 heq
    · exact (hc d hd).2 heq

/-- `ip_address` reads the IPv4 texts as IPv4 addresses. -/
theorem parse_eq_v4_iff : parse s = some (.v4 ip) ↔ Ipv4Text s ip := by
  rw [← parseV4_eq_some_iff, parse]
  cases parseV4 s with
  | none => simp
  | some ip => simp

/-- An IPv6 text with a scope identifier. -/
def ScopedText (s : Str) (ip : Nat) (scope : Str) : Prop :=
  ∃ t, Ipv6Text t ip ∧ scope ≠ [] ∧ '%' ∉ scope ∧ '/' ∉ scope ∧ s = t ++ '%' :: scope

/-- Without a percent sign there is no scope. -/
theorem splitScopeId_of_not_mem (h : '%' ∉ t) : splitScopeId t = some (t, none) := by
  have hdrop : t.dropWhile (· ≠ '%') = [] := by
    rw [List.dropWhile_eq_nil_iff]
    intro c hc
    have hne : c ≠ '%' := fun heq => h (heq ▸ hc)
    simpa using hne
  rw [splitScopeId, hdrop]

/-- The scope follows the percent sign. -/
theorem splitScopeId_append (h : '%' ∉ t) (hscope : scope ≠ []) (hpercent : '%' ∉ scope) :
    splitScopeId (t ++ '%' :: scope) = some (t, some scope) := by
  have hall : ∀ c ∈ t, decide (c ≠ '%') = true := by
    intro c hc
    have hne : c ≠ '%' := fun heq => h (heq ▸ hc)
    simpa using hne
  have hdrop : (t ++ '%' :: scope).dropWhile (· ≠ '%') = '%' :: scope := by
    rw [List.dropWhile_append_of_pos hall]
    simp
  have htake : (t ++ '%' :: scope).takeWhile (· ≠ '%') = t := by
    rw [List.takeWhile_append_of_pos hall]
    simp
  rw [splitScopeId, hdrop, htake]
  simp [hscope, hpercent]

/-- A text has no scope, or one that is not empty. -/
theorem splitScopeId_cases {o : Option Str} (h : splitScopeId s = some (t, o)) :
    (o = none ∧ s = t) ∨
      ∃ scope, o = some scope ∧ scope ≠ [] ∧ '%' ∉ scope ∧ s = t ++ '%' :: scope := by
  have hsplit := List.takeWhile_append_dropWhile (p := fun c => decide (c ≠ '%')) (l := s)
  have hhead := List.head?_dropWhile_not (fun c => decide (c ≠ '%')) s
  unfold splitScopeId at h
  split at h
  · obtain ⟨rfl, rfl⟩ := Prod.mk.inj (Option.some.inj h)
    exact .inl ⟨rfl, rfl⟩
  · next c scope hdrop =>
      split_ifs at h with hbad
      rw [not_or] at hbad
      obtain ⟨htake, rfl⟩ := Prod.mk.inj (Option.some.inj h)
      rw [hdrop] at hhead hsplit
      have hc : c = '%' := by simpa using hhead
      exact .inr ⟨scope, rfl, hbad.1, hbad.2, by rw [← hsplit, htake, hc]⟩

/-- `ip_address` reads the IPv6 texts, and those with a scope identifier. -/
theorem parse_eq_v6_iff {o : Option Str} :
    parse s = some (.v6 ip o) ↔
      match o with
      | none => Ipv6Text s ip
      | some scope => ScopedText s ip scope := by
  constructor
  · intro h
    unfold parse at h
    split at h
    · simp at h
    · obtain ⟨⟨ip', o'⟩, hparse, heq⟩ := Option.map_eq_some_iff.mp h
      obtain ⟨rfl, rfl⟩ := IpAddress.v6.inj heq
      unfold parseV6 at hparse
      split_ifs at hparse with hslash
      split at hparse
      · contradiction
      · next addr o hsplit =>
          obtain ⟨ip'', hip, heq⟩ := Option.map_eq_some_iff.mp hparse
          obtain ⟨rfl, rfl⟩ := Prod.mk.inj heq
          have htext := parseV6Int_eq_some_iff.mp hip
          rcases splitScopeId_cases hsplit with ⟨rfl, rfl⟩ | ⟨scope, rfl, hne, hpercent, rfl⟩
          · exact htext
          · have hnot : '/' ∉ scope := fun hmem => hslash (by simp [hmem])
            exact ⟨addr, htext, hne, hpercent, hnot, rfl⟩
  · intro h
    have hchars {t : Str} (ht : Ipv6Text t ip) : '%' ∉ t ∧ '/' ∉ t :=
      ⟨not_mem_ipv6Text ht (by decide) (by decide) (by decide),
        not_mem_ipv6Text ht (by decide) (by decide) (by decide)⟩
    cases o with
    | none =>
        obtain ⟨hpercent, hslash⟩ := hchars h
        rw [parse, parseV4_of_colon h.colon_mem]
        simp only [parseV6, if_neg hslash, splitScopeId_of_not_mem hpercent,
          parseV6Int_eq_some_iff.mpr h, Option.map_some]
    | some scope =>
        obtain ⟨t, ht, hne, hpercent, hslash, rfl⟩ := h
        obtain ⟨hpercent', hslash'⟩ := hchars ht
        have hslash : '/' ∉ t ++ '%' :: scope := by simp [hslash, hslash']
        rw [parse, parseV4_of_colon (List.mem_append_left _ ht.colon_mem)]
        simp only [parseV6, if_neg hslash, splitScopeId_append hpercent' hne hpercent,
          parseV6Int_eq_some_iff.mpr ht, Option.map_some]

end Parse

end IpAddress

end Py
