import ApiToDns.Py.Str
import Mathlib.Data.List.GetD

/-!
# Py.IpAddress

`ipaddress.ip_address` of a text and `str` of its result, as the standard
library computes them: the strict dotted quad, the hextets with one `::`, an
embedded IPv4 tail, and a scope identifier after `%`.  The text of an address
is read as that address (`parse_format`).
-/

namespace Py

/-- An address object: its integer, and for IPv6 the scope identifier. -/
inductive IpAddress where
  | v4 (ip : Nat)
  | v6 (ip : Nat) (scopeId : Option Str)
deriving DecidableEq, Repr

namespace IpAddress

/-- Big-endian digits in base `b`. -/
def fromDigits (b : Nat) (ds : List Nat) : Nat := ds.foldl (fun n d => n * b + d) 0

/-! ## IPv4 -/

/-- `_parse_octet`. -/
def parseOctet (s : Str) : Option Nat :=
  if s = [] then none
  else if !s.all Char.isDigit then none
  else if 3 < s.length then none
  -- leading zeros are refused: they read as octal elsewhere
  else if s ≠ ['0'] ∧ s.head? = some '0' then none
  else
    let octet := fromDigits 10 (s.map fun c => c.toNat - 48)
    if 255 < octet then none else some octet

/-- `IPv4Address(s)`. -/
def parseV4 (s : Str) : Option Nat :=
  if '/' ∈ s ∨ s = [] then none
  else
    let octets := s.splitOn '.'
    if octets.length ≠ 4 then none
    else (octets.mapM parseOctet).map (fromDigits 256)

/-- The four octets of an IPv4 integer. -/
def octets (ip : Nat) : List Nat := [ip / 256 ^ 3 % 256, ip / 256 ^ 2 % 256, ip / 256 % 256, ip % 256]

/-- `str(IPv4Address(ip))`. -/
def formatV4 (ip : Nat) : Str := join ['.'] ((octets ip).map natStr)

/-! ## IPv6 -/

/-- A hexadecimal digit's value. -/
def hexDigit? (c : Char) : Option Nat :=
  if c.isDigit then some (c.toNat - 48)
  else if 'a' ≤ c ∧ c ≤ 'f' then some (c.toNat - 87)
  else if 'A' ≤ c ∧ c ≤ 'F' then some (c.toNat - 55)
  else none

/-- `_parse_hextet`. -/
def parseHextet (s : Str) : Option Nat :=
  if s = [] ∨ 4 < s.length then none
  else (s.mapM hexDigit?).map (fromDigits 16)

/-- The parts of an IPv6 text, an IPv4 tail turned into two hextets. -/
def v6Parts (s : Str) : Option (List Str) :=
  let parts := s.splitOn ':'
  if parts.length < 3 then none
  else if '.' ∈ parts.getLast! then
    (parseV4 parts.getLast!).map fun ip =>
      parts.dropLast ++ [hexStr (ip / 65536 % 65536), hexStr (ip % 65536)]
  else some parts

/-- Indices strictly inside the list that hold an empty part. -/
def skipIndices (parts : List Str) : List Nat :=
  (List.range parts.length).filter fun i =>
    1 ≤ i && i + 1 < parts.length && (parts.getD i []).isEmpty

/-- How many parts stand before and after the `::`, which must cover at
least one hextet and both ends of the text that are empty. -/
def hiLo (parts : List Str) (skip : Nat) : Option (Nat × Nat) :=
  let hi := if (parts.getD 0 []).isEmpty then skip - 1 else skip
  let lo := parts.length - skip - 1
  let lo := if parts.getLast!.isEmpty then lo - 1 else lo
  if (parts.getD 0 []).isEmpty && hi ≠ 0 then none
  else if parts.getLast!.isEmpty && lo ≠ 0 then none
  else if 8 ≤ hi + lo then none
  else some (hi, lo)

/-- `_BaseV6._ip_int_from_string`. -/
def parseV6Int (s : Str) : Option Nat :=
  if s = [] then none
  else
    match v6Parts s with
    | none => none
    | some parts =>
        if 9 < parts.length then none
        else
          match skipIndices parts with
          | [] =>
              if parts.length ≠ 8 then none
              else (parts.mapM parseHextet).map (fromDigits 65536)
          | [skip] =>
              match hiLo parts skip with
              | none => none
              | some (hi, lo) =>
                  match (parts.take hi).mapM parseHextet, (parts.rtake lo).mapM parseHextet with
                  | some his, some los =>
                      some (fromDigits 65536 (his ++ List.replicate (8 - (hi + lo)) 0 ++ los))
                  | _, _ => none
          | _ => none

/-- `_split_scope_id`. -/
def splitScopeId (s : Str) : Option (Str × Option Str) :=
  match s.dropWhile (· ≠ '%') with
  | [] => some (s, none)
  | _ :: scope =>
      if scope = [] ∨ '%' ∈ scope then none
      else some (s.takeWhile (· ≠ '%'), some scope)

/-- `IPv6Address(s)`. -/
def parseV6 (s : Str) : Option (Nat × Option Str) :=
  if '/' ∈ s then none
  else
    match splitScopeId s with
    | none => none
    | some (addr, scope) => (parseV6Int addr).map fun ip => (ip, scope)

/-- The eight hextets of an IPv6 integer. -/
def hextets (ip : Nat) : List Nat := (List.range 8).map fun i => ip / 65536 ^ (7 - i) % 65536

/-- The longest run of zero hextets met so far and the run being read. -/
structure ZeroRun where
  bestStart : Nat
  bestLen : Nat
  start : Option Nat
  len : Nat

/-- One step of the scan in `_compress_hextets`. -/
def ZeroRun.scan (r : ZeroRun) (index hextet : Nat) : ZeroRun :=
  if hextet = 0 then
    let start := r.start.getD index
    if r.bestLen < r.len + 1 then ⟨start, r.len + 1, some start, r.len + 1⟩
    else ⟨r.bestStart, r.bestLen, some start, r.len + 1⟩
  else ⟨r.bestStart, r.bestLen, none, 0⟩

/-- `_compress_hextets`. -/
def compressHextets (hs : List Nat) : List Str :=
  let best := hs.zipIdx.foldl (fun (r : ZeroRun) x => r.scan x.2 x.1) ⟨0, 0, none, 0⟩
  let texts := hs.map hexStr
  if 1 < best.bestLen then
    let stop := best.bestStart + best.bestLen
    let tail := if stop = hs.length then [[], []] else [] :: texts.drop stop
    let all := texts.take best.bestStart ++ tail
    if best.bestStart = 0 then [] :: all else all
  else texts

/-- `str(IPv6Address(…))`. -/
def formatV6 (ip : Nat) (scopeId : Option Str) : Str :=
  let text := join [':'] (compressHextets (hextets ip))
  match scopeId with
  | none => text
  | some scope => text ++ '%' :: scope

/-! ## either family -/

/-- `ip_address(s)`; `none` where Python raises `ValueError`. -/
def parse (s : Str) : Option IpAddress :=
  match parseV4 s with
  | some ip => some (.v4 ip)
  | none => (parseV6 s).map fun p => .v6 p.1 p.2

/-- `addr.version`. -/
def version : IpAddress → Nat
  | v4 _ => 4
  | v6 _ _ => 6

/-- `str(addr)`. -/
def format : IpAddress → Str
  | v4 ip => formatV4 ip
  | v6 ip scopeId => formatV6 ip scopeId

/-! ## texts read back -/

/-- One more digit. -/
theorem fromDigits_append (b : Nat) (ds : List Nat) (d : Nat) :
    fromDigits b (ds ++ [d]) = fromDigits b ds * b + d := by
  simp [fromDigits]

/-- A number is below the power of its digits. -/
theorem fromDigits_lt {b : Nat} {ds : List Nat} (h : ∀ d ∈ ds, d < b) :
    fromDigits b ds < b ^ ds.length := by
  induction ds using List.reverseRecOn with
  | nil => simp [fromDigits]
  | append_singleton ds d ih =>
      rw [List.forall_mem_append] at h
      have hd : d < b := h.2 d List.mem_cons_self
      have hds := ih h.1
      rw [fromDigits_append, List.length_append, List.length_singleton, Nat.pow_succ]
      calc fromDigits b ds * b + d < fromDigits b ds * b + b := by omega
        _ = (fromDigits b ds + 1) * b := (Nat.succ_mul _ _).symm
        _ ≤ b ^ ds.length * b := Nat.mul_le_mul_right b hds

/-- A text of four octets, as `ip_address` writes it, is read back. -/
theorem parseOctet_natStr {n : Nat} (h : n < 256) : parseOctet (natStr n) = some n := by
  revert n
  decide +kernel

/-- What is written item by item is read item by item. -/
theorem mapM_of_forall {f : α → β} {g : β → Option α} {xs : List α} (h : ∀ x ∈ xs, g (f x) = some x) :
    (xs.map f).mapM g = some xs := by
  induction xs with
  | nil => rfl
  | cons x xs ih =>
      rw [List.forall_mem_cons] at h
      simp [h.1, ih h.2]

/-- The last `k` digits of a number. -/
theorem fromDigits_digits (b ip k : Nat) :
    fromDigits b ((List.range k).map fun i => ip / b ^ (k - 1 - i) % b) = ip % b ^ k := by
  induction k generalizing ip with
  | zero => simp [fromDigits, Nat.mod_one]
  | succ k ih =>
      have hmap : ((List.range k).map fun i => ip / b ^ (k + 1 - 1 - i) % b) =
          (List.range k).map fun i => ip / b / b ^ (k - 1 - i) % b := by
        refine List.map_congr_left fun i hi => ?_
        have hlt := List.mem_range.mp hi
        have hexp : k + 1 - 1 - i = (k - 1 - i) + 1 := by omega
        rw [hexp, Nat.pow_succ', Nat.div_div_eq_div_mul]
      rw [List.range_succ, List.map_append, List.map_singleton, fromDigits_append, hmap, ih,
        Nat.pow_succ', Nat.mod_mul, Nat.mul_comm]
      simp [Nat.add_comm]

/-- An IPv4 address is its octets. -/
theorem fromDigits_octets {ip : Nat} (h : ip < 256 ^ 4) : fromDigits 256 (octets ip) = ip := by
  simp only [fromDigits, octets, List.foldl_cons, List.foldl_nil]
  omega

/-- An IPv6 address is its hextets. -/
theorem fromDigits_hextets {ip : Nat} (h : ip < 65536 ^ 8) : fromDigits 65536 (hextets ip) = ip :=
  (fromDigits_digits 65536 ip 8).trans (Nat.mod_eq_of_lt h)

/-- An IPv4 address is read back. -/
theorem parseV4_formatV4 {ip : Nat} (h : ip < 256 ^ 4) : parseV4 (formatV4 ip) = some ip := by
  have hsplit : (formatV4 ip).splitOn '.' = (octets ip).map natStr := by
    refine List.splitOn_intercalate '.' ?_ (by simp [octets])
    simp [not_mem_natStr]
  have hslash : ¬('/' ∈ formatV4 ip ∨ formatV4 ip = []) := by
    rintro (hmem | hnil)
    · obtain hmem | ⟨part, hpart, hmem⟩ := mem_join hmem
      · contradiction
      · obtain ⟨n, -, rfl⟩ := List.mem_map.mp hpart
        exact not_mem_natStr (by decide) hmem
    · rw [hnil] at hsplit
      simp [octets] at hsplit
  rw [parseV4, if_neg hslash, hsplit, if_neg (by simp [octets]),
    mapM_of_forall (g := parseOctet), Option.map_some, fromDigits_octets h]
  intro n hn
  refine parseOctet_natStr ?_
  simp only [octets, List.mem_cons, List.not_mem_nil, or_false] at hn
  omega

/-! ### hextets -/

/-- A hexadecimal digit is read back. -/
theorem hexDigit?_digitChar {d : Nat} (h : d < 16) : hexDigit? d.digitChar = some d := by
  revert d
  decide

/-- A number is read back from its hexadecimal digits. -/
theorem mapM_hexDigit? (n : Nat) :
    ∃ ds, (hexStr n).mapM hexDigit? = some ds ∧ fromDigits 16 ds = n := by
  unfold hexStr
  induction n using Nat.strongRecOn with
  | ind n ih =>
      rw [Nat.toDigits_eq_if (by decide)]
      split
      · next hlt => exact ⟨[n], by simp [hexDigit?_digitChar hlt], by simp [fromDigits]⟩
      · next hge =>
          obtain ⟨ds, hds, hn⟩ := ih (n / 16) (by omega)
          refine ⟨ds ++ [n % 16], ?_, ?_⟩
          · simp [List.mapM_append, hds, hexDigit?_digitChar (show n % 16 < 16 by omega)]
          · rw [fromDigits_append, hn]
            omega

/-- A hextet is read back. -/
theorem parseHextet_hexStr {n : Nat} (h : n < 65536) : parseHextet (hexStr n) = some n := by
  obtain ⟨ds, hds, hn⟩ := mapM_hexDigit? n
  have hlen : (hexStr n).length ≤ 4 := (Nat.length_toDigits_le_iff (by decide) (by decide)).mpr h
  rw [parseHextet, if_neg (by simp [hexStr_ne_nil]; omega), hds, Option.map_some, hn]

/-! ### the run that is compressed -/

/-- What the scan knows after the first `k` of the hextets. -/
structure ZeroRun.Scanned (hs : List Nat) (k : Nat) (r : ZeroRun) : Prop where
  best_le : r.bestStart + r.bestLen ≤ k
  best : ∀ i, r.bestStart ≤ i → i < r.bestStart + r.bestLen → hs.getD i 1 = 0
  current : ∀ start ∈ r.start, start + r.len = k ∧ ∀ i, start ≤ i → i < k → hs.getD i 1 = 0
  none : r.start = none → r.len = 0

/-- The longest run of zeros after one more hextet. -/
theorem ZeroRun.Scanned.scan {hs : List Nat} {k : Nat} {r : ZeroRun} (h : r.Scanned hs k) :
    (r.scan k (hs.getD k 1)).Scanned hs (k + 1) := by
  obtain ⟨bestStart, bestLen, start, len⟩ := r
  obtain ⟨hle, hbest, hcurrent, hnone⟩ := h
  simp only at hle hbest hcurrent hnone
  unfold ZeroRun.scan
  split
  · next hzero =>
      have hrun : start.getD k + len = k ∧ ∀ i, start.getD k ≤ i → i < k + 1 → hs.getD i 1 = 0 := by
        cases start with
        | none =>
            have hlen := hnone rfl
            refine ⟨by simp [hlen], fun i hi hi' => ?_⟩
            rw [show i = k by simp at hi; omega, hzero]
        | some start =>
            obtain ⟨hsum, hall⟩ := hcurrent start rfl
            refine ⟨hsum, fun i hi hi' => ?_⟩
            rcases Nat.lt_succ_iff_lt_or_eq.mp hi' with hlt | heq
            · exact hall i hi hlt
            · rw [heq, hzero]
      split
      · refine ⟨by simp only; omega, fun i hi hi' => hrun.2 i hi (by simp only at hi'; omega), ?_, ?_⟩
        · rintro _ ⟨⟩
          exact ⟨by simp only; omega, hrun.2⟩
        · simp
      · refine ⟨by simp only; omega, hbest, ?_, ?_⟩
        · rintro _ ⟨⟩
          exact ⟨by simp only; omega, hrun.2⟩
        · simp
  · exact ⟨by simp only; omega, hbest, by simp, by simp⟩

/-- The run found in the hextets. -/
def longestRun (hs : List Nat) : ZeroRun :=
  hs.zipIdx.foldl (fun (r : ZeroRun) x => r.scan x.2 x.1) ⟨0, 0, none, 0⟩

/-- The longest run of zeros after the hextets that follow. -/
theorem scanned_foldl (pre : List Nat) {hs suf : List Nat} {r : ZeroRun} (hsplit : hs = pre ++ suf)
    (h : r.Scanned hs pre.length) :
    ((suf.zipIdx pre.length).foldl (fun (r : ZeroRun) x => r.scan x.2 x.1) r).Scanned hs hs.length := by
  induction suf generalizing pre r with
  | nil =>
      rw [hsplit, List.append_nil] at *
      exact h
  | cons x suf ih =>
      rw [List.zipIdx_cons, List.foldl_cons]
      have hx : hs.getD pre.length 1 = x := by simp [hsplit]
      have hstep := h.scan
      rw [hx] at hstep
      have hpre := ih (pre ++ [x]) (by simp [hsplit]) (by simpa using hstep)
      simpa using hpre

/-- The longest run of zeros. -/
theorem scanned_longestRun (hs : List Nat) : (longestRun hs).Scanned hs hs.length :=
  scanned_foldl [] rfl ⟨by simp, by simp, by simp, by simp⟩

/-- The parts on a side of the `::`: an empty one where no hextets are left. -/
def gapSide (hs : List Nat) : List Str := if hs = [] then [[]] else hs.map hexStr

/-- The parts of a text with `::` between the hextets `pre` and `post`. -/
def gapParts (pre post : List Nat) : List Str := gapSide pre ++ [] :: gapSide post

/-- `_compress_hextets` leaves the hextets, or puts `::` for two zeros or more. -/
theorem compressHextets_cases (hs : List Nat) :
    compressHextets hs = hs.map hexStr ∨
      ∃ pre n post, 2 ≤ n ∧ hs = pre ++ List.replicate n 0 ++ post ∧
        compressHextets hs = gapParts pre post := by
  obtain ⟨hle, hbest, -, -⟩ := scanned_longestRun hs
  unfold compressHextets
  rw [show hs.zipIdx.foldl _ _ = longestRun hs from rfl]
  generalize longestRun hs = best at hle hbest
  obtain ⟨s, n, start, len⟩ := best
  dsimp only at hle hbest ⊢
  split
  · next hn =>
      right
      have hgap : (hs.drop s).take n = List.replicate n 0 := by
        refine List.eq_replicate_iff.mpr ⟨by simp; omega, fun x hx => ?_⟩
        obtain ⟨i, hi, rfl⟩ := List.mem_iff_getElem.mp hx
        simp only [List.length_take, List.length_drop] at hi
        have hzero := hbest (s + i) (by omega) (by omega)
        rw [List.getD_eq_getElem?_getD, List.getElem?_eq_getElem (by omega), Option.getD_some] at hzero
        simpa using hzero
      refine ⟨hs.take s, n, hs.drop (s + n), hn, ?_, ?_⟩
      · rw [← hgap, ← List.drop_drop, List.append_assoc, List.take_append_drop, List.take_append_drop]
      · have hpre : hs.take s = [] ↔ s = 0 := by
          rw [List.take_eq_nil_iff]
          constructor
          · rintro (h | h)
            · exact h
            · rw [h] at hle; simp at hle; omega
          · exact .inl
        have hpost : hs.drop (s + n) = [] ↔ s + n = hs.length := by
          rw [List.drop_eq_nil_iff]
          omega
        simp only [gapParts, gapSide, hpre, hpost, List.map_take, List.map_drop]
        by_cases hend : s + n = hs.length
        · by_cases hs0 : s = 0
          · simp [hs0, show n = hs.length by omega]
          · simp [hs0, hend]
        · by_cases hs0 : s = 0
          · simp [hs0, show n ≠ hs.length by omega]
          · simp [hs0, hend]
  · exact .inl rfl

/-! ### reading the parts -/

/-- Parts without the separator are split again. -/
theorem splitOn_join {c : Char} {parts : List Str} (hne : parts ≠ []) (h : ∀ p ∈ parts, c ∉ p) :
    (join [c] parts).splitOn c = parts :=
  List.splitOn_intercalate c h hne

/-- The one empty part inside. -/
theorem skipIndices_gap {X Y : List Str} (hX : X ≠ []) (hY : Y ≠ []) (hX' : ∀ p ∈ X.tail, p ≠ [])
    (hY' : ∀ p ∈ Y.dropLast, p ≠ []) : skipIndices (X ++ [] :: Y) = [X.length] := by
  have hXpos := List.length_pos_iff.mpr hX
  have hYpos := List.length_pos_iff.mpr hY
  have hskip : ∀ i ∈ List.range (X ++ [] :: Y).length,
      (1 ≤ i && i + 1 < (X ++ [] :: Y).length && ((X ++ [] :: Y).getD i []).isEmpty) =
        (i == X.length) := by
    intro i hi
    rw [List.mem_range, List.length_append, List.length_cons] at hi
    rw [List.length_append, List.length_cons, Bool.eq_iff_iff]
    simp only [Bool.and_eq_true, decide_eq_true_eq, List.isEmpty_iff, beq_iff_eq]
    rcases Nat.lt_trichotomy i X.length with hlt | heq | hgt
    · rw [List.getD_append _ _ _ _ hlt, List.getD_eq_getElem _ _ hlt]
      refine ⟨fun ⟨⟨hpos, _⟩, hnil⟩ => absurd hnil (hX' _ ?_), fun heq => absurd heq (by omega)⟩
      rw [List.mem_iff_getElem]
      exact ⟨i - 1, by simp; omega, by simp [Nat.sub_add_cancel hpos]⟩
    · rw [List.getD_append_right _ _ _ _ (by omega), heq]
      simp
      omega
    · rw [List.getD_append_right _ _ _ _ (by omega)]
      obtain ⟨j, rfl⟩ := Nat.exists_eq_add_of_lt hgt
      rw [show X.length + j + 1 - X.length = j + 1 by omega, List.getD_cons_succ]
      refine ⟨fun ⟨⟨_, hend⟩, hnil⟩ => ?_, fun heq => absurd heq (by omega)⟩
      rw [List.getD_eq_getElem _ _ (by omega)] at hnil
      refine absurd hnil (hY' _ ?_)
      rw [List.mem_iff_getElem]
      exact ⟨j, by simp; omega, by simp⟩
  unfold skipIndices
  rw [List.filter_congr hskip, List.filter_beq, List.count_range, if_pos (by simp)]
  rfl

/-- An empty side is one empty part. -/
theorem length_gapSide (hs : List Nat) :
    (gapSide hs).length = if hs.isEmpty then 1 else hs.length := by
  cases hs <;> simp [gapSide]

/-- The last part around a gap. -/
theorem getLast!_gapParts (pre post : List Nat) :
    (gapParts pre post).getLast! = ((post.getLast?).map hexStr).getD [] := by
  rw [List.getLast!_eq_getLast?_getD]
  cases post using List.reverseRecOn with
  | nil => simp [gapParts, gapSide]
  | append_singleton post h => simp [gapParts, gapSide, List.getLast?_append, List.getLast?_cons]

/-- The last part is empty if nothing is behind the gap. -/
theorem isEmpty_getLast!_gapParts (pre post : List Nat) :
    (gapParts pre post).getLast!.isEmpty = post.isEmpty := by
  rw [getLast!_gapParts]
  cases post using List.reverseRecOn with
  | nil => rfl
  | append_singleton post h => simp [List.isEmpty_eq_false_iff.mpr (hexStr_ne_nil h)]

/-- The first part is empty if nothing is before the gap. -/
theorem isEmpty_head_gapParts (pre post : List Nat) :
    ((gapParts pre post).getD 0 []).isEmpty = pre.isEmpty := by
  cases pre with
  | nil => rfl
  | cons h pre => simp [gapParts, gapSide, hexStr_ne_nil]

/-- The gap is the one empty part inside. -/
theorem skipIndices_gapParts (pre post : List Nat) :
    skipIndices (gapParts pre post) = [(gapSide pre).length] := by
  have hne : ∀ hs, gapSide hs ≠ [] := fun hs => by cases hs <;> simp [gapSide]
  refine skipIndices_gap (hne pre) (hne post) ?_ ?_
  · intro p hp
    cases pre with
    | nil => simp [gapSide] at hp
    | cons h pre =>
        obtain ⟨n, -, rfl⟩ := List.mem_map.mp (show p ∈ pre.map hexStr from hp)
        exact hexStr_ne_nil n
  · intro p hp
    cases post with
    | nil => simp [gapSide] at hp
    | cons h post =>
        obtain ⟨n, -, rfl⟩ := List.mem_map.mp (List.dropLast_subset _ hp)
        exact hexStr_ne_nil n

/-- The numbers of parts before and behind the gap. -/
theorem hiLo_gapParts {pre post : List Nat} (h : pre.length + post.length < 8) :
    hiLo (gapParts pre post) (gapSide pre).length = some (pre.length, post.length) := by
  unfold hiLo
  simp only [isEmpty_getLast!_gapParts, isEmpty_head_gapParts]
  simp only [gapParts, List.length_append, List.length_cons, length_gapSide]
  cases pre <;> cases post <;> simp_all <;> omega

/-- The parts before the gap. -/
theorem take_gapParts (pre post : List Nat) :
    (gapParts pre post).take pre.length = pre.map hexStr := by
  cases pre with
  | nil => simp
  | cons h pre => simp [gapParts, gapSide]

/-- The parts behind the gap. -/
theorem rtake_gapParts (pre post : List Nat) :
    (gapParts pre post).rtake post.length = post.map hexStr := by
  cases post with
  | nil => simp
  | cons h post =>
      have hsplit : gapParts pre (h :: post) = gapSide pre ++ [[]] ++ (h :: post).map hexStr := by
        simp [gapParts, gapSide]
      rw [List.rtake, hsplit]
      exact List.drop_left' (by simp; omega)

/-- Hextets are read back one by one. -/
theorem mapM_parseHextet {hs : List Nat} (h : ∀ n ∈ hs, n < 65536) :
    (hs.map hexStr).mapM parseHextet = some hs :=
  mapM_of_forall fun n hn => parseHextet_hexStr (h n hn)

/-- The parts of a side are empty or hextets. -/
theorem mem_gapSide {hs : List Nat} {p : Str} (h : p ∈ gapSide hs) : p = [] ∨ ∃ n, p = hexStr n := by
  unfold gapSide at h
  split at h
  · exact .inl (List.mem_singleton.mp h)
  · obtain ⟨n, -, rfl⟩ := List.mem_map.mp h
    exact .inr ⟨n, rfl⟩

/-- The parts around a gap are empty or hextets. -/
theorem mem_gapParts {pre post : List Nat} {p : Str} (h : p ∈ gapParts pre post) :
    p = [] ∨ ∃ n, p = hexStr n := by
  rcases List.mem_append.mp h with h | h
  · exact mem_gapSide h
  · rcases List.mem_cons.mp h with h | h
    · exact .inl h
    · exact mem_gapSide h

/-- The parts of a written address. -/
theorem v6Parts_join {parts : List Str} (h : ∀ p ∈ parts, p = [] ∨ ∃ n, p = hexStr n)
    (hlen : 3 ≤ parts.length) : v6Parts (join [':'] parts) = some parts := by
  have hchar : ∀ c, (∀ d < 16, c ≠ d.digitChar) → ∀ p ∈ parts, c ∉ p := by
    intro c hc p hp
    rcases h p hp with rfl | ⟨n, rfl⟩
    · simp
    · exact not_mem_hexStr hc
  have hne : parts ≠ [] := List.ne_nil_of_length_pos (by omega)
  have hdot : '.' ∉ parts.getLast! := by
    rw [List.getLast!_eq_getLast?_getD, List.getLast?_eq_getLast_of_ne_nil hne]
    exact hchar '.' (by decide) _ (List.getLast_mem hne)
  have hsplit := splitOn_join hne (hchar ':' (by decide))
  simp only [v6Parts, hsplit, if_neg (Nat.not_lt.mpr hlen), if_neg hdot]

/-- An address with a gap is read back. -/
theorem parseV6Int_gap {pre post : List Nat} (hpre : ∀ h ∈ pre, h < 65536)
    (hpost : ∀ h ∈ post, h < 65536) (hlen : pre.length + post.length < 7) :
    parseV6Int (join [':'] (gapParts pre post)) =
      some (fromDigits 65536 (pre ++ List.replicate (8 - (pre.length + post.length)) 0 ++ post)) := by
  have hparts : 3 ≤ (gapParts pre post).length ∧ (gapParts pre post).length ≤ 9 := by
    simp only [gapParts, List.length_append, List.length_cons, length_gapSide]
    cases pre <;> cases post <;> simp_all <;> omega
  rw [parseV6Int, if_neg (join_ne_nil (by decide) (by omega)),
    v6Parts_join (fun p hp => mem_gapParts hp) hparts.1]
  simp only [if_neg (Nat.not_lt.mpr hparts.2), skipIndices_gapParts,
    hiLo_gapParts (Nat.lt_of_lt_of_le hlen (by decide)), take_gapParts, rtake_gapParts,
    mapM_parseHextet hpre, mapM_parseHextet hpost]

/-- An address without a gap is read back. -/
theorem parseV6Int_full {hs : List Nat} (hhs : ∀ h ∈ hs, h < 65536) (hlen : hs.length = 8) :
    parseV6Int (join [':'] (hs.map hexStr)) = some (fromDigits 65536 hs) := by
  have hskip : skipIndices (hs.map hexStr) = [] := by
    rw [skipIndices, List.filter_eq_nil_iff]
    intro i hi
    rw [List.mem_range, List.length_map] at hi
    simp [hi, hexStr_ne_nil]
  rw [parseV6Int, if_neg (join_ne_nil (by decide) (by simp [hlen])), v6Parts_join ?_ (by simp [hlen])]
  · simp only [List.length_map, hlen, hskip, mapM_parseHextet hhs, Option.map_some]
    rfl
  · intro p hp
    obtain ⟨n, -, rfl⟩ := List.mem_map.mp hp
    exact .inr ⟨n, rfl⟩

/-! ### addresses -/

/-- There are eight hextets. -/
theorem length_hextets (ip : Nat) : (hextets ip).length = 8 := rfl

/-- A hextet has 16 bits. -/
theorem hextets_lt (ip : Nat) : ∀ h ∈ hextets ip, h < 65536 := by
  intro h hh
  obtain ⟨i, -, rfl⟩ := List.mem_map.mp hh
  exact Nat.mod_lt _ (by decide)

/-- An IPv6 address is read back. -/
theorem parseV6Int_format {ip : Nat} (h : ip < 65536 ^ 8) :
    parseV6Int (join [':'] (compressHextets (hextets ip))) = some ip := by
  have hlt := hextets_lt ip
  have hlen := length_hextets ip
  have hvalue := fromDigits_hextets h
  obtain heq | ⟨pre, n, post, hn, hsplit, heq⟩ := compressHextets_cases (hextets ip)
  · rw [heq, parseV6Int_full hlt hlen, hvalue]
  · rw [hsplit] at hlt hlen hvalue
    simp only [List.length_append, List.length_replicate] at hlen
    simp only [List.forall_mem_append] at hlt
    rw [heq, parseV6Int_gap hlt.1.1 hlt.2 (by omega),
      show 8 - (pre.length + post.length) = n by omega, hvalue]

/-- The integer fits the family. -/
def InRange : IpAddress → Prop
  | v4 ip => ip < 256 ^ 4
  | v6 ip _ => ip < 65536 ^ 8

/-- The items that are read are as many, each read from one. -/
theorem mapM_eq_some {f : α → Option β} {xs : List α} {ys : List β} (h : xs.mapM f = some ys) :
    ys.length = xs.length ∧ ∀ y ∈ ys, ∃ x ∈ xs, f x = some y := by
  induction xs generalizing ys with
  | nil =>
      rw [List.mapM_nil, Option.pure_def, Option.some_inj] at h
      simp [← h]
  | cons x xs ih =>
      simp only [List.mapM_cons, Option.bind_eq_bind, Option.bind_eq_some_iff, Option.pure_def,
        Option.some_inj] at h
      obtain ⟨y, hy, ys', hys, rfl⟩ := h
      obtain ⟨hlen, hmem⟩ := ih hys
      refine ⟨by simp [hlen], fun z hz => ?_⟩
      rcases List.mem_cons.mp hz with rfl | hz
      · exact ⟨x, List.mem_cons_self, hy⟩
      · obtain ⟨w, hw, heq⟩ := hmem z hz
        exact ⟨w, List.mem_cons_of_mem _ hw, heq⟩

/-- An octet has eight bits. -/
theorem parseOctet_lt {s : Str} {n : Nat} (h : parseOctet s = some n) : n < 256 := by
  unfold parseOctet at h
  dsimp only at h
  split_ifs at h with _ _ _ _ hlt
  rw [← Option.some.inj h]
  omega

/-- A hexadecimal digit has four bits. -/
theorem hexDigit?_lt {c : Char} {n : Nat} (h : hexDigit? c = some n) : n < 16 := by
  unfold hexDigit? at h
  split_ifs at h with hdigit hlower hupper
  · have hrange := toNat_of_isDigit hdigit
    have hn := Option.some.inj h
    omega
  · simp only [Char.le_def, UInt32.le_iff_toNat_le, Char.toNat_val, Char.reduceToNat] at hlower
    have hn := Option.some.inj h
    omega
  · simp only [Char.le_def, UInt32.le_iff_toNat_le, Char.toNat_val, Char.reduceToNat] at hupper
    have hn := Option.some.inj h
    omega

/-- A hextet that is read has 16 bits. -/
theorem parseHextet_lt {s : Str} {n : Nat} (h : parseHextet s = some n) : n < 65536 := by
  unfold parseHextet at h
  split_ifs at h with hlen
  obtain ⟨ds, hds, rfl⟩ := Option.map_eq_some_iff.mp h
  obtain ⟨hlength, hmem⟩ := mapM_eq_some hds
  have hlt := fromDigits_lt (b := 16) fun d hd => by
    obtain ⟨c, -, hc⟩ := hmem d hd
    exact hexDigit?_lt hc
  calc fromDigits 16 ds < 16 ^ ds.length := hlt
    _ ≤ 16 ^ 4 := Nat.pow_le_pow_right (by decide) (by omega)

/-- So have the hextets of a list. -/
theorem mapM_parseHextet_lt {parts : List Str} {hs : List Nat} (h : parts.mapM parseHextet = some hs) :
    hs.length = parts.length ∧ ∀ n ∈ hs, n < 65536 := by
  obtain ⟨hlen, hmem⟩ := mapM_eq_some h
  refine ⟨hlen, fun n hn => ?_⟩
  obtain ⟨s, -, hs⟩ := hmem n hn
  exact parseHextet_lt hs

/-- At most eight hextets have 128 bits. -/
theorem fromDigits_hextets_lt {hs : List Nat} (h : ∀ n ∈ hs, n < 65536) (hlen : hs.length ≤ 8) :
    fromDigits 65536 hs < 65536 ^ 8 :=
  Nat.lt_of_lt_of_le (fromDigits_lt h) (Nat.pow_le_pow_right (by decide) hlen)

/-- A gap stands for one hextet at least. -/
theorem hiLo_lt {parts : List Str} {skip hi lo : Nat} (h : hiLo parts skip = some (hi, lo)) :
    hi + lo < 8 := by
  unfold hiLo at h
  dsimp only at h
  split_ifs at h <;> simp only [Option.some_inj, Prod.mk.injEq] at h <;> omega

/-- An IPv6 address has 128 bits. -/
theorem parseV6Int_lt {s : Str} {ip : Nat} (h : parseV6Int s = some ip) : ip < 65536 ^ 8 := by
  unfold parseV6Int at h
  split at h
  · contradiction
  · split at h
    · contradiction
    · next parts hparts =>
        split at h
        · contradiction
        · split at h
          · split at h
            · contradiction
            · next hlen =>
                obtain ⟨hs, hmap, rfl⟩ := Option.map_eq_some_iff.mp h
                obtain ⟨hlength, hlt⟩ := mapM_parseHextet_lt hmap
                exact fromDigits_hextets_lt hlt (by omega)
          · split at h
            · contradiction
            · next hi lo hhilo =>
                have hbound := hiLo_lt hhilo
                split at h
                · next his los hhis hlos =>
                    obtain ⟨hlen, hlt⟩ := mapM_parseHextet_lt hhis
                    obtain ⟨hlen', hlt'⟩ := mapM_parseHextet_lt hlos
                    rw [← Option.some.inj h]
                    refine fromDigits_hextets_lt ?_ ?_
                    · simp only [List.forall_mem_append]
                      refine ⟨⟨hlt, fun n hn => ?_⟩, hlt'⟩
                      rw [List.eq_of_mem_replicate hn]
                      decide
                    · simp [List.rtake] at *
                      omega
                · contradiction
          · contradiction

/-- An address that was read is in range. -/
theorem inRange_parse {s : Str} {a : IpAddress} (h : parse s = some a) : a.InRange := by
  unfold parse at h
  split at h
  · next ip hip =>
      rw [← Option.some.inj h]
      unfold parseV4 at hip
      dsimp only at hip
      split_ifs at hip with _ hlen
      obtain ⟨ds, hds, rfl⟩ := Option.map_eq_some_iff.mp hip
      obtain ⟨hlength, hmem⟩ := mapM_eq_some hds
      have hlt := fromDigits_lt (b := 256) fun d hd => by
        obtain ⟨c, -, hc⟩ := hmem d hd
        exact parseOctet_lt hc
      rwa [hlength, not_not.mp hlen] at hlt
  · obtain ⟨⟨ip, scope⟩, hip, rfl⟩ := Option.map_eq_some_iff.mp h
    unfold parseV6 at hip
    split_ifs at hip
    split at hip
    · contradiction
    · obtain ⟨ip', hip', heq⟩ := Option.map_eq_some_iff.mp hip
      rw [← (Prod.ext_iff.mp heq).1]
      exact parseV6Int_lt hip'

/-- The scope identifier. -/
def scope : IpAddress → Option Str
  | v4 _ => none
  | v6 _ scopeId => scopeId

/-- The characters of a written IPv6 address. -/
theorem mem_formatV6 {ip : Nat} {c : Char} (h : c ∈ formatV6 ip none) :
    c = ':' ∨ ∃ d, d < 16 ∧ c = d.digitChar := by
  obtain h | ⟨p, hp, hc⟩ := mem_join h
  · exact .inl (List.mem_singleton.mp h)
  · right
    obtain heq | ⟨pre, n, post, -, -, heq⟩ := compressHextets_cases (hextets ip)
    · rw [heq] at hp
      obtain ⟨n, -, rfl⟩ := List.mem_map.mp hp
      exact mem_hexStr hc
    · rw [heq] at hp
      rcases mem_gapParts hp with rfl | ⟨n, rfl⟩
      · contradiction
      · exact mem_hexStr hc

/-- The text of an address without a scope is read as the address. -/
theorem parse_format {a : IpAddress} (h : a.InRange) (hscope : a.scope = none) :
    parse a.format = some a := by
  cases a with
  | v4 ip => rw [parse, format, parseV4_formatV4 h]
  | v6 ip scopeId =>
      rw [show scopeId = none from hscope]
      have hchar : ∀ c, c ≠ ':' → (∀ d < 16, c ≠ d.digitChar) → c ∉ formatV6 ip none := by
        intro c hcolon hdigit hc
        obtain heq | ⟨d, hd, heq⟩ := mem_formatV6 hc
        · exact hcolon heq
        · exact hdigit d hd heq
      have hdot := hchar '.' (by decide) (by decide)
      have hslash := hchar '/' (by decide) (by decide)
      have hpercent := hchar '%' (by decide) (by decide)
      have hv4 : parseV4 (formatV6 ip none) = none := by
        have hsplit : (formatV6 ip none).splitOn '.' = [formatV6 ip none] := by
          have hdots : ∀ l ∈ [formatV6 ip none], '.' ∉ l := by simpa using hdot
          simpa using List.splitOn_intercalate '.' hdots (by simp)
        unfold parseV4
        split
        · rfl
        · rw [hsplit]; rfl
      have hsplit : splitScopeId (formatV6 ip none) = some (formatV6 ip none, none) := by
        have hdrop : (formatV6 ip none).dropWhile (· ≠ '%') = [] := by
          rw [List.dropWhile_eq_nil_iff]
          intro c hc
          have hne : c ≠ '%' := fun heq => hpercent (heq ▸ hc)
          simpa using hne
        rw [splitScopeId, hdrop]
      rw [parse, format, hv4]
      simp only [parseV6, if_neg hslash, hsplit]
      rw [formatV6, parseV6Int_format h]
      rfl

example : (parse "2001:db8:0:0:1::192.0.2.1".toList).map format =
    some "2001:db8::1:0:c000:201".toList := by
  decide +kernel

end IpAddress

end Py
