import ApiToDns.Plugins.Utils
import ApiToDns.RecordTypes

/-!
# Hostnames

What `normalize_hostname` accepts: labels joined by dots, at most 253
characters of them — and, since `$` also matches before a final line feed,
possibly a line feed behind them.
-/

namespace ApiToDns

open Py

/-- A label of a host name. -/
structure IsHostLabel (l : Str) : Prop where
  ne_nil : l ≠ []
  length_le : l.length ≤ 63
  host : ∀ c ∈ l, isHostChar c = true
  head : l.head? ≠ some '-'
  last : l.getLast? ≠ some '-'

/-- The text of a host name. -/
def hostText (labels : List Str) : Str := join ['.'] labels

@[simp] theorem hostText_singleton (l : Str) : hostText [l] = l := by simp [hostText, join]

/-- The labels are written with dots between them. -/
theorem hostText_cons_cons (l l' : Str) (ls : List Str) :
    hostText (l :: l' :: ls) = l ++ '.' :: hostText (l' :: ls) := by
  rw [hostText, join, List.intercalate_cons_cons, List.append_assoc, List.singleton_append]
  rfl

/-- Each label after the first has a dot before it. -/
theorem hostText_cons (l : Str) (ls : List Str) :
    hostText (l :: ls) = l ++ ls.flatMap ('.' :: ·) := by
  induction ls generalizing l with
  | nil => simp
  | cons l' ls ih =>
      have hrest := ih l'
      rw [hostText_cons_cons, hrest, List.flatMap_cons]
      rfl

/-- The length of a name. -/
theorem length_hostText {labels : List Str} (hne : labels ≠ []) :
    (hostText labels).length + 1 = (labels.map fun l => l.length + 1).sum := by
  cases labels with
  | nil => contradiction
  | cons l ls =>
      have hdots : (ls.map fun a => ('.' :: a).length).sum = (ls.map fun a => a.length + 1).sum := rfl
      rw [hostText_cons, List.length_append, List.length_flatMap, List.map_cons, List.sum_cons,
        hdots]
      omega

/-- The characters of a name are dots and those of its labels. -/
theorem mem_hostText {labels : List Str} {c : Char} (hc : c ∈ hostText labels) :
    c = '.' ∨ ∃ l ∈ labels, c ∈ l := by
  cases labels with
  | nil => simp [hostText, join] at hc
  | cons l ls =>
      rw [hostText_cons, List.mem_append, List.mem_flatMap] at hc
      cases hc with
      | inl hc => exact .inr ⟨l, by simp, hc⟩
      | inr hc =>
          obtain ⟨l', hl', hc⟩ := hc
          cases List.mem_cons.mp hc with
          | inl hdot => exact .inl hdot
          | inr hc => exact .inr ⟨l', by simp [hl'], hc⟩

/-- They are dots and host characters. -/
theorem isHostChar_of_mem_hostText {labels : List Str} (h : ∀ l ∈ labels, IsHostLabel l) {c : Char}
    (hc : c ∈ hostText labels) : c = '.' ∨ isHostChar c = true := by
  cases mem_hostText hc with
  | inl hdot => exact .inl hdot
  | inr hmem =>
      obtain ⟨l, hl, hc⟩ := hmem
      exact .inr ((h l hl).host c hc)

/-- A host name ends in its last label. -/
theorem getLast?_hostText {labels : List Str} (hne : labels ≠ [])
    (h : ∀ l ∈ labels, IsHostLabel l) :
    ∃ c, (hostText labels).getLast? = some c ∧ isHostChar c = true := by
  induction labels with
  | nil => contradiction
  | cons l ls ih =>
      obtain ⟨hl, hls⟩ := List.forall_mem_cons.mp h
      cases ls with
      | nil =>
          rw [hostText_singleton, List.getLast?_eq_some_getLast hl.ne_nil]
          exact ⟨_, rfl, hl.host _ (List.getLast_mem _)⟩
      | cons l' ls =>
          obtain ⟨c, hlast, hc⟩ := ih (by simp) hls
          refine ⟨c, ?_, hc⟩
          rw [hostText_cons_cons, List.getLast?_append, List.getLast?_cons, hlast]
          rfl

/-- The expression of a label matches exactly the labels. -/
theorem mem_ends_labelRe {p q : Pos} :
    q ∈ labelRe.ends p ↔
      ∃ l rest, p.rest = l ++ rest ∧ IsHostLabel l ∧ q = p.advance l rest := by
  unfold labelRe
  simp only [Re.mem_ends_seq, Re.mem_ends_notAhead, Re.mem_ends_notBehind]
  constructor
  · intro h
    obtain ⟨m, ⟨hm, hahead⟩, m', hrun, hq, hbehind⟩ := h
    rw [hm, Re.ends, Re.mem_runEnds] at hrun
    obtain ⟨l, rest, hrest, hlo, hhi, hhost, hm'⟩ := hrun
    have hne : l ≠ [] := List.length_pos_iff.mp hlo
    refine ⟨l, rest, hrest, ⟨hne, hhi, hhost, ?_, ?_⟩, hq.trans hm'⟩
    · rw [hrest, List.head?_append_of_ne_nil _ hne] at hahead
      exact hahead
    · rw [hm', Pos.behind_advance, List.head?_append_of_ne_nil _ (by simpa using hne),
        List.head?_reverse] at hbehind
      exact hbehind
  · intro h
    obtain ⟨l, rest, hrest, hl, hq⟩ := h
    have hpos := List.length_pos_iff.mpr hl.ne_nil
    refine ⟨p, ⟨rfl, ?_⟩, q, ?_, rfl, ?_⟩
    · rw [hrest, List.head?_append_of_ne_nil _ hl.ne_nil]
      exact hl.head
    · rw [Re.ends, Re.mem_runEnds]
      exact ⟨l, rest, hrest, hpos, hl.length_le, hl.host, hq⟩
    · rw [hq, Pos.behind_advance, List.head?_append_of_ne_nil _ (by simpa using hl.ne_nil),
        List.head?_reverse]
      exact hl.last

/-- Labels that are each behind a dot. -/
theorem mem_ends_labels {p q : Pos} :
    q ∈ (Re.star (.seq (.char (· == '.')) labelRe)).ends p ↔
      ∃ (ls : List Str) (rest : Str), p.rest = ls.flatMap ('.' :: ·) ++ rest ∧
        (∀ l ∈ ls, IsHostLabel l) ∧ q = p.advance (ls.flatMap ('.' :: ·)) rest := by
  refine Re.mem_ends_star (fun _ _ => by simp) fun p q => ?_
  rw [Re.mem_ends_seq]
  simp only [Re.mem_ends_char, mem_ends_labelRe, beq_iff_eq]
  constructor
  · intro h
    obtain ⟨m, ⟨c, rest, hp, hdot, hm⟩, l, rest', hrest, hl, hq⟩ := h
    rw [hm, Pos.rest_advance] at hrest
    refine ⟨l, rest', ?_, hl, ?_⟩
    · rw [hp, hdot, hrest]
      rfl
    · rw [hq, hm, hdot]
      simp [Pos.advance]
  · intro h
    obtain ⟨l, rest, hp, hl, hq⟩ := h
    refine ⟨p.advance ['.'] (l ++ rest), ⟨'.', l ++ rest, hp, rfl, rfl⟩, l, rest, rfl, hl, ?_⟩
    rw [hq]
    simp [Pos.advance]

/-- What may stand behind the labels. -/
def isHostTail (tail : Str) : Bool := [[], ['.'], ['\n'], ['.', '\n']].contains tail

/-- Where the last dot and the end of the text fit. -/
theorem mem_ends_tail {p : Pos} :
    (∃ q, q ∈ (Re.seq (.opt (.char (· == '.'))) .atEnd).ends p) ↔ isHostTail p.rest = true := by
  simp only [Re.mem_ends_seq, Re.mem_ends_opt, Re.mem_ends_char, Re.mem_ends_atEnd, beq_iff_eq,
    isHostTail, List.contains_eq_mem, List.mem_cons, List.not_mem_nil, or_false,
    decide_eq_true_eq]
  constructor
  · intro h
    obtain ⟨q, m, hm, -, hend⟩ := h
    cases hm with
    | inl hm =>
        rw [hm] at hend
        cases hend with
        | inl h => exact .inl h
        | inr h => exact .inr (.inr (.inl h))
    | inr hm =>
        obtain ⟨c, rest, hp, hdot, hm⟩ := hm
        rw [hm, Pos.rest_advance] at hend
        rw [hp, hdot]
        cases hend with
        | inl h => rw [h]; simp
        | inr h => rw [h]; simp
  · intro h
    have hdot (rest : Str) (hp : p.rest = '.' :: rest) (hrest : rest = [] ∨ rest = ['\n']) :
        ∃ q m, (m = p ∨ ∃ c rest, p.rest = c :: rest ∧ c = '.' ∧ m = p.advance [c] rest) ∧
          q = m ∧ (m.rest = [] ∨ m.rest = ['\n']) :=
      ⟨_, p.advance ['.'] rest, .inr ⟨'.', rest, hp, rfl, rfl⟩, rfl, hrest⟩
    rcases h with h | h | h | h
    · exact ⟨p, p, .inl rfl, rfl, .inl h⟩
    · exact hdot [] h (.inl rfl)
    · exact ⟨p, p, .inl rfl, rfl, .inr h⟩
    · exact hdot ['\n'] h (.inr rfl)

/-- At most 253 characters before the end of the text. -/
theorem mem_ends_length {p : Pos} :
    (∃ q, q ∈ (Re.ahead (.seq (.run (· ≠ '\n') 1 253) .atEnd)).ends p) ↔
      ∃ w rest, p.rest = w ++ rest ∧ 1 ≤ w.length ∧ w.length ≤ 253 ∧ '\n' ∉ w ∧
        (rest = [] ∨ rest = ['\n']) := by
  simp only [Re.mem_ends_ahead, Re.mem_ends_seq, Re.mem_ends_atEnd]
  constructor
  · intro h
    obtain ⟨q, -, m, m', hrun, -, hend⟩ := h
    rw [Re.ends, Re.mem_runEnds] at hrun
    obtain ⟨w, rest, hp, hlo, hhi, hw, hm'⟩ := hrun
    rw [hm', Pos.rest_advance] at hend
    refine ⟨w, rest, hp, hlo, hhi, fun hmem => ?_, hend⟩
    have := hw _ hmem
    contradiction
  · intro h
    obtain ⟨w, rest, hp, hlo, hhi, hw, hend⟩ := h
    refine ⟨p, rfl, p.advance w rest, p.advance w rest, ?_, rfl, hend⟩
    rw [Re.ends, Re.mem_runEnds]
    refine ⟨w, rest, hp, hlo, hhi, fun c hc => ?_, rfl⟩
    have hne : c ≠ '\n' := fun h => hw (h ▸ hc)
    simpa using hne

/-- No label has a newline. -/
theorem newline_not_mem_hostText {labels : List Str} (h : ∀ l ∈ labels, IsHostLabel l) :
    '\n' ∉ hostText labels := by
  intro hmem
  cases isHostChar_of_mem_hostText h hmem with
  | inl hdot => exact absurd hdot (by decide)
  | inr hhost => exact absurd hhost (by decide)

/-- The look-ahead counts the characters up to a final line feed. -/
theorem length_before_end {body tail : Str} (hbody : '\n' ∉ body) (htail : isHostTail tail = true) :
    (∃ w rest, body ++ tail = w ++ rest ∧ 1 ≤ w.length ∧ w.length ≤ 253 ∧ '\n' ∉ w ∧
        (rest = [] ∨ rest = ['\n'])) ↔
      1 ≤ ((body ++ tail).filter (· ≠ '\n')).length ∧
        ((body ++ tail).filter (· ≠ '\n')).length ≤ 253 := by
  have hfilter {w : Str} (hw : '\n' ∉ w) : w.filter (· ≠ '\n') = w := by
    rw [List.filter_eq_self]
    intro c hc
    have hne : c ≠ '\n' := fun h => hw (h ▸ hc)
    simpa using hne
  constructor
  · intro h
    obtain ⟨w, rest, heq, hlo, hhi, hw, hend⟩ := h
    have hrest : rest.filter (· ≠ '\n') = [] := by
      cases hend with
      | inl h => rw [h]; rfl
      | inr h => rw [h]; rfl
    rw [heq, List.filter_append, hfilter hw, hrest, List.append_nil]
    exact ⟨hlo, hhi⟩
  · intro h
    obtain ⟨dots, rest, htail', hdots, hend⟩ : ∃ dots rest, tail = dots ++ rest ∧ '\n' ∉ dots ∧
        (rest = [] ∨ rest = ['\n']) := by
      simp only [isHostTail, List.contains_eq_mem, List.mem_cons, List.not_mem_nil, or_false,
        decide_eq_true_eq] at htail
      rcases htail with h | h | h | h
      · exact ⟨[], [], h, by simp, .inl rfl⟩
      · exact ⟨['.'], [], h, by decide, .inl rfl⟩
      · exact ⟨[], ['\n'], h, by simp, .inr rfl⟩
      · exact ⟨['.'], ['\n'], h, by decide, .inr rfl⟩
    have hw : '\n' ∉ body ++ dots := by simp [hbody, hdots]
    have hrest : rest.filter (· ≠ '\n') = [] := by
      cases hend with
      | inl h => rw [h]; rfl
      | inr h => rw [h]; rfl
    rw [htail', ← List.append_assoc, List.filter_append, hfilter hw, hrest, List.append_nil] at h
    exact ⟨body ++ dots, rest, by rw [htail', List.append_assoc], h.1, h.2, hw, hend⟩

/-- The texts `_HOSTNAME_RE` matches. -/
theorem hostnameRe_iff {host : Str} :
    hostnameRe.isMatch host = true ↔
      (host.filter (· ≠ '\n')).length ≤ 253 ∧
        ∃ labels tail, labels ≠ [] ∧ (∀ l ∈ labels, IsHostLabel l) ∧ isHostTail tail = true ∧
          host = hostText labels ++ tail := by
  rw [Re.isMatch_iff]
  unfold hostnameRe
  have hsplit : (∃ q, q ∈ (Re.seq labelRe (.seq (.star (.seq (.char (· == '.')) labelRe))
      (.seq (.opt (.char (· == '.'))) .atEnd))).ends ⟨[], host⟩) ↔
      ∃ labels tail, labels ≠ [] ∧ (∀ l ∈ labels, IsHostLabel l) ∧ isHostTail tail = true ∧
        host = hostText labels ++ tail := by
    constructor
    · intro h
      obtain ⟨q, h⟩ := h
      rw [Re.mem_ends_seq] at h
      obtain ⟨m, hm, h⟩ := h
      rw [Re.mem_ends_seq] at h
      obtain ⟨m', hm', h⟩ := h
      obtain ⟨l, rest, hhost, hl, hmeq⟩ := mem_ends_labelRe.mp hm
      obtain ⟨ls, rest', hrest, hls, hmeq'⟩ := mem_ends_labels.mp hm'
      have htail := mem_ends_tail.mp ⟨q, h⟩
      rw [hmeq, Pos.rest_advance] at hrest
      rw [hmeq', Pos.rest_advance] at htail
      refine ⟨l :: ls, rest', by simp, ?_, htail, ?_⟩
      · exact List.forall_mem_cons.mpr ⟨hl, hls⟩
      · rw [hostText_cons, List.append_assoc, ← hrest]
        exact hhost
    · intro h
      obtain ⟨labels, tail, hne, hlabels, htail, hhost⟩ := h
      cases labels with
      | nil => contradiction
      | cons l ls =>
          obtain ⟨hl, hls⟩ := List.forall_mem_cons.mp hlabels
          rw [hostText_cons, List.append_assoc] at hhost
          let m : Pos := Pos.advance ⟨[], host⟩ l (ls.flatMap ('.' :: ·) ++ tail)
          let m' : Pos := m.advance (ls.flatMap ('.' :: ·)) tail
          obtain ⟨q, hq⟩ := mem_ends_tail.mpr (show isHostTail m'.rest = true from htail)
          refine ⟨q, Re.mem_ends_seq.mpr ⟨m, ?_, Re.mem_ends_seq.mpr ⟨m', ?_, hq⟩⟩⟩
          · exact mem_ends_labelRe.mpr ⟨l, _, hhost, hl, rfl⟩
          · exact mem_ends_labels.mpr ⟨ls, tail, rfl, hls, rfl⟩
  constructor
  · intro h
    obtain ⟨q, h⟩ := h
    obtain ⟨m, hm, h⟩ := Re.mem_ends_seq.mp h
    have hlength := mem_ends_length.mp ⟨m, hm⟩
    rw [(Re.mem_ends_ahead.mp hm).1] at h
    obtain ⟨labels, tail, hne, hlabels, htail, hhost⟩ := hsplit.mp ⟨q, h⟩
    refine ⟨?_, labels, tail, hne, hlabels, htail, hhost⟩
    rw [hhost] at hlength ⊢
    exact ((length_before_end (newline_not_mem_hostText hlabels) htail).mp hlength).2
  · intro h
    obtain ⟨hlen, labels, tail, hne, hlabels, htail, hhost⟩ := h
    obtain ⟨q, hq⟩ := hsplit.mpr ⟨labels, tail, hne, hlabels, htail, hhost⟩
    have hpos : 1 ≤ (host.filter (· ≠ '\n')).length := by
      obtain ⟨c, hlast, hc⟩ := getLast?_hostText hne hlabels
      have hline : c ≠ '\n' := by
        intro h
        rw [h] at hc
        exact absurd hc (by decide)
      have hmem : c ∈ hostText labels := List.mem_of_getLast? hlast
      rw [Nat.one_le_iff_ne_zero, ← Nat.pos_iff_ne_zero, List.length_filter_pos_iff]
      exact ⟨c, by rw [hhost]; exact List.mem_append_left _ hmem, by simpa using hline⟩
    obtain ⟨m, hm⟩ : ∃ m, m ∈ (Re.ahead (.seq (.run (· ≠ '\n') 1 253) .atEnd)).ends ⟨[], host⟩ := by
      refine mem_ends_length.mpr ?_
      rw [hhost] at hlen hpos ⊢
      exact (length_before_end (newline_not_mem_hostText hlabels) htail).mpr ⟨hpos, hlen⟩
    refine ⟨q, Re.mem_ends_seq.mpr ⟨m, hm, ?_⟩⟩
    rw [(Re.mem_ends_ahead.mp hm).1]
    exact hq

/-! ## normalised host names -/

/-- The code points of the host characters. -/
theorem toNat_of_isHostChar {c : Char} (h : isHostChar c = true) :
    c.toNat = 45 ∨ (48 ≤ c.toNat ∧ c.toNat ≤ 57) ∨ (65 ≤ c.toNat ∧ c.toNat ≤ 90) ∨ c.toNat = 95 ∨
      (97 ≤ c.toNat ∧ c.toNat ≤ 122) := by
  simp only [isHostChar, Bool.or_eq_true, Bool.and_eq_true, beq_iff_eq] at h
  rcases h with (h | h) | h
  · have halnum : (65 ≤ c.toNat ∧ c.toNat ≤ 90 ∨ 97 ≤ c.toNat ∧ c.toNat ≤ 122) ∨
        48 ≤ c.toNat ∧ c.toNat ≤ 57 := by
      simpa [Char.isAlphanum, isAlpha_iff, Char.isDigit, UInt32.le_iff_toNat_le,
        ← Char.toNat_val] using h.2
    omega
  · rw [h]; decide
  · rw [h]; decide

/-- None of them is whitespace. -/
theorem isSpace_of_isHostChar {c : Char} (h : isHostChar c = true) : isSpace c = false := by
  have hrange := toNat_of_isHostChar h
  simp only [isSpace, Bool.or_eq_false_iff, Bool.and_eq_false_iff, decide_eq_false_iff_not,
    beq_eq_false_iff_ne]
  omega

/-- The labels of a host name. -/
structure IsHost (labels : List Str) : Prop where
  ne_nil : labels ≠ []
  label : ∀ l ∈ labels, IsHostLabel l
  length_le : (hostText labels).length ≤ 253

namespace IsHost

variable {labels : List Str} (h : IsHost labels)

include h

/-- A name has no whitespace. -/
theorem isSpace {c : Char} (hc : c ∈ hostText labels) : isSpace c = false := by
  cases isHostChar_of_mem_hostText h.label hc with
  | inl hdot => rw [hdot]; decide
  | inr hhost => exact isSpace_of_isHostChar hhost

/-- A name is not empty. -/
theorem text_ne_nil : hostText labels ≠ [] := by
  obtain ⟨c, hlast, -⟩ := getLast?_hostText h.ne_nil h.label
  intro hnil
  rw [hnil] at hlast
  contradiction

end IsHost

variable (U : Ucd)

/-- An accepted host name: its labels, behind which a line feed may have
stayed. -/
theorem normalizeHostname_ok {value host : Str} (h : normalizeHostname U value = .ok host) :
    host = rstripDots (strip value) ∧
      ∃ labels tail, IsHost labels ∧ host = hostText labels ++ tail ∧
        (tail = [] ∨ tail = ['\n'] ∨ tail = ['.', '\n']) := by
  unfold normalizeHostname at h
  simp only at h
  split_ifs at h with hbad
  have hhost := Except.ok.inj h
  rw [not_or] at hbad
  obtain ⟨hlen, labels, tail, hne, hlabels, htail, heq⟩ :=
    hostnameRe_iff.mp (Bool.not_eq_false _ ▸ hbad.2)
  rw [hhost] at hlen heq
  have hbody : (hostText labels).length ≤ 253 := by
    have hfilter : (hostText labels).filter (· ≠ '\n') = hostText labels := by
      rw [List.filter_eq_self]
      intro c hc
      have hline : c ≠ '\n' := fun h => newline_not_mem_hostText hlabels (h ▸ hc)
      simpa using hline
    rw [heq, List.filter_append, hfilter, List.length_append] at hlen
    omega
  refine ⟨hhost.symm, labels, tail, ⟨hne, hlabels, hbody⟩, heq, ?_⟩
  have hdot : tail ≠ ['.'] := by
    intro htail
    have hlast := getLast_rstripDots (s := strip value) '.'
    rw [hhost, heq, htail] at hlast
    exact absurd rfl (hlast (by simp))
  simp only [isHostTail, List.contains_eq_mem, List.mem_cons, List.not_mem_nil, or_false,
    decide_eq_true_eq] at htail
  rcases htail with h | h | h | h
  · exact .inl h
  · exact absurd h hdot
  · exact .inr (.inl h)
  · exact .inr (.inr h)

/-- An accepted word is a host name. -/
theorem normalizeHostname_word {word host : Str} (h : normalizeHostname U word = .ok host)
    (hword : ∀ c ∈ word, isSpace c = false) : ∃ labels, IsHost labels ∧ host = hostText labels := by
  obtain ⟨hhost, labels, tail, hlabels, heq, htail⟩ := normalizeHostname_ok U h
  have hnot : '\n' ∉ host := by
    intro hmem
    have hsub : host <:+: word := by
      rw [hhost]
      exact bareName_isInfix word
    have hspace := hword _ (hsub.subset hmem)
    exact absurd hspace (by decide)
  rcases htail with htail | htail | htail
  · exact ⟨labels, hlabels, by rw [heq, htail, List.append_nil]⟩
  · exact absurd (by rw [heq, htail]; simp) hnot
  · exact absurd (by rw [heq, htail]; simp) hnot

/-- A host name is its own normal form. -/
theorem normalizeHostname_hostText {labels : List Str} (h : IsHost labels) :
    normalizeHostname U (hostText labels) = .ok (hostText labels) := by
  obtain ⟨c, hlast, hc⟩ := getLast?_hostText h.ne_nil h.label
  have hstrip : strip (hostText labels) = hostText labels :=
    strip_eq_self (fun c hc => h.isSpace (List.mem_of_head? hc))
      fun c hc => h.isSpace (List.mem_of_getLast? hc)
  have hdots : rstripDots (hostText labels) = hostText labels := by
    refine rstripDots_eq_self fun c' hc' hdot => ?_
    rw [hlast, Option.mem_some_iff] at hc'
    rw [hc', hdot] at hc
    exact absurd hc (by decide)
  have hmatch : hostnameRe.isMatch (hostText labels) = true := by
    refine hostnameRe_iff.mpr ⟨?_, labels, [], h.ne_nil, h.label, rfl, (List.append_nil _).symm⟩
    exact Nat.le_trans (List.length_filter_le _ _) h.length_le
  unfold normalizeHostname
  simp [hstrip, hdots, h.text_ne_nil, hmatch]

/-! ## exactly the grammar -/

/-- A host name: labels between dots, at most 253 characters. -/
def IsHostname (host : Str) : Prop := ∃ labels, IsHost labels ∧ host = hostText labels

/-- A host name, perhaps with a dot, before a line feed. -/
def EndsInLineFeed (host : Str) : Prop :=
  ∃ name, IsHostname name ∧
    (host = name ++ ['\n'] ∨ (host = name ++ ['.', '\n'] ∧ name.length < 253))

/-- A text is accepted exactly if it is a host name once it is stripped, and
comes out as one that stays as it is. -/
def AcceptsExactly (value : Str) : Prop :=
  ((∃ host, normalizeHostname U value = .ok host) ↔ IsHostname (bareName value)) ∧
    ∀ host, normalizeHostname U value = .ok host →
      host = bareName value ∧ IsHostname host ∧ normalizeHostname U host = .ok host

/-- A host name has no newline. -/
theorem newline_not_mem_of_isHostname {host : Str} (h : IsHostname host) : '\n' ∉ host := by
  obtain ⟨labels, hlabels, rfl⟩ := h
  exact newline_not_mem_hostText hlabels.label

/-- A text without newlines stays when they are dropped. -/
theorem filter_newline {host : Str} (h : '\n' ∉ host) : host.filter (· ≠ '\n') = host := by
  rw [List.filter_eq_self]
  intro c hc
  have hline : c ≠ '\n' := fun heq => h (heq ▸ hc)
  simpa using hline

/-- What ends in a line feed has one. -/
theorem EndsInLineFeed.newline_mem {host : Str} (h : EndsInLineFeed host) : '\n' ∈ host := by
  obtain ⟨name, -, rfl | ⟨rfl, -⟩⟩ := h <;> simp

/-- What is accepted, by the text that is left once it is stripped. -/
theorem normalizeHostname_eq_ok_iff {value host : Str} :
    normalizeHostname U value = .ok host ↔
      host = bareName value ∧ (IsHostname host ∨ EndsInLineFeed host) := by
  constructor
  · intro h
    obtain ⟨hhost, labels, tail, hlabels, heq, htail⟩ := normalizeHostname_ok U h
    refine ⟨hhost, ?_⟩
    have hline := newline_not_mem_hostText hlabels.label
    rcases htail with rfl | rfl | rfl
    · exact .inl ⟨labels, hlabels, by rw [heq, List.append_nil]⟩
    · exact .inr ⟨hostText labels, ⟨labels, hlabels, rfl⟩, .inl heq⟩
    · have hmatch : hostnameRe.isMatch host = true := by
        unfold normalizeHostname at h
        dsimp only at h
        split_ifs at h with hbad
        rw [not_or, Bool.not_eq_false] at hbad
        rw [← Except.ok.inj h]
        exact hbad.2
      have hlen := (hostnameRe_iff.mp hmatch).1
      have hdot : (['.', '\n'] : Str).filter (· ≠ '\n') = ['.'] := by decide
      rw [heq, List.filter_append, filter_newline hline, hdot, List.length_append,
        List.length_singleton] at hlen
      exact .inr ⟨hostText labels, ⟨labels, hlabels, rfl⟩, .inr ⟨heq, by omega⟩⟩
  · intro h
    obtain ⟨rfl, hgrammar⟩ := h
    have hmatch : bareName value ≠ [] ∧ hostnameRe.isMatch (bareName value) = true := by
      rcases hgrammar with ⟨labels, hlabels, heq⟩ | ⟨name, ⟨labels, hlabels, rfl⟩, heq | ⟨heq, hlen⟩⟩
      · refine ⟨by rw [heq]; exact hlabels.text_ne_nil, hostnameRe_iff.mpr ?_⟩
        refine ⟨?_, labels, [], hlabels.ne_nil, hlabels.label, rfl, by simpa using heq⟩
        rw [heq]
        exact Nat.le_trans (List.length_filter_le _ _) hlabels.length_le
      · refine ⟨by simp [heq], hostnameRe_iff.mpr ?_⟩
        refine ⟨?_, labels, ['\n'], hlabels.ne_nil, hlabels.label, rfl, heq⟩
        rw [heq, List.filter_append, filter_newline (newline_not_mem_hostText hlabels.label)]
        simpa using hlabels.length_le
      · refine ⟨by simp [heq], hostnameRe_iff.mpr ?_⟩
        refine ⟨?_, labels, ['.', '\n'], hlabels.ne_nil, hlabels.label, rfl, heq⟩
        rw [heq, List.filter_append, filter_newline (newline_not_mem_hostText hlabels.label)]
        have hlen' : (hostText labels).length + 1 ≤ 253 := hlen
        simpa using hlen'
    unfold bareName at hmatch
    unfold normalizeHostname
    dsimp only
    rw [if_neg (by simp [hmatch])]
    rfl

/-- The validator accepts exactly the host names, unless the name ends in a line feed. -/
theorem acceptsExactly_iff (value : Str) :
    AcceptsExactly U value ↔ ¬EndsInLineFeed (bareName value) := by
  constructor
  · intro h hline
    have hok := (normalizeHostname_eq_ok_iff U).mpr ⟨rfl, .inr hline⟩
    have hname := (h.2 _ hok).2.1
    exact newline_not_mem_of_isHostname hname hline.newline_mem
  · intro hline
    have hname : ∀ host, normalizeHostname U value = .ok host →
        host = bareName value ∧ IsHostname host := by
      intro host hok
      obtain ⟨hhost, hgrammar⟩ := (normalizeHostname_eq_ok_iff U).mp hok
      exact ⟨hhost, hgrammar.resolve_right fun h => hline (hhost ▸ h)⟩
    refine ⟨⟨fun h => ?_, fun h => ?_⟩, fun host hok => ?_⟩
    · obtain ⟨host, hok⟩ := h
      exact (hname host hok).1 ▸ (hname host hok).2
    · exact ⟨_, (normalizeHostname_eq_ok_iff U).mpr ⟨rfl, .inl h⟩⟩
    · obtain ⟨hhost, labels, hlabels, heq⟩ := hname host hok
      refine ⟨hhost, ⟨labels, hlabels, heq⟩, ?_⟩
      rw [heq]
      exact normalizeHostname_hostText U hlabels

/-- A line feed before the last dot is accepted, and kept. -/
theorem not_acceptsExactly_line_feed : ¬AcceptsExactly .ascii (lit "a\n.") := by
  intro h
  have hok : normalizeHostname .ascii (lit "a\n.") = .ok (lit "a\n") := by decide
  have hfix := (h.2 _ hok).2.2
  exact absurd hfix (by decide)

/-! ## values with a host name -/

/-- A number in range is read back. -/
theorem parseUint_natStr {n maximum : Nat} (field : Str) (h : n ≤ maximum) (hmax : maximum ≤ 65535) :
    parseUint U (natStr n) field maximum = .ok n := by
  have hlen : (natStr n).length ≤ 5 :=
    (Nat.length_toDigits_le_iff (by decide) (by decide)).mpr (by omega)
  have hparse := U.parseInt_natStr (n := n) (Nat.le_trans hlen (by decide))
  unfold parseUint
  rw [hparse]
  have hrange : ¬((n : Int) < 0 ∨ (maximum : Int) < n) := by omega
  simp only [hrange, if_false, Int.toNat_natCast]

/-- A number that is read is in range. -/
theorem parseUint_ok {token field : Str} {maximum n : Nat}
    (h : parseUint U token field maximum = .ok n) : n ≤ maximum := by
  unfold parseUint at h
  split at h
  · contradiction
  · split_ifs at h with hrange
    have hn := Except.ok.inj h
    omega

/-- The text of an MX value. -/
def mxText (preference : Nat) (labels : List Str) : Str :=
  natStr preference ++ [' '] ++ hostText labels

/-- The text of an SRV value. -/
def srvText (priority weight port : Nat) (labels : List Str) : Str :=
  natStr priority ++ [' '] ++ natStr weight ++ [' '] ++ natStr port ++ [' '] ++ hostText labels

/-- A number has no whitespace. -/
theorem isSpace_of_mem_natStr {n : Nat} {c : Char} (h : c ∈ natStr n) : isSpace c = false :=
  isSpace_of_isDigit (mem_natStr h)

/-- Words that start with a number and end in a host name are stripped. -/
theorem strip_fields {n : Nat} (middle : Str) {labels : List Str} (h : IsHost labels) :
    strip (natStr n ++ middle ++ hostText labels) = natStr n ++ middle ++ hostText labels := by
  refine strip_eq_self (fun c hc => ?_) fun c hc => ?_
  · rw [List.append_assoc, List.head?_append_of_ne_nil _ (natStr_ne_nil n)] at hc
    exact isSpace_of_mem_natStr (List.mem_of_head? hc)
  · rw [List.getLast?_append_of_ne_nil _ h.text_ne_nil] at hc
    exact h.isSpace (List.mem_of_getLast? hc)

/-- A number is one word. -/
theorem splitWords_natStr_cons (n : Nat) (rest : Str) :
    splitWords (natStr n ++ [' '] ++ rest) = natStr n :: splitWords rest :=
  splitWords_cons (natStr_ne_nil n) (fun _ hc => isSpace_of_mem_natStr hc) rest

/-- A name is one word. -/
theorem splitWords_hostText {labels : List Str} (h : IsHost labels) :
    splitWords (hostText labels) = [hostText labels] :=
  splitWords_word h.text_ne_nil fun _ hc => h.isSpace hc

/-- A mail exchange is two words. -/
theorem splitWords_mxText (preference : Nat) {labels : List Str} (h : IsHost labels) :
    splitWords (mxText preference labels) = [natStr preference, hostText labels] := by
  rw [mxText, splitWords_natStr_cons, splitWords_hostText h]

/-- A service is two numbers before what looks like a mail exchange. -/
theorem srvText_eq (priority weight port : Nat) (labels : List Str) :
    srvText priority weight port labels =
      natStr priority ++ [' '] ++ (natStr weight ++ [' '] ++ mxText port labels) := by
  simp [srvText, mxText]

/-- A service is four words. -/
theorem splitWords_srvText (priority weight port : Nat) {labels : List Str} (h : IsHost labels) :
    splitWords (srvText priority weight port labels) =
      [natStr priority, natStr weight, natStr port, hostText labels] := by
  rw [srvText_eq, splitWords_natStr_cons, splitWords_natStr_cons, splitWords_mxText port h]

/-- Accepted MX values. -/
theorem normalizeRecordValue_mx_ok {value v : Str} (h : normalizeRecordValue U .mx value = .ok v) :
    ∃ preference labels, preference ≤ 65535 ∧ IsHost labels ∧ v = mxText preference labels := by
  unfold normalizeRecordValue at h
  simp only at h
  split_ifs at h
  obtain ⟨⟨preference, exchange⟩, hparse, hv⟩ := bind_eq_ok h
  unfold parseMx at hparse
  split at hparse
  · next priority host hwords =>
      obtain ⟨p, hp, hparse⟩ := bind_eq_ok hparse
      obtain ⟨x, hx, hparse⟩ := bind_eq_ok hparse
      have hword := (mem_splitWords (w := host) (by rw [hwords]; simp)).2
      obtain ⟨labels, hlabels, hhost⟩ := normalizeHostname_word U hx hword
      have heq := Prod.mk.inj (Except.ok.inj hparse)
      refine ⟨p, labels, parseUint_ok U hp, hlabels, ?_⟩
      rw [mxText, ← Except.ok.inj hv, ← heq.1, ← heq.2, hhost]
  · contradiction

/-- A mail exchange has no whitespace around it. -/
theorem strip_mxText {preference : Nat} {labels : List Str} (h : IsHost labels) :
    strip (mxText preference labels) = mxText preference labels :=
  strip_fields [' '] h

/-- A mail exchange is read back. -/
theorem parseMx_mxText {preference : Nat} {labels : List Str} (hp : preference ≤ 65535)
    (h : IsHost labels) : parseMx U (mxText preference labels) = .ok (preference, hostText labels) := by
  unfold parseMx
  rw [strip_mxText h, splitWords_mxText preference h]
  simp only [parseUint_natStr U (lit "priority") hp (Nat.le_refl _), normalizeHostname_hostText U h,
    ok_bind]
  rfl

/-- An accepted MX value is its own normal form. -/
theorem normalizeRecordValue_mxText {preference : Nat} {labels : List Str}
    (hp : preference ≤ 65535) (h : IsHost labels) :
    normalizeRecordValue U .mx (mxText preference labels) = .ok (mxText preference labels) := by
  have hne : mxText preference labels ≠ [] := by simp [mxText]
  unfold normalizeRecordValue
  simp only [strip_mxText h, hne, if_false, parseMx_mxText U hp h, ok_bind]
  rfl

/-- Accepted SRV values. -/
theorem normalizeRecordValue_srv_ok {value v : Str}
    (h : normalizeRecordValue U .srv value = .ok v) :
    ∃ priority weight port labels, priority ≤ 65535 ∧ weight ≤ 65535 ∧ port ≤ 65535 ∧
      IsHost labels ∧ v = srvText priority weight port labels := by
  unfold normalizeRecordValue at h
  simp only at h
  split_ifs at h
  obtain ⟨⟨priority, weight, port, target⟩, hparse, hv⟩ := bind_eq_ok h
  unfold parseSrv at hparse
  split at hparse
  · next w₁ w₂ w₃ host hwords =>
      obtain ⟨p, hp, hparse⟩ := bind_eq_ok hparse
      obtain ⟨w, hw, hparse⟩ := bind_eq_ok hparse
      obtain ⟨o, ho, hparse⟩ := bind_eq_ok hparse
      obtain ⟨x, hx, hparse⟩ := bind_eq_ok hparse
      have hword := (mem_splitWords (w := host) (by rw [hwords]; simp)).2
      obtain ⟨labels, hlabels, hhost⟩ := normalizeHostname_word U hx hword
      have heq := Except.ok.inj hparse
      simp only [Prod.mk.injEq] at heq
      obtain ⟨h₁, h₂, h₃, h₄⟩ := heq
      refine ⟨p, w, o, labels, parseUint_ok U hp, parseUint_ok U hw, parseUint_ok U ho, hlabels, ?_⟩
      rw [srvText, ← Except.ok.inj hv, ← h₁, ← h₂, ← h₃, ← h₄, hhost]
  · contradiction

/-- A service has no whitespace around it. -/
theorem strip_srvText {priority weight port : Nat} {labels : List Str} (h : IsHost labels) :
    strip (srvText priority weight port labels) = srvText priority weight port labels := by
  have hfields := strip_fields (n := priority)
    ([' '] ++ natStr weight ++ [' '] ++ natStr port ++ [' ']) h
  simpa [srvText] using hfields

/-- A service is read back. -/
theorem parseSrv_srvText {priority weight port : Nat} {labels : List Str} (hp : priority ≤ 65535)
    (hw : weight ≤ 65535) (ho : port ≤ 65535) (h : IsHost labels) :
    parseSrv U (srvText priority weight port labels) =
      .ok (priority, weight, port, hostText labels) := by
  unfold parseSrv
  rw [strip_srvText h, splitWords_srvText priority weight port h]
  simp only [parseUint_natStr U _ hp (Nat.le_refl _), parseUint_natStr U _ hw (Nat.le_refl _),
    parseUint_natStr U _ ho (Nat.le_refl _), normalizeHostname_hostText U h, ok_bind]
  rfl

/-- An accepted SRV value is its own normal form. -/
theorem normalizeRecordValue_srvText {priority weight port : Nat} {labels : List Str}
    (hp : priority ≤ 65535) (hw : weight ≤ 65535) (ho : port ≤ 65535) (h : IsHost labels) :
    normalizeRecordValue U .srv (srvText priority weight port labels) =
      .ok (srvText priority weight port labels) := by
  have hne : srvText priority weight port labels ≠ [] := by simp [srvText]
  unfold normalizeRecordValue
  simp only [strip_srvText h, hne, if_false, parseSrv_srvText U hp hw ho h, ok_bind]
  rfl

/-- Accepted values of the types that are nothing but a host name. -/
theorem normalizeRecordValue_host_ok {rt : RecordType} (hrt : rt = .cname ∨ rt = .ns ∨ rt = .ptr)
    {value v : Str} (h : normalizeRecordValue U rt value = .ok v) :
    ∃ labels tail, IsHost labels ∧ v = hostText labels ++ tail ∧
      (tail = [] ∨ tail = ['\n'] ∨ tail = ['.', '\n']) := by
  have hhost : normalizeHostname U (strip value) = .ok v := by
    unfold normalizeRecordValue at h
    simp only at h
    split_ifs at h
    rcases hrt with hrt | hrt | hrt
    · rw [hrt] at h; exact h
    · rw [hrt] at h; exact h
    · rw [hrt] at h; exact h
  exact (normalizeHostname_ok U hhost).2

end ApiToDns
