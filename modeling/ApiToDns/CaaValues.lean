import ApiToDns.Hostnames
import ApiToDns.Plugins.Utils

/-!
# CaaValues

The normal form of a CAA value: its flags, its tag in lower case, and the rest
of the text, in quotes where a space in it needs them (`parse_caa`,
`format_caa`).
-/

namespace ApiToDns

open Py

/-! ## fields -/

/-- Trimming the end does not reach the beginning. -/
theorem rdropWhile_append {p : α → Bool} (xs : List α) {ys : List α} (h : ys.rdropWhile p ≠ []) :
    (xs ++ ys).rdropWhile p = xs ++ ys.rdropWhile p := by
  have hreverse : (ys.reverse.dropWhile p).isEmpty = false := by
    rw [Bool.eq_false_iff]
    intro hempty
    exact h (by rw [List.rdropWhile, List.isEmpty_iff.mp hempty, List.reverse_nil])
  simp [List.rdropWhile, List.dropWhile_append, hreverse]

/-- Trimming goes on where an end is trimmed away. -/
theorem rdropWhile_append_nil {p : α → Bool} (xs : List α) {ys : List α} (h : ys.rdropWhile p = []) :
    (xs ++ ys).rdropWhile p = xs.rdropWhile p := by
  have hall : ∀ y ∈ ys.reverse, p y = true := by
    intro y hy
    exact List.rdropWhile_eq_nil_iff.mp h y (List.mem_reverse.mp hy)
  rw [List.rdropWhile, List.reverse_append, List.dropWhile_append_of_pos hall, List.rdropWhile]

/-- Cutting off a word. -/
theorem splitWordsMax_cons {w : Str} (n : Nat) (hne : w ≠ []) (hw : ∀ c ∈ w, isSpace c = false)
    (rest : Str) : splitWordsMax (n + 1) (w ++ ' ' :: rest) = w :: splitWordsMax n rest := by
  have hspace : isSpace ' ' = true := by decide
  have hall : ∀ x ∈ w, (!isSpace x) = true := by
    intro x hx
    rw [hw x hx]
    rfl
  have hdrop : (w ++ ' ' :: rest).dropWhile isSpace = w ++ ' ' :: rest := by
    obtain ⟨c, cs, rfl⟩ := List.exists_cons_of_ne_nil hne
    simp [hw c List.mem_cons_self]
  have htake : (w ++ ' ' :: rest).takeWhile (fun c => !isSpace c) = w := by
    rw [List.takeWhile_append_of_pos hall]
    simp [hspace]
  have hrest : (w ++ ' ' :: rest).dropWhile (fun c => !isSpace c) = ' ' :: rest := by
    rw [List.dropWhile_append_of_pos hall]
    simp [hspace]
  have hskip : splitWordsMax n (' ' :: rest) = splitWordsMax n rest := by
    cases n <;> simp [splitWordsMax, hspace]
  rw [splitWordsMax, hdrop, htake, hrest, hskip]
  simp

/-- The words that are cut off. -/
theorem mem_splitWordsMax_cons {n : Nat} {s w : Str} {ws : List Str}
    (h : splitWordsMax (n + 1) s = w :: ws) : w ≠ [] ∧ ∀ c ∈ w, isSpace c = false := by
  rw [splitWordsMax] at h
  split at h
  · contradiction
  · next hne =>
      obtain ⟨rfl, -⟩ := List.cons.inj h
      constructor
      · obtain ⟨c, cs, heq⟩ := List.exists_cons_of_ne_nil hne
        have hc : isSpace c = false := by
          have hhead := List.head?_dropWhile_not isSpace s
          simpa [heq] using hhead
        rw [heq, List.takeWhile_cons_of_pos (by simp [hc])]
        simp
      · intro c hc
        have hnot := List.mem_takeWhile_imp hc
        simpa using hnot

/-! ## the value -/

/-- A quotation mark at either end, which may be the same one. -/
def inQuotes (s : Str) : Bool := startsWith s ['"'] && endsWith s ['"']

/-- The text in quotes, if a space in it needs them. -/
def quoteSpaced (s : Str) : Str := if ' ' ∈ s ∧ !inQuotes s then ['"'] ++ s ++ ['"'] else s

/-- A tag and a value as `parse_caa` leaves them. -/
structure IsCaa (tag value : Str) : Prop where
  tag_ne_nil : tag ≠ []
  alnum : ∀ c ∈ tag, isAscii c = true ∧ c.isAlphanum = true
  lower : foldAscii tag = tag
  ne_nil : value ≠ []
  stripped : strip value = value
  spaced : quoteSpaced value = value

/-- The text of a CAA value. -/
def caaText (flags : Nat) (tag value : Str) : Str :=
  natStr flags ++ [' '] ++ tag ++ [' '] ++ value

/-- Letters and digits are no whitespace. -/
theorem isSpace_of_isAlphanum {c : Char} (hascii : isAscii c = true) (h : c.isAlphanum = true) :
    isSpace c = false :=
  isSpace_of_isHostChar (by simp [isHostChar, hascii, h])

/-- Text with a word at its front is stripped at its end alone. -/
theorem strip_word_append {w : Str} (hne : w ≠ []) (hw : ∀ c ∈ w, isSpace c = false) (rest : Str)
    (hrest : strip rest ≠ []) :
    strip (w ++ ' ' :: rest) = w ++ ' ' :: (rest.rdropWhile isSpace) := by
  obtain ⟨c, cs, rfl⟩ := List.exists_cons_of_ne_nil hne
  have hdrop : ((c :: cs) ++ ' ' :: rest).dropWhile isSpace = (c :: cs) ++ ' ' :: rest := by
    simp [hw c List.mem_cons_self]
  have hkeep : rest.rdropWhile isSpace ≠ [] := by
    intro hnil
    exact hrest (strip_eq_nil (List.rdropWhile_eq_nil_iff.mp hnil))
  rw [strip, hdrop, List.append_cons, rdropWhile_append _ hkeep, ← List.append_cons]

/-- Trimming the end first changes nothing. -/
theorem strip_rdropWhile (s : Str) : strip (s.rdropWhile isSpace) = strip s := by
  obtain ⟨t, ht, hspaces⟩ : ∃ t, s.rdropWhile isSpace ++ t = s ∧ t.rdropWhile isSpace = [] := by
    refine ⟨s.rtakeWhile isSpace, List.rdropWhile_append_rtakeWhile .., ?_⟩
    exact List.rdropWhile_eq_nil_iff.mpr fun c hc => List.mem_rtakeWhile_imp hc
  cases hdrop : (s.rdropWhile isSpace).dropWhile isSpace with
  | nil =>
      have hall : ∀ c ∈ s, isSpace c = true := by
        intro c hc
        rw [← ht, List.mem_append] at hc
        rcases hc with hc | hc
        · exact List.dropWhile_eq_nil_iff.mp hdrop c hc
        · exact List.rdropWhile_eq_nil_iff.mp hspaces c hc
      rw [strip, hdrop, strip_eq_nil hall]
      rfl
  | cons c cs =>
      have hwhole : s.dropWhile isSpace = (s.rdropWhile isSpace).dropWhile isSpace ++ t := by
        conv_lhs => rw [← ht]
        rw [List.dropWhile_append, hdrop]
        rfl
      rw [strip, strip, hwhole, rdropWhile_append_nil _ hspaces]

/-- Trimming the beginning first changes nothing. -/
theorem strip_dropWhile (s : Str) : strip (s.dropWhile isSpace) = strip s := by
  rw [strip, strip, List.dropWhile_idempotent]

/-- Quoting empties no text. -/
theorem quoteSpaced_ne_nil {s : Str} (h : s ≠ []) : quoteSpaced s ≠ [] := by
  unfold quoteSpaced
  split <;> simp [h]

/-- What is put in quotes is in quotes. -/
theorem inQuotes_quoted (s : Str) : inQuotes (['"'] ++ s ++ ['"']) = true := by
  simp [inQuotes, startsWith, endsWith]

/-- Quoting twice is quoting once. -/
@[simp] theorem quoteSpaced_twice (s : Str) : quoteSpaced (quoteSpaced s) = quoteSpaced s := by
  by_cases h : ' ' ∈ s ∧ (!inQuotes s) = true
  · have hquoted : quoteSpaced s = ['"'] ++ s ++ ['"'] := if_pos h
    rw [hquoted, quoteSpaced, inQuotes_quoted]
    simp
  · have hplain : quoteSpaced s = s := if_neg h
    rw [hplain, hplain]

/-- What is quoted has no whitespace around it. -/
theorem strip_quoteSpaced {s : Str} (h : strip s = s) : strip (quoteSpaced s) = quoteSpaced s := by
  unfold quoteSpaced
  split
  · have hquote : isSpace '"' = false := by decide
    refine strip_eq_self (fun c hc => ?_) fun c hc => ?_
    · have hc : '"' = c := by simpa using hc
      rw [← hc, hquote]
    · rw [List.getLast?_concat] at hc
      rw [← Option.some.inj hc, hquote]
  · exact h

section Parse

variable (U : Ucd) {flags : Nat} {tag value : Str}

/-- A tag of ASCII letters and digits matches. -/
theorem caaTagMatches_of_alnum (hne : tag ≠ [])
    (htag : ∀ c ∈ tag, isAscii c = true ∧ c.isAlphanum = true) : caaTagMatches tag = true := by
  have hall : tag.all (fun c => isAscii c && c.isAlphanum) = true := by
    rw [List.all_eq_true]
    intro c hc
    simp [htag c hc]
  simp [caaTagMatches, hne, hall]

/-- A tag without white space that is accepted. -/
theorem alnum_of_caaTagMatches (hspace : ∀ c ∈ tag, isSpace c = false)
    (h : caaTagMatches tag = true) : ∀ c ∈ tag, isAscii c = true ∧ c.isAlphanum = true := by
  have hline : tag.getLast? ≠ some '\n' := by
    intro hlast
    have hnot := hspace '\n' (List.mem_of_getLast? hlast)
    exact absurd hnot (by decide)
  simp only [caaTagMatches, Bool.or_eq_true, Bool.and_eq_true, beq_iff_eq, hline, false_and,
    or_false, List.all_eq_true] at h
  exact h.2

/-- What `parse_caa` does with three fields. -/
theorem parseCaa_words {s w₁ w₂ w₃ : Str} (hwords : splitWordsMax 2 (strip s) = [w₁, w₂, w₃]) :
    parseCaa U s = parseUint U w₁ (lit "flags") 255 >>= fun flags =>
      if !caaTagMatches (strip w₂) then
        .error (.valueError (lit "Invalid CAA tag: " ++ U.repr (strip w₂) ++ lit "."))
      else if strip w₃ = [] then .error (.valueError (lit "CAA value is required."))
      else .ok (flags, U.lower (strip w₂), quoteSpaced (strip w₃)) := by
  unfold parseCaa
  rw [hwords]
  refine bind_congr fun flags => ?_
  by_cases htag : (!caaTagMatches (strip w₂)) = true
  · rw [if_pos htag, if_pos htag]
    rfl
  · rw [if_neg htag, if_neg htag]
    dsimp only
    by_cases hvalue : strip w₃ = []
    · rw [if_pos hvalue, if_pos hvalue]
      rfl
    · rw [if_neg hvalue, if_neg hvalue]
      by_cases hquote : ' ' ∈ strip w₃ ∧ (!inQuotes (strip w₃)) = true
      · rw [quoteSpaced, if_pos hquote]
        exact if_pos hquote
      · rw [quoteSpaced, if_neg hquote]
        exact if_neg hquote

/-- What `parse_caa` reads of three fields, the last one being any text. -/
theorem parseCaa_fields (hflags : flags ≤ 255) (hne : tag ≠ [])
    (htag : ∀ c ∈ tag, isAscii c = true ∧ c.isAlphanum = true) (hvalue : strip value ≠ []) :
    parseCaa U (caaText flags tag value) = .ok (flags, foldAscii tag, quoteSpaced (strip value)) := by
  have hspace : ∀ c ∈ tag, isSpace c = false := fun c hc =>
    isSpace_of_isAlphanum (htag c hc).1 (htag c hc).2
  have hrest : strip (tag ++ ' ' :: value) ≠ [] := by
    rw [strip_word_append hne hspace value hvalue]
    simp [hne]
  have htext : strip (caaText flags tag value) =
      natStr flags ++ ' ' :: (tag ++ ' ' :: value.rdropWhile isSpace) := by
    have hend : (tag ++ ' ' :: value).rdropWhile isSpace = tag ++ ' ' :: value.rdropWhile isSpace := by
      have hkeep : value.rdropWhile isSpace ≠ [] := by
        intro hnil
        exact hvalue (strip_eq_nil (List.rdropWhile_eq_nil_iff.mp hnil))
      rw [List.append_cons, rdropWhile_append _ hkeep, ← List.append_cons]
    have hwhole : caaText flags tag value = natStr flags ++ ' ' :: (tag ++ ' ' :: value) := by
      simp [caaText]
    rw [hwhole, strip_word_append (natStr_ne_nil flags) (fun _ hc => isSpace_of_mem_natStr hc) _
      hrest, hend]
  have hlast : (value.rdropWhile isSpace).dropWhile isSpace ≠ [] := by
    intro hnil
    refine hvalue ?_
    rw [← strip_rdropWhile, strip, hnil]
    rfl
  have hwords : splitWordsMax 2 (strip (caaText flags tag value)) =
      [natStr flags, tag, (value.rdropWhile isSpace).dropWhile isSpace] := by
    rw [htext, splitWordsMax_cons 1 (natStr_ne_nil flags) (fun _ hc => isSpace_of_mem_natStr hc),
      splitWordsMax_cons 0 hne hspace, splitWordsMax, if_neg hlast]
  have hthird : strip ((value.rdropWhile isSpace).dropWhile isSpace) = strip value := by
    rw [strip_dropWhile, strip_rdropWhile]
  have hlower : U.lower tag = foldAscii tag := U.lower_ascii fun c hc => (htag c hc).1
  rw [parseCaa_words U hwords, parseUint_natStr U _ hflags (by omega), ok_bind,
    strip_of_no_space hspace, caaTagMatches_of_alnum hne htag, hthird, if_neg hvalue, hlower]
  rfl

/-- A CAA value is read back. -/
theorem parseCaa_caaText (hflags : flags ≤ 255) (h : IsCaa tag value) :
    parseCaa U (caaText flags tag value) = .ok (flags, tag, value) := by
  have hne : strip value ≠ [] := by
    rw [h.stripped]
    exact h.ne_nil
  rw [parseCaa_fields U hflags h.tag_ne_nil h.alnum hne, h.lower, h.stripped, h.spaced]

/-- Letters and digits stay such in lower case. -/
theorem isAlphanum_toLower {c : Char} (h : isAscii c = true ∧ c.isAlphanum = true) :
    isAscii c.toLower = true ∧ c.toLower.isAlphanum = true := by
  obtain ⟨hascii, halnum⟩ := h
  have hlower := toNat_toLower c
  rw [Char.isAlphanum, Bool.or_eq_true, isAlpha_iff] at halnum
  rw [Char.isAlphanum, Bool.or_eq_true, isAlpha_iff]
  simp only [isAscii, decide_eq_true_eq] at hascii ⊢
  by_cases hupper : 65 ≤ c.toNat ∧ c.toNat ≤ 90
  · rw [if_pos hupper] at hlower
    exact ⟨by omega, .inl (.inr (by omega))⟩
  · rw [if_neg hupper] at hlower
    rw [Char.toNat_inj.mp hlower]
    exact ⟨hascii, halnum⟩

/-- The parts of a value that `parse_caa` accepts are in normal form. -/
theorem isCaa_of_parseCaa {s : Str} (h : parseCaa U s = .ok (flags, tag, value)) :
    flags ≤ 255 ∧ IsCaa tag value := by
  obtain ⟨w₁, w₂, w₃, hwords⟩ : ∃ w₁ w₂ w₃, splitWordsMax 2 (strip s) = [w₁, w₂, w₃] := by
    unfold parseCaa at h
    split at h
    · next w₁ w₂ w₃ hwords => exact ⟨w₁, w₂, w₃, hwords⟩
    · contradiction
  rw [parseCaa_words U hwords] at h
  obtain ⟨n, hn, h⟩ := bind_eq_ok h
  split_ifs at h with htag hvalue
  obtain ⟨rfl, rfl, rfl⟩ : n = flags ∧ U.lower (strip w₂) = tag ∧ quoteSpaced (strip w₃) = value := by
    simpa using Except.ok.inj h
  obtain ⟨hne, hspace⟩ : w₂ ≠ [] ∧ ∀ c ∈ w₂, isSpace c = false := by
    rw [splitWordsMax] at hwords
    split at hwords
    · contradiction
    · exact mem_splitWordsMax_cons (List.cons.inj hwords).2
  have halnum : ∀ c ∈ w₂, isAscii c = true ∧ c.isAlphanum = true := by
    rw [strip_of_no_space hspace] at htag
    exact alnum_of_caaTagMatches hspace (by simpa using htag)
  have hlower : U.lower (strip w₂) = foldAscii w₂ := by
    rw [strip_of_no_space hspace]
    exact U.lower_ascii fun c hc => (halnum c hc).1
  rw [hlower]
  refine ⟨parseUint_ok U hn, ?_, ?_, ?_, quoteSpaced_ne_nil hvalue,
    strip_quoteSpaced (strip_strip _), quoteSpaced_twice _⟩
  · simpa [foldAscii] using hne
  · intro c hc
    obtain ⟨d, hd, rfl⟩ := List.mem_map.mp hc
    exact isAlphanum_toLower (halnum d hd)
  · exact foldAscii_idem w₂

/-- Accepted CAA values. -/
theorem normalizeRecordValue_caa_ok {v : Str} (h : normalizeRecordValue U .caa value = .ok v) :
    ∃ flags tag text, flags ≤ 255 ∧ IsCaa tag text ∧ v = caaText flags tag text := by
  unfold normalizeRecordValue at h
  dsimp only at h
  split_ifs at h
  obtain ⟨⟨flags, tag, text⟩, hparse, hv⟩ := bind_eq_ok h
  obtain ⟨hflags, hcaa⟩ := isCaa_of_parseCaa U hparse
  exact ⟨flags, tag, text, hflags, hcaa, (Except.ok.inj hv).symm⟩

/-- A CAA value is not blank. -/
theorem strip_caaText_ne_nil (flags : Nat) (tag value : Str) : strip (caaText flags tag value) ≠ [] := by
  intro hnil
  obtain ⟨c, cs, hnum⟩ := List.exists_cons_of_ne_nil (natStr_ne_nil flags)
  have hc : isSpace c = false := isSpace_of_mem_natStr (hnum ▸ List.mem_cons_self)
  have hmem : c ∈ (caaText flags tag value).dropWhile isSpace := by
    simp [caaText, hnum, hc]
  have hspace := List.rdropWhile_eq_nil_iff.mp hnil c hmem
  rw [hc] at hspace
  contradiction

/-- The value of three fields, in normal form. -/
theorem normalizeRecordValue_caaFields (hflags : flags ≤ 255) (hne : tag ≠ [])
    (htag : ∀ c ∈ tag, isAscii c = true ∧ c.isAlphanum = true) (hvalue : strip value ≠ []) :
    normalizeRecordValue U .caa (caaText flags tag value) =
      .ok (caaText flags (foldAscii tag) (quoteSpaced (strip value))) := by
  have hparse : parseCaa U (strip (caaText flags tag value)) =
      .ok (flags, foldAscii tag, quoteSpaced (strip value)) := by
    rw [← parseCaa_fields U hflags hne htag hvalue, parseCaa, strip_strip, parseCaa]
  unfold normalizeRecordValue
  dsimp only
  rw [if_neg (strip_caaText_ne_nil flags tag value), hparse]
  rfl

/-- Without a value there are two fields. -/
theorem normalizeRecordValue_caa_blank (hne : tag ≠ []) (hspace : ∀ c ∈ tag, isSpace c = false)
    (hvalue : strip value = []) (v : Str) :
    normalizeRecordValue U .caa (caaText flags tag value) ≠ .ok v := by
  have hblank : (' ' :: value).rdropWhile isSpace = [] := by
    rw [List.rdropWhile_eq_nil_iff, List.forall_mem_cons]
    refine ⟨by decide, fun c hc => ?_⟩
    by_contra hc'
    have hdrop : value.dropWhile isSpace ≠ [] := by
      intro hnil
      exact hc' (List.dropWhile_eq_nil_iff.mp hnil c hc)
    have hhead := List.head?_dropWhile_not isSpace value
    obtain ⟨d, ds, heq⟩ := List.exists_cons_of_ne_nil hdrop
    have hd : d ∈ value.dropWhile isSpace := by
      rw [heq]
      exact List.mem_cons_self
    have hd' := List.rdropWhile_eq_nil_iff.mp hvalue d hd
    rw [heq] at hhead
    simp [hd'] at hhead
  have hlast : tag.rdropWhile isSpace = tag := by
    rw [List.rdropWhile_eq_self_iff]
    intro hl
    simp [hspace _ (List.getLast_mem hl)]
  have hfront : (natStr flags ++ ' ' :: tag).rdropWhile isSpace = natStr flags ++ ' ' :: tag := by
    rw [List.append_cons, rdropWhile_append _ (by rwa [hlast]), hlast, ← List.append_cons]
  have hwhole : caaText flags tag value = (natStr flags ++ ' ' :: tag) ++ ' ' :: value := by
    simp [caaText]
  have hstrip : strip (caaText flags tag value) = natStr flags ++ ' ' :: tag := by
    have hdrop : (caaText flags tag value).dropWhile isSpace = caaText flags tag value := by
      obtain ⟨c, cs, hnum⟩ := List.exists_cons_of_ne_nil (natStr_ne_nil flags)
      have hc : isSpace c = false := isSpace_of_mem_natStr (hnum ▸ List.mem_cons_self)
      simp [caaText, hnum, hc]
    rw [strip, hdrop, hwhole, rdropWhile_append_nil _ hblank, hfront]
  have hword : splitWordsMax 1 tag = [tag] := by
    obtain ⟨c, cs, rfl⟩ := List.exists_cons_of_ne_nil hne
    have hall : ∀ x ∈ c :: cs, (!isSpace x) = true := by
      intro x hx
      rw [hspace x hx]
      rfl
    have hdrop : (c :: cs).dropWhile isSpace = c :: cs := by simp [hspace c List.mem_cons_self]
    rw [splitWordsMax, hdrop]
    simp [List.takeWhile_eq_self_iff.mpr hall, List.dropWhile_eq_nil_iff.mpr hall, splitWordsMax]
  have hwords : splitWordsMax 2 (strip (natStr flags ++ ' ' :: tag)) = [natStr flags, tag] := by
    rw [← hstrip, strip_strip, hstrip,
      splitWordsMax_cons 1 (natStr_ne_nil flags) (fun _ hc => isSpace_of_mem_natStr hc), hword]
  intro hok
  unfold normalizeRecordValue at hok
  dsimp only at hok
  rw [if_neg (strip_caaText_ne_nil flags tag value), hstrip, parseCaa, hwords] at hok
  contradiction

end Parse

end ApiToDns
