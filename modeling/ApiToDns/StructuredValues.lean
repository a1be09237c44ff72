import ApiToDns.CaaValues

/-!
# StructuredValues

Values of several fields: MX, SRV and CAA.  What `normalize_record_value` makes
of such a value has the same fields, is what the fields are formatted as, and
stays as it is (`structured_values_stable`).
-/

namespace ApiToDns

open Py

variable (U : Ucd)

/-- The fields of an accepted value are those of its normal form, which they are
formatted as and which is accepted unchanged. -/
def Stable (rt : RecordType) (parse : Str → Except Exc α) (format : α → Except Exc Str) : Prop :=
  ∀ value normal, normalizeRecordValue U rt value = .ok normal →
    normalizeRecordValue U rt normal = .ok normal ∧
      ∃ fields, parse value = .ok fields ∧ parse normal = .ok fields ∧ format fields = .ok normal

section

variable {U} {rt : RecordType} {parse : Str → Except Exc α} {text : α → Str} {value normal : Str}

/-- A value is normalised by its fields. -/
theorem parse_of_normalize (hstrip : ∀ value, parse (strip value) = parse value)
    (hvalue : strip value ≠ [] → normalizeRecordValue U rt value = text <$> parse (strip value))
    (h : normalizeRecordValue U rt value = .ok normal) :
    ∃ fields, parse value = .ok fields ∧ normal = text fields := by
  have hne : strip value ≠ [] := by
    intro hnil
    unfold normalizeRecordValue at h
    simp [hnil] at h
  rw [hvalue hne, hstrip] at h
  obtain ⟨fields, hfields, htext⟩ := map_eq_ok_iff.mp h
  exact ⟨fields, hfields, htext.symm⟩

/-- A type is stable if its fields are printed as a text of their own. -/
theorem stable_of_text {format : α → Except Exc Str} (text : α → Str) (ok : α → Prop)
    (hstrip : ∀ value, parse (strip value) = parse value)
    (hvalue : ∀ value, strip value ≠ [] →
      normalizeRecordValue U rt value = text <$> parse (strip value))
    (hok : ∀ value fields, parse value = .ok fields → ok fields)
    (hparse : ∀ fields, ok fields → parse (text fields) = .ok fields)
    (hnormal : ∀ fields, ok fields → normalizeRecordValue U rt (text fields) = .ok (text fields))
    (hformat : ∀ fields, ok fields → format fields = .ok (text fields)) :
    Stable U rt parse format := by
  intro value normal h
  obtain ⟨fields, hfields, rfl⟩ := parse_of_normalize hstrip (hvalue value) h
  have hfine := hok value fields hfields
  exact ⟨hnormal fields hfine, fields, hfields, hparse fields hfine, hformat fields hfine⟩

end

/-- What a mail exchange is read as. -/
theorem parseMx_ok {value : Str} {fields : Nat × Str} (h : parseMx U value = .ok fields) :
    ∃ labels, fields.1 ≤ 65535 ∧ IsHost labels ∧ fields.2 = hostText labels := by
  unfold parseMx at h
  split at h
  · next priority host hwords =>
      obtain ⟨p, hp, h⟩ := bind_eq_ok h
      obtain ⟨x, hx, h⟩ := bind_eq_ok h
      have hword := (mem_splitWords (w := host) (by rw [hwords]; simp)).2
      obtain ⟨labels, hlabels, hhost⟩ := normalizeHostname_word U hx hword
      have hp' := parseUint_ok U hp
      rw [← Except.ok.inj h]
      exact ⟨labels, hp', hlabels, hhost⟩
  · contradiction

/-- What a service is read as. -/
theorem parseSrv_ok {value : Str} {fields : Nat × Nat × Nat × Str}
    (h : parseSrv U value = .ok fields) :
    ∃ labels, fields.1 ≤ 65535 ∧ fields.2.1 ≤ 65535 ∧ fields.2.2.1 ≤ 65535 ∧ IsHost labels ∧
      fields.2.2.2 = hostText labels := by
  unfold parseSrv at h
  split at h
  · next priority weight port host hwords =>
      obtain ⟨p, hp, h⟩ := bind_eq_ok h
      obtain ⟨w, hw, h⟩ := bind_eq_ok h
      obtain ⟨o, ho, h⟩ := bind_eq_ok h
      obtain ⟨x, hx, h⟩ := bind_eq_ok h
      have hword := (mem_splitWords (w := host) (by rw [hwords]; simp)).2
      obtain ⟨labels, hlabels, hhost⟩ := normalizeHostname_word U hx hword
      have hp' := parseUint_ok U hp
      have hw' := parseUint_ok U hw
      have ho' := parseUint_ok U ho
      rw [← Except.ok.inj h]
      exact ⟨labels, hp', hw', ho', hlabels, hhost⟩
  · contradiction

/-- Mail exchanges are stable. -/
theorem stable_mx : Stable U .mx (parseMx U) fun f => formatMx U f.1 f.2 := by
  refine stable_of_text (fun f => natStr f.1 ++ [' '] ++ f.2)
    (fun f => ∃ labels, f.1 ≤ 65535 ∧ IsHost labels ∧ f.2 = hostText labels)
    (fun value => ?_) (fun value hne => ?_) (fun _ _ => parseMx_ok U) ?_ ?_ ?_
  · rw [parseMx, strip_strip, parseMx]
  · unfold normalizeRecordValue
    dsimp only
    rw [if_neg hne]
    cases parseMx U (strip value) <;> rfl
  · rintro ⟨p, x⟩ ⟨labels, hp, hlabels, rfl⟩
    exact parseMx_mxText U hp hlabels
  · rintro ⟨p, x⟩ ⟨labels, hp, hlabels, rfl⟩
    exact normalizeRecordValue_mxText U hp hlabels
  · rintro ⟨p, x⟩ ⟨labels, hp, hlabels, rfl⟩
    rw [formatMx, normalizeHostname_hostText U hlabels]
    rfl

/-- Services are stable. -/
theorem stable_srv :
    Stable U .srv (parseSrv U) fun f => formatSrv U f.1 f.2.1 f.2.2.1 f.2.2.2 := by
  refine stable_of_text
    (fun f => natStr f.1 ++ [' '] ++ natStr f.2.1 ++ [' '] ++ natStr f.2.2.1 ++ [' '] ++
      f.2.2.2)
    (fun f => ∃ labels, f.1 ≤ 65535 ∧ f.2.1 ≤ 65535 ∧ f.2.2.1 ≤ 65535 ∧ IsHost labels ∧
      f.2.2.2 = hostText labels)
    (fun value => ?_) (fun value hne => ?_) (fun _ _ => parseSrv_ok U) ?_ ?_ ?_
  · rw [parseSrv, strip_strip, parseSrv]
  · unfold normalizeRecordValue
    dsimp only
    rw [if_neg hne]
    cases parseSrv U (strip value) <;> rfl
  · rintro ⟨p, w, o, x⟩ ⟨labels, hp, hw, ho, hlabels, rfl⟩
    exact parseSrv_srvText U hp hw ho hlabels
  · rintro ⟨p, w, o, x⟩ ⟨labels, hp, hw, ho, hlabels, rfl⟩
    exact normalizeRecordValue_srvText U hp hw ho hlabels
  · rintro ⟨p, w, o, x⟩ ⟨labels, hp, hw, ho, hlabels, rfl⟩
    rw [formatSrv, normalizeHostname_hostText U hlabels]
    rfl

/-- CAA values are stable. -/
theorem stable_caa : Stable U .caa (parseCaa U) fun f => formatCaa U f.1 f.2.1 f.2.2 := by
  have hnormal : ∀ f : Nat × Str × Str, f.1 ≤ 255 ∧ IsCaa f.2.1 f.2.2 →
      normalizeRecordValue U .caa (caaText f.1 f.2.1 f.2.2) = .ok (caaText f.1 f.2.1 f.2.2) := by
    rintro ⟨flags, tag, text⟩ ⟨hflags, hcaa⟩
    have hne : strip text ≠ [] := by
      rw [hcaa.stripped]
      exact hcaa.ne_nil
    rw [normalizeRecordValue_caaFields U hflags hcaa.tag_ne_nil hcaa.alnum hne, hcaa.lower,
      hcaa.stripped, hcaa.spaced]
  refine stable_of_text (fun f => caaText f.1 f.2.1 f.2.2)
    (fun f => f.1 ≤ 255 ∧ IsCaa f.2.1 f.2.2)
    (fun value => ?_) (fun value hne => ?_) ?_ ?_ ?_ ?_
  · rw [parseCaa, strip_strip, parseCaa]
  · unfold normalizeRecordValue
    dsimp only
    rw [if_neg hne]
    cases parseCaa U (strip value) <;> rfl
  · rintro value ⟨flags, tag, text⟩ h
    exact isCaa_of_parseCaa U h
  · rintro ⟨flags, tag, text⟩ ⟨hflags, hcaa⟩
    exact parseCaa_caaText U hflags hcaa
  · intro f hf
    rw [hnormal f hf]
  · intro f hf
    have htext : formatCaa U f.1 f.2.1 f.2.2 =
        normalizeRecordValue U .caa (caaText f.1 f.2.1 f.2.2) := by
      rw [formatCaa, caaText]
      rfl
    rw [htext, hnormal f hf]

/-- Structured values survive being normalised again. -/
theorem structured_values_stable :
    Stable U .mx (parseMx U) (fun f => formatMx U f.1 f.2) ∧
      Stable U .srv (parseSrv U) (fun f => formatSrv U f.1 f.2.1 f.2.2.1 f.2.2.2) ∧
      Stable U .caa (parseCaa U) (fun f => formatCaa U f.1 f.2.1 f.2.2) :=
  ⟨stable_mx U, stable_srv U, stable_caa U⟩

end ApiToDns
