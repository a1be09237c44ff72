import ApiToDns.CaaValues
import ApiToDns.CloudflareSync

/-!
# CloudflareValues

What a value is read back as once it is written to a row (`_record_body`,
`_canonical_from_row`): itself, unless it has quotation marks around it that
are taken off, or a line feed at its end (`readBack_eq_self_iff`).
-/

namespace ApiToDns.Cloudflare

open Py

/-! ## the text of TXT records -/

/-- What is inside quotes. -/
theorem inner_quoted (s : Str) : inner ('"' :: s ++ ['"']) = s :=
  dropEnd_append s ['"']

/-- What is put in quotes is quoted. -/
theorem isQuoted_quoted (s : Str) : isQuoted ('"' :: s ++ ['"']) = true := by
  have hsuffix : ['"'] <:+ '"' :: s ++ ['"'] := ⟨'"' :: s, rfl⟩
  simp only [isQuoted, Bool.and_eq_true, startsWith_iff, endsWith_iff]
  exact ⟨⟨by simp, by simp⟩, hsuffix⟩

/-- A quoted text is its inside in quotes. -/
theorem eq_of_isQuoted {s : Str} (hs : isQuoted s = true) : s = '"' :: inner s ++ ['"'] := by
  simp only [isQuoted, Bool.and_eq_true, startsWith_iff, endsWith_iff, decide_eq_true_eq] at hs
  obtain ⟨⟨hlen, t, rfl⟩, hsuffix⟩ := hs
  obtain ⟨u, hu⟩ := hsuffix
  cases u with
  | nil =>
      rw [← hu] at hlen
      contradiction
  | cons c u =>
      have ht : t = u ++ ['"'] := (List.cons.inj hu).2.symm
      rw [ht, show ['"'] ++ (u ++ ['"']) = '"' :: u ++ ['"'] from rfl, inner_quoted]

/-- Stripping takes a part of the text. -/
theorem strip_isInfix (s : Str) : strip s <:+: s :=
  (List.rdropWhile_prefix _ _).isInfix.trans (List.dropWhile_suffix _).isInfix

/-- The quotation marks guard the text against stripping. -/
theorem normalizeTxtValue_quoted (s : Str) : normalizeTxtValue ('"' :: s ++ ['"']) = s := by
  have hstrip : strip ('"' :: s ++ ['"']) = '"' :: s ++ ['"'] := by
    refine strip_eq_self ?_ ?_
    · simp [show isSpace '"' = false by decide]
    · rw [List.getLast?_concat]
      simp [show isSpace '"' = false by decide]
  rw [normalizeTxtValue, hstrip]
  rw [if_pos (isQuoted_quoted s), inner_quoted]

/-- Whitespace around a text does not matter. -/
theorem normalizeTxtValue_strip (value : Str) :
    normalizeTxtValue (strip value) = normalizeTxtValue value := by
  rw [normalizeTxtValue, strip_strip, normalizeTxtValue]

/-- Reading a value changes nothing, or shortens it. -/
theorem normalizeTxtValue_cases (value : Str) :
    (normalizeTxtValue value = value ∧ strip value = value ∧ isQuoted value = false) ∨
      (normalizeTxtValue value).length < value.length := by
  have hle := (strip_isInfix value).length_le
  unfold normalizeTxtValue
  dsimp only
  split
  · next h =>
      right
      have hlen := congrArg List.length (eq_of_isQuoted h)
      simp only [List.length_append, List.length_cons, List.length_nil] at hlen
      omega
  · next h =>
      rcases Nat.lt_or_eq_of_le hle with hlt | heq
      · exact .inr hlt
      · have hstrip := (strip_isInfix value).eq_of_length heq
        rw [hstrip] at h
        exact .inl ⟨hstrip, hstrip, by simpa using h⟩

/-- A text is normal if it is stripped and not quoted. -/
theorem normalizeTxtValue_eq_self_iff {value : Str} :
    normalizeTxtValue value = value ↔ strip value = value ∧ isQuoted value = false := by
  constructor
  · intro heq
    refine ((normalizeTxtValue_cases value).resolve_right fun hlt => ?_).2
    rw [heq] at hlt
    omega
  · intro ⟨hstrip, hquoted⟩
    simp [normalizeTxtValue, hstrip, hquoted]

/-- A word is no longer than all of them. -/
theorem length_le_sum {W : List Str} {w : Str} (hw : w ∈ W) :
    w.length ≤ (W.map List.length).sum := by
  induction W with
  | nil => contradiction
  | cons x W ih =>
      rw [List.map_cons, List.sum_cons]
      rcases List.mem_cons.mp hw with rfl | hw
      · omega
      · have hle := ih hw
        omega

/-- Texts that are the image of one another under shortening are left alone by it. -/
theorem fixed_of_image {f : Str → Except Exc Str} {W : List Str}
    (hf : ∀ v ∈ W, ∀ w, f v = .ok w → w = v ∨ w.length < v.length)
    (himage : ∀ v ∈ W, ∃ w ∈ W, f w = .ok v) : ∀ v ∈ W, f v = .ok v := by
  intro v hv
  -- a text that is shortened is the image of a longer one that is shortened too
  induction hn : (W.map List.length).sum - v.length using Nat.strong_induction_on generalizing v with
  | _ n ih =>
      obtain ⟨w, hw, hfw⟩ := himage v hv
      rcases hf w hw v hfw with rfl | hlt
      · exact hfw
      · have hle := length_le_sum hw
        have hfixed := ih _ (by omega) w hw rfl
        rw [Except.ok.inj (hfw.symm.trans hfixed)] at hlt
        omega


/-! ## what is read back -/

section ReadBack

variable (P : Platform)

/-- `_canonical_from_row` of the body that `_record_body` makes of a value. -/
def readBack (cfg : Config) (t : Target) (value : Str) : Except Exc Str := do
  let body ← recordBody P cfg t.fqdn t.rt value t.ttl
  canonicalFromRow P t.rt body

/-- The text needs the quotation marks that are put around it. -/
def NeedsQuotes (text : Str) : Prop := strip text = text ∧ ' ' ∈ text ∧ inQuotes text = false

/-- The form of a normalised value survives a row: no quotation marks are
taken off that are not put back, and no line feed is at its end. -/
def KeepsForm (U : Ucd) (rt : RecordType) (value : Str) : Prop :=
  match rt with
  | .txt => isQuoted value = false
  | .ns | .ptr => value.getLast? ≠ some '\n'
  | .caa => ∀ flags tag text, parseCaa U value = .ok (flags, tag, text) → isQuoted text = true →
      NeedsQuotes (inner text)
  | _ => True

/-- The other fields are found behind. -/
theorem get_cons_of_ne {key key' : Str} (h : key ≠ key') (x : Json) (d : Dict) :
    Dict.get ((key, x) :: d) key' = Dict.get d key' := by
  simp [Dict.get, h]

@[simp] theorem textOr_str (s : Str) : textOr P (.str s) = s := by
  cases s with
  | nil => rfl
  | cons c cs => exact Json.pyStr_str _ _

@[simp] theorem intStr_natCast (n : Nat) : intStr n = natStr n := rfl

/-- A natural number is read as it is. -/
@[simp] theorem intOr_natCast (n : Nat) : intOr P (.int n) = .ok (n : Int) := by
  cases n <;> rfl

attribute [local simp] canonicalFromRow in
/-- The id of a row is not read. -/
theorem canonicalFromRow_rowOf (rt : RecordType) (id : Str) (body : Dict) :
    canonicalFromRow P rt (rowOf id body) = canonicalFromRow P rt body := by
  have hcontent : Dict.get (rowOf id body) (lit "content") = Dict.get body (lit "content") :=
    get_cons_of_ne (by decide) _ _
  have hdata : Dict.get (rowOf id body) (lit "data") = Dict.get body (lit "data") :=
    get_cons_of_ne (by decide) _ _
  have hpriority : Dict.get (rowOf id body) (lit "priority") = Dict.get body (lit "priority") :=
    get_cons_of_ne (by decide) _ _
  simp [hcontent, hdata, hpriority]

variable {cfg : Config} {t : Target} {value raw : Str}

/-- The value of a plain content is the content. -/
theorem readBack_content (hrt : t.rt = .a ∨ t.rt = .aaaa ∨ t.rt = .soa) :
    readBack P cfg t value = .ok value := by
  rcases hrt with hrt | hrt | hrt <;>
    simp [readBack, recordBody, recordData, canonicalFromRow, hrt, Dict.get, lit]

/-- A name is read back in its normal form. -/
theorem readBack_host (hrt : t.rt = .cname ∨ t.rt = .ns ∨ t.rt = .ptr) :
    readBack P cfg t value = normalizeHostname P.ucd value := by
  rcases hrt with hrt | hrt | hrt <;>
    simp [readBack, recordBody, recordData, canonicalFromRow, hrt, Dict.get, lit]

/-- A text is read back in its normal form. -/
theorem readBack_txt (hrt : t.rt = .txt) :
    readBack P cfg t value = .ok (normalizeTxtValue value) := by
  have hquoted : normalizeTxtValue (cloudflareTxtContent value) = normalizeTxtValue value :=
    normalizeTxtValue_quoted _
  simp [readBack, recordBody, recordData, canonicalFromRow, hrt, Dict.get, lit, hquoted]

/-- A mail exchange is read back. -/
theorem readBack_mx (hrt : t.rt = .mx) {preference : Nat} {labels : List Str}
    (hp : preference ≤ 65535) (h : IsHost labels) :
    readBack P cfg t (mxText preference labels) = .ok (mxText preference labels) := by
  simp [readBack, recordBody, recordData, canonicalFromRow, hrt, Dict.get, lit,
    parseMx_mxText P.ucd hp h, formatMx, normalizeHostname_hostText P.ucd h]
  simp [mxText]

/-- A service is read back. -/
theorem readBack_srv (hrt : t.rt = .srv) {priority weight port : Nat} {labels : List Str}
    (hp : priority ≤ 65535) (hw : weight ≤ 65535) (ho : port ≤ 65535) (h : IsHost labels) :
    readBack P cfg t (srvText priority weight port labels) =
      .ok (srvText priority weight port labels) := by
  simp [readBack, recordBody, recordData, canonicalFromRow, hrt, Dict.get, lit,
    Json.orElse, Json.truthy, asDict, pyInt, parseSrv_srvText P.ucd hp hw ho h, formatSrv,
    h.text_ne_nil, normalizeHostname_hostText P.ucd h]
  simp [srvText]

/-- A CAA value is read back without its quotes. -/
theorem readBack_caa (hrt : t.rt = .caa) {flags : Nat} {tag text : Str} (hflags : flags ≤ 255)
    (h : IsCaa tag text) :
    readBack P cfg t (caaText flags tag text) =
      normalizeRecordValue P.ucd .caa (caaText flags tag (bareCaaValue text)) := by
  simp [readBack, recordBody, recordData, canonicalFromRow, hrt, Dict.get, lit,
    Json.truthy, asDict, parseCaa_caaText P.ucd hflags h, formatCaa]
  simp [caaText]

/-- A normalised value has a body. -/
theorem recordBody_of_normal (h : normalizeRecordValue P.ucd t.rt raw = .ok value) :
    ∃ body, recordBody P cfg t.fqdn t.rt value t.ttl = .ok body := by
  have hdata : ∃ data, recordData P t.fqdn t.rt value = .ok data := by
    cases hrt : t.rt with
    | a | aaaa | cname | txt | ns | ptr | soa => exact ⟨_, rfl⟩
    | mx =>
        rw [hrt] at h
        obtain ⟨preference, labels, hp, hlabels, rfl⟩ := normalizeRecordValue_mx_ok P.ucd h
        exact ⟨_, by rw [recordData, parseMx_mxText P.ucd hp hlabels]; rfl⟩
    | srv =>
        rw [hrt] at h
        obtain ⟨priority, weight, port, labels, hp, hw, ho, hlabels, rfl⟩ :=
          normalizeRecordValue_srv_ok P.ucd h
        exact ⟨_, by rw [recordData, parseSrv_srvText P.ucd hp hw ho hlabels]; rfl⟩
    | caa =>
        rw [hrt] at h
        obtain ⟨flags, tag, text, hflags, hcaa, rfl⟩ := normalizeRecordValue_caa_ok P.ucd h
        exact ⟨_, by rw [recordData, parseCaa_caaText P.ucd hflags hcaa]; rfl⟩
  obtain ⟨data, hdata⟩ := hdata
  exact ⟨_, by rw [recordBody, hdata]; rfl⟩

/-- A value is read back as itself if it keeps its form, and as a shorter one
otherwise. -/
def ReadBackAs (P : Platform) (cfg : Config) (t : Target) (value : Str) : Prop :=
  (KeepsForm P.ucd t.rt value ∧ readBack P cfg t value = .ok value) ∨
    (¬KeepsForm P.ucd t.rt value ∧ ∀ w, readBack P cfg t value = .ok w → w.length < value.length)

/-- White space at the end is stripped. -/
theorem length_strip_lt {s : Str} {c : Char} (hlast : s.getLast? = some c) (hc : isSpace c = true) :
    (strip s).length < s.length := by
  refine Nat.lt_of_le_of_ne (strip_isInfix s).length_le fun heq => ?_
  have hstrip := (strip_isInfix s).eq_of_length heq
  have hne : strip s ≠ [] := by
    intro hnil
    rw [← hstrip, hnil] at hlast
    contradiction
  have hend := List.rdropWhile_last_not isSpace _ hne
  have hgetLast : (strip s).getLast? = some c := by rw [hstrip, hlast]
  rw [List.getLast?_eq_getLast_of_ne_nil hne] at hgetLast
  exact hend (Option.some.inj hgetLast ▸ hc)

/-- Names are read back as names. -/
theorem readBackAs_host (hrt : t.rt = .ns ∨ t.rt = .ptr)
    (h : normalizeRecordValue P.ucd t.rt raw = .ok value) : ReadBackAs P cfg t value := by
  have hform : KeepsForm P.ucd t.rt value ↔ value.getLast? ≠ some '\n' := by
    rcases hrt with hrt | hrt <;> simp [KeepsForm, hrt]
  obtain ⟨labels, tail, hlabels, rfl, htail⟩ := normalizeRecordValue_host_ok P.ucd (.inr hrt) h
  rw [ReadBackAs, hform, readBack_host P (.inr hrt)]
  rcases htail with rfl | rfl | rfl
  · left
    rw [List.append_nil]
    refine ⟨fun hlast => ?_, normalizeHostname_hostText P.ucd hlabels⟩
    have hnot := hlabels.isSpace (List.mem_of_getLast? hlast)
    exact absurd hnot (by decide)
  all_goals
    right
    refine ⟨by simp, fun w hw => ?_⟩
    have hbare := (normalizeHostname_ok P.ucd hw).1
    rw [hbare]
    refine Nat.lt_of_le_of_lt (List.rdropWhile_prefix _ _).length_le ?_
    exact length_strip_lt (c := '\n') (by simp) (by decide)

/-- CAA values are read back as such. -/
theorem readBackAs_caa (hrt : t.rt = .caa) (h : normalizeRecordValue P.ucd t.rt raw = .ok value) :
    ReadBackAs P cfg t value := by
  rw [hrt] at h
  obtain ⟨flags, tag, text, hflags, hcaa, rfl⟩ := normalizeRecordValue_caa_ok P.ucd h
  have hform : KeepsForm P.ucd t.rt (caaText flags tag text) ↔
      (isQuoted text = true → NeedsQuotes (inner text)) := by
    rw [hrt, KeepsForm, parseCaa_caaText P.ucd hflags hcaa]
    simp
  have hspace : ∀ c ∈ tag, isSpace c = false := fun c hc =>
    isSpace_of_isAlphanum (hcaa.alnum c hc).1 (hcaa.alnum c hc).2
  rw [ReadBackAs, hform, readBack_caa P hrt hflags hcaa]
  cases hquoted : isQuoted text with
  | false =>
      left
      have hvalue : strip text ≠ [] := by
        rw [hcaa.stripped]
        exact hcaa.ne_nil
      rw [bareCaaValue, hquoted, if_neg (by simp),
        normalizeRecordValue_caaFields P.ucd hflags hcaa.tag_ne_nil hcaa.alnum hvalue, hcaa.lower,
        hcaa.stripped, hcaa.spaced]
      exact ⟨by simp, rfl⟩
  | true =>
      rw [bareCaaValue, hquoted, if_pos rfl, imp_iff_right rfl]
      have htext := eq_of_isQuoted hquoted
      by_cases hblank : strip (inner text) = []
      · right
        refine ⟨fun hneeds => ?_, fun w hw =>
          absurd hw (normalizeRecordValue_caa_blank P.ucd hcaa.tag_ne_nil hspace hblank w)⟩
        rw [NeedsQuotes, hblank] at hneeds
        rw [← hneeds.1] at hneeds
        exact absurd hneeds.2.1 (by simp)
      · rw [normalizeRecordValue_caaFields P.ucd hflags hcaa.tag_ne_nil hcaa.alnum hblank, hcaa.lower]
        by_cases hneeds : NeedsQuotes (inner text)
        · left
          refine ⟨hneeds, ?_⟩
          have hput : quoteSpaced (inner text) = '"' :: inner text ++ ['"'] :=
            if_pos ⟨hneeds.2.1, by simp [hneeds.2.2]⟩
          rw [hneeds.1, hput, ← htext]
        · right
          refine ⟨hneeds, fun w hw => ?_⟩
          rw [← Except.ok.inj hw]
          have hlen := congrArg List.length htext
          have hle := (strip_isInfix (inner text)).length_le
          have hshort : (quoteSpaced (strip (inner text))).length < text.length := by
            unfold quoteSpaced
            split
            · next hput =>
                have hne : (strip (inner text)).length ≠ (inner text).length := by
                  intro heq
                  have hstrip := (strip_isInfix (inner text)).eq_of_length heq
                  rw [hstrip] at hput
                  exact hneeds ⟨hstrip, hput.1, by simpa using hput.2⟩
                simp only [List.length_append, List.length_cons, List.length_nil] at hlen ⊢
                omega
            · simp only [List.length_append, List.length_cons, List.length_nil] at hlen ⊢
              omega
          simp only [caaText, List.length_append]
          omega

/-- A normalised value is read back as itself exactly if it keeps its form, and
otherwise, if at all, as a shorter one. -/
theorem readBackAs_of_normal (hcname : t.rt ≠ .cname)
    (h : normalizeRecordValue P.ucd t.rt raw = .ok value) : ReadBackAs P cfg t value := by
  cases hrt : t.rt with
  | a | aaaa | soa =>
      left
      refine ⟨by simp [KeepsForm, hrt], readBack_content P ?_⟩
      simp [hrt]
  | cname => exact absurd hrt hcname
  | ns | ptr => exact readBackAs_host P (by simp [hrt]) h
  | caa => exact readBackAs_caa P hrt h
  | txt =>
      have hform : KeepsForm P.ucd t.rt value ↔ isQuoted value = false := by rw [hrt, KeepsForm]
      rw [ReadBackAs, hform, readBack_txt P hrt]
      have hvalue : strip value = value := by
        rw [hrt, normalizeRecordValue] at h
        split_ifs at h
        rw [← Except.ok.inj h, strip_strip]
      rcases normalizeTxtValue_cases value with ⟨heq, -, hquoted⟩ | hlt
      · exact .inl ⟨hquoted, by rw [heq]⟩
      · right
        refine ⟨fun hquoted => ?_, fun w hw => Except.ok.inj hw ▸ hlt⟩
        rw [normalizeTxtValue_eq_self_iff.mpr ⟨hvalue, hquoted⟩] at hlt
        omega
  | mx =>
      rw [hrt] at h
      obtain ⟨preference, labels, hp, hlabels, rfl⟩ := normalizeRecordValue_mx_ok P.ucd h
      exact .inl ⟨by simp [KeepsForm, hrt], readBack_mx P hrt hp hlabels⟩
  | srv =>
      rw [hrt] at h
      obtain ⟨priority, weight, port, labels, hp, hw, ho, hlabels, rfl⟩ :=
        normalizeRecordValue_srv_ok P.ucd h
      exact .inl ⟨by simp [KeepsForm, hrt], readBack_srv P hrt hp hw ho hlabels⟩

/-- A value keeps its form exactly if it is read back as itself. -/
theorem keepsForm_iff_readBack (cfg : Config) (value : Str) {values desired : List Str} (hcname : t.rt ≠ .cname)
    (hnormal : normalizeRecordValues P.ucd t.rt values = .ok desired) (hvalue : value ∈ desired) :
    (KeepsForm P.ucd t.rt value ↔ readBack P cfg t value = .ok value) ∧
      ∀ w, readBack P cfg t value = .ok w → w = value ∨ w.length < value.length := by
  obtain ⟨raw, -, hraw⟩ := mem_of_mapM_eq_ok (normalizeRecordValues_ok hnormal).1 hvalue
  have hback : ReadBackAs P cfg t value := readBackAs_of_normal P hcname hraw
  rcases hback with ⟨hform, hread⟩ | ⟨hform, hshorter⟩
  · refine ⟨iff_of_true hform hread, fun w hw => .inl ?_⟩
    exact (Except.ok.inj (hread.symm.trans hw)).symm
  · refine ⟨iff_of_false hform fun hread => ?_, fun w hw => .inr (hshorter w hw)⟩
    exact absurd (hshorter value hread) (Nat.lt_irrefl _)

end ReadBack

end ApiToDns.Cloudflare
