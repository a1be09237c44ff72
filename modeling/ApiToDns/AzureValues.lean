import ApiToDns.CloudflareValues
import ApiToDns.Plugins.Azure

/-!
# AzureValues

Azure's record sets: what `_record_set_to_info` reads of the record set that
`_build_record_set` makes of normalised values.  They are the values again
unless one of them has a line feed at its end, or quotation marks that are not
put back (`roundTrips_iff`).
-/

namespace ApiToDns.Azure

open Py

/-- The record set made of the values is read back as the same values, in their
order, with the same TTL. -/
def RoundTrips (U : Ucd) (rt : RecordType) (values : List Str) (ttl : Int) : Prop :=
  ∃ rs, buildRecordSet U rt values ttl = .ok rs ∧
    ∀ displayName, recordSetToInfo U rs displayName rt =
      .ok ⟨displayName, rt.text, some ttl, some values⟩

/-- The form of a normalised value survives a record set, which keeps the
quotation marks of a TXT value. -/
def KeepsForm (U : Ucd) (rt : RecordType) (value : Str) : Prop :=
  rt = .txt ∨ Cloudflare.KeepsForm U rt value

section

variable {P : Platform} {rt : RecordType} {raw values : List Str} {value : Str} {ttl : Int}

/-- What is read of a record set. -/
theorem recordSetToInfo_eq_ok_iff {U : Ucd} {rs : RecordSet} {info : List Str} :
    (∀ displayName, recordSetToInfo U rs displayName rt =
        .ok ⟨displayName, rt.text, some ttl, some info⟩) ↔
      ttlOrDefault rs.ttl = ttl ∧ valuesOf U rs rt = .ok info := by
  unfold recordSetToInfo
  constructor
  · intro h
    obtain ⟨values, hvalues, hinfo⟩ := bind_eq_ok (h [])
    have heq := Except.ok.inj hinfo
    simp only [DnsRecordInfo.mk.injEq, Option.some.injEq, true_and] at heq
    exact ⟨heq.1, by rw [hvalues, heq.2]⟩
  · intro h displayName
    rw [h.1, h.2]
    rfl

/-- The TTL zero is read as the default. -/
theorem roundTrips_iff_values {U : Ucd} : RoundTrips U rt values ttl ↔
    ttl ≠ 0 ∧ ∃ rs, buildRecordSet U rt values ttl = .ok rs ∧ valuesOf U rs rt = .ok values := by
  unfold RoundTrips
  simp only [recordSetToInfo_eq_ok_iff]
  constructor
  · intro h
    obtain ⟨rs, hbuild, httl, hvalues⟩ := h
    rw [ttl_buildRecordSet U hbuild] at httl
    exact ⟨ttlOrDefault_eq_iff.mp httl, rs, hbuild, hvalues⟩
  · intro h
    obtain ⟨hne, rs, hbuild, hvalues⟩ := h
    refine ⟨rs, hbuild, ?_, hvalues⟩
    rw [ttl_buildRecordSet U hbuild]
    exact ttlOrDefault_eq_iff.mpr hne

/-- Records that are made and read one by one. -/
theorem exists_records_iff {β : Type} (encode : Str → Except Exc β) (decode : β → Except Exc Str)
    (build : List β → RecordSet) {U : Ucd}
    (hbuild : buildRecordSet U rt values ttl = build <$> values.mapM encode)
    (hread : ∀ bs, valuesOf U (build bs) rt = bs.mapM decode) :
    (∃ rs, buildRecordSet U rt values ttl = .ok rs ∧ valuesOf U rs rt = .ok values) ↔
      ∀ value ∈ values, ∃ b, encode value = .ok b ∧ decode b = .ok value := by
  rw [← mapM_round_trip_iff, hbuild]
  simp only [map_eq_ok_iff]
  constructor
  · rintro ⟨rs, ⟨bs, hbs, rfl⟩, hvalues⟩
    exact ⟨bs, hbs, by rw [← hread, hvalues]⟩
  · rintro ⟨bs, hbs, hvalues⟩
    exact ⟨build bs, ⟨bs, hbs, rfl⟩, by rw [hread, hvalues]⟩

/-- Host names are kept as they are and read one by one. -/
theorem exists_hosts_iff {U : Ucd} (hrt : rt = .ns ∨ rt = .ptr) :
    (∃ rs, buildRecordSet U rt values ttl = .ok rs ∧ valuesOf U rs rt = .ok values) ↔
      ∀ value ∈ values, normalizeHostname U value = .ok value := by
  have hall : (∀ value ∈ values, normalizeHostname U value = .ok value) ↔
      values.mapM (normalizeHostname U) = .ok values := by
    rw [mapM_eq_ok_iff, List.forall₂_same]
  rw [hall]
  rcases hrt with rfl | rfl
  all_goals
    constructor
    · rintro ⟨rs, hrs, hvalues⟩
      rwa [← Except.ok.inj hrs] at hvalues
    · intro hvalues
      exact ⟨_, rfl, hvalues⟩

/-- The text of a host name that is not trimmed has no dot at its end. -/
theorem rstripDots_host (hrt : rt = .cname) {v : Str}
    (h : normalizeRecordValue P.ucd rt v = .ok value) : rstripDots value = value ∧ value ≠ [] := by
  obtain ⟨labels, tail, hlabels, rfl, htail⟩ := normalizeRecordValue_host_ok P.ucd (.inl hrt) h
  refine ⟨rstripDots_eq_self fun c hc hdot => ?_, by simp [hlabels.text_ne_nil]⟩
  obtain ⟨d, hlast, hd⟩ := getLast?_hostText hlabels.ne_nil hlabels.label
  rcases htail with rfl | rfl | rfl
  · rw [List.append_nil, hlast, Option.mem_some_iff] at hc
    rw [hc, hdot] at hd
    exact absurd hd (by decide)
  all_goals
    simp [hdot] at hc

variable (ttl) in
/-- Values are read back from a record set exactly if each of them keeps its
form. -/
theorem exists_recordSet_iff (hmutable : rt.isMutable = true)
    (h : normalizeRecordValues P.ucd rt raw = .ok values) :
    (∃ rs, buildRecordSet P.ucd rt values ttl = .ok rs ∧ valuesOf P.ucd rs rt = .ok values) ↔
      ∀ value ∈ values, KeepsForm P.ucd rt value := by
  -- the row that Cloudflare makes of a value keeps the same forms
  have hkeeps : rt ≠ .cname → ∀ value ∈ values, (KeepsForm P.ucd rt value ↔
      rt = .txt ∨ Cloudflare.readBack P ⟨none, false⟩ ⟨[], [], rt, ttl⟩ value = .ok value) := by
    intro hcname value hvalue
    have hrow := Cloudflare.keepsForm_iff_readBack (t := ⟨[], [], rt, ttl⟩) (P := P) ⟨none, false⟩
      value hcname h hvalue
    exact or_congr_right hrow.1
  have hnormal : ∀ value ∈ values, ∃ v, normalizeRecordValue P.ucd rt v = .ok value := by
    intro value hvalue
    obtain ⟨v, -, hv⟩ := mem_of_mapM_eq_ok (normalizeRecordValues_ok h).1 hvalue
    exact ⟨v, hv⟩
  cases rt with
  | soa => contradiction
  | a | aaaa =>
      refine iff_of_true ⟨_, rfl, rfl⟩ fun value _ => ?_
      simp [KeepsForm, Cloudflare.KeepsForm]
  | txt =>
      refine iff_of_true ⟨_, rfl, ?_⟩ fun value _ => .inl rfl
      simp [valuesOf, ← List.flatMap_def]
  | cname =>
      refine iff_of_true ?_ fun value _ => by simp [KeepsForm, Cloudflare.KeepsForm]
      obtain ⟨value, rfl⟩ := (normalizeRecordValues_ok h).2 rfl
      obtain ⟨v, hv⟩ := hnormal value List.mem_cons_self
      obtain ⟨hdots, hne⟩ := rstripDots_host rfl hv
      refine ⟨_, rfl, ?_⟩
      cases value with
      | nil => contradiction
      | cons c cs => simp [valuesOf, hdots]
  | ns | ptr =>
      rw [exists_hosts_iff (by simp)]
      refine forall₂_congr fun value hvalue => ?_
      rw [hkeeps (by simp) value hvalue, Cloudflare.readBack_host P (by simp)]
      simp
  | mx =>
      refine iff_of_true ((exists_records_iff _ _ _ rfl fun bs => rfl).mpr ?_) ?_
      · intro value hvalue
        obtain ⟨v, hv⟩ := hnormal value hvalue
        obtain ⟨preference, labels, hp, hlabels, rfl⟩ := normalizeRecordValue_mx_ok P.ucd hv
        refine ⟨(preference, hostText labels), ?_, ?_⟩
        · rw [parseMx_mxText P.ucd hp hlabels]
          rfl
        · rw [formatMx, normalizeHostname_hostText P.ucd hlabels]
          rfl
      · intro value _
        simp [KeepsForm, Cloudflare.KeepsForm]
  | srv =>
      refine iff_of_true ((exists_records_iff _ _ _ rfl fun bs => rfl).mpr ?_) ?_
      · intro value hvalue
        obtain ⟨v, hv⟩ := hnormal value hvalue
        obtain ⟨priority, weight, port, labels, hp, hw, ho, hlabels, rfl⟩ :=
          normalizeRecordValue_srv_ok P.ucd hv
        refine ⟨(priority, weight, port, hostText labels), ?_, ?_⟩
        · rw [parseSrv_srvText P.ucd hp hw ho hlabels]
          rfl
        · rw [formatSrv, normalizeHostname_hostText P.ucd hlabels]
          rfl
      · intro value _
        simp [KeepsForm, Cloudflare.KeepsForm]
  | caa =>
      rw [exists_records_iff _ _ _ rfl fun bs => rfl]
      refine forall₂_congr fun value hvalue => ?_
      rw [hkeeps (by simp) value hvalue]
      obtain ⟨v, hv⟩ := hnormal value hvalue
      obtain ⟨flags, tag, text, hflags, hcaa, rfl⟩ := normalizeRecordValue_caa_ok P.ucd hv
      rw [Cloudflare.readBack_caa P rfl hflags hcaa, parseCaa_caaText P.ucd hflags hcaa]
      simp [formatCaa, caaText]

/-- Normalised values survive a record set exactly if the TTL is not zero and
each of them keeps its form. -/
theorem roundTrips_iff (hmutable : rt.isMutable = true)
    (h : normalizeRecordValues P.ucd rt raw = .ok values) :
    RoundTrips P.ucd rt values ttl ↔ ttl ≠ 0 ∧ ∀ value ∈ values, KeepsForm P.ucd rt value := by
  rw [roundTrips_iff_values, exists_recordSet_iff ttl hmutable h]

end

theorem roundTrips_iff_text :
    RoundTrips Platform.plain.ucd .txt [lit "one", lit "one"] 300 ↔
      (300 : Int) ≠ 0 ∧ ∀ value ∈ [lit "one", lit "one"], KeepsForm Platform.plain.ucd .txt value := by
  have hnormal : normalizeRecordValues Platform.plain.ucd .txt [lit "one ", lit "one"] =
      .ok [lit "one", lit "one"] := by decide
  exact roundTrips_iff rfl hnormal

/-- The TTL zero is admitted and read back as 300, and a host name before a line
feed loses it. -/
theorem not_roundTrips_zero :
    validateTtl (some 0) true = .ok 0 ∧
      normalizeRecordValues .ascii .txt [lit "one"] = .ok [lit "one"] ∧
      ¬RoundTrips .ascii .txt [lit "one"] 0 ∧
      normalizeRecordValues .ascii .ns [lit "a\n."] = .ok [lit "a\n"] ∧
      ¬RoundTrips .ascii .ns [lit "a\n"] 300 := by
  refine ⟨by decide, by decide, fun h => ?_, by decide, fun h => ?_⟩
  · exact (roundTrips_iff_values.mp h).1 rfl
  · obtain ⟨rs, hrs, hvalues⟩ := (roundTrips_iff_values.mp h).2
    rw [← Except.ok.inj hrs] at hvalues
    exact absurd hvalues (by decide)

end ApiToDns.Azure
