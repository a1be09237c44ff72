import ApiToDns.CloudflarePlan
import ApiToDns.Plugins.Azure
import ApiToDns.Serve

/-!
# TtlPatch

PATCH of a TTL alone at Azure and Cloudflare: the values are read, normalised
and written back, and what the records said is compared with what they say
then.

Addresses and targets survive.  The text of a TXT record survives where the
value that is read for it is settled: one character string without white
space at its ends and, at Cloudflare, without quotation marks of its own
around it (`ttlPatch_keeps_iff`).
-/

namespace ApiToDns

open Py Code

/-! ## record data -/

/-- What a record of a public type says. -/
inductive Rdata where
  /-- A and AAAA -/
  | address (a : Option IpAddress)
  | target (host : Str)
  /-- TXT, by its character strings -/
  | strings (parts : List Str)
  /-- TXT, by its content in quotation marks -/
  | content (text : Str)
deriving DecidableEq, Repr

/-- Two record sets say the same. -/
def SameRdata (before after : List Rdata) : Prop := ∀ r, r ∈ before ↔ r ∈ after

/-- The text of an address that a record holds. -/
def IsAddressText (text : Str) : Prop :=
  strip text = text ∧ ∀ a, IpAddress.parse text = some a → a.scope = none

/-- The text of a target that a record holds. -/
def IsTargetText (text : Str) : Prop := ∀ c ∈ text, isSpace c = false

section Values

variable {U : Ucd}

/-- A normalised address is the address. -/
theorem parse_normalizeAddress {version : Nat} {article raw value out : Str} (hraw : IsAddressText raw)
    (h : normalizeAddress U version article raw value = .ok out) :
    IpAddress.parse out = IpAddress.parse raw := by
  unfold normalizeAddress at h
  split at h
  · contradiction
  · next a ha =>
      split at h
      · contradiction
      · rw [← Except.ok.inj h, ha]
        exact IpAddress.parse_format (IpAddress.inRange_parse ha) (hraw.2 a ha)

/-- A normalised target is the target. -/
theorem normalizeHostname_target {text out : Str} (htext : IsTargetText text)
    (h : normalizeHostname U text = .ok out) : out = rstripDots text := by
  unfold normalizeHostname at h
  dsimp only at h
  split at h
  · contradiction
  · rw [← Except.ok.inj h, strip_of_no_space htext]

/-- What a value of a public type is normalised to. -/
theorem normalizeRecordValue_ok {rt : RecordType} {value out : Str}
    (h : normalizeRecordValue U rt value = .ok out) :
    (rt = .a ∨ rt = .aaaa → IsAddressText value → IpAddress.parse out = IpAddress.parse value) ∧
      (rt = .cname → IsTargetText value → out = rstripDots value) ∧ (rt = .txt → out = strip value) := by
  unfold normalizeRecordValue at h
  dsimp only at h
  split at h
  · contradiction
  · refine ⟨?_, ?_, ?_⟩
    · rintro (rfl | rfl) hvalue
      all_goals rw [hvalue.1] at h; exact parse_normalizeAddress hvalue h
    · rintro rfl hvalue
      rw [strip_of_no_space hvalue] at h
      exact normalizeHostname_target hvalue h
    · rintro rfl
      exact (Except.ok.inj h).symm

end Values

/-! ## a PATCH that succeeds -/

section Patch

variable {σ : Type} {H : Handler providerSig σ} {ch : Change} {zoneName zone : Str} {server : Json}
  {ttl : Int} {s : σ}

/-- A failure is not answered with 200. -/
theorem status_failure_ne (ch : Change) (exc : Exc) : (ch.failure exc).httpStatus ≠ 200 := by
  have hstatus : (httpExceptionFromDnsError exc).status ≠ 200 := by
    have hmem := status_httpExceptionFromDnsError exc
    intro h
    rw [h] at hmem
    contradiction
  unfold Change.failure
  split
  · show (502 : Nat) ≠ 200
    decide
  · exact hstatus

/-- Only records of the public types are patched. -/
theorem isPublic_of_read_patch {U : Ucd} {body : RecordBody}
    (h : RecordRequest.read U (.patch body) = .ok ch) : ch.type.isPublic = true := by
  unfold RecordRequest.read at h
  split at h
  case h_3 =>
    split at h
    case h_4 ht _ _ =>
      obtain ⟨name, -, h⟩ := bind_eq_ok h
      obtain ⟨ttl, -, h⟩ := bind_eq_ok h
      obtain ⟨values, -, h⟩ := bind_eq_ok h
      rw [← Except.ok.inj h]
      exact (Option.filter_eq_some_iff.mp ht).2
    all_goals contradiction
  all_goals contradiction

/-- A PATCH of a TTL that succeeds reads values and writes them. -/
theorem run_patch_ok (hverb : ch.verb = .patch (some ttl) none)
    (hok : ((ch.program zoneName zone server).run H s).1.httpStatus = 200) :
    ∃ existing rest s₁ v vs existed,
      H (.getRecord ch.name (some ch.type.text) server zone) s = (.ok (existing :: rest), s₁) ∧
      existing.values = some (v :: vs) ∧
      H (.createOrUpdateRecord (ch.payload zoneName ttl (v :: vs)) server zone) s₁ =
        (.ok existed, ((ch.program zoneName zone server).run H s).2) := by
  unfold Change.program at hok ⊢
  rw [Prog.run_call] at hok ⊢
  generalize hlooked : H (.getRecord ch.name (some ch.type.text) server zone) s = looked at hok ⊢
  obtain ⟨records, s₁⟩ := looked
  dsimp only at hok ⊢
  cases records with
  | error exc => exact absurd hok (status_failure_ne ch exc)
  | ok records =>
      cases records with
      | nil =>
          simp only [Change.afterLookup, Change.onRecords, hverb] at hok
          exact absurd (show (404 : Nat) = 200 from hok) (by decide)
      | cons existing rest =>
          simp only [Change.afterLookup, Change.onRecords, hverb] at hok ⊢
          obtain ⟨ttl', v, vs, -, hvalues, hm⟩ | ⟨-, hm⟩ := mergePatch_cases existing (some ttl) none
          · simp only [hm, Option.getD_some, Option.getD_none, Change.writeThen, Prog.run_call] at hok ⊢
            generalize hwritten : H (.createOrUpdateRecord (ch.payload zoneName ttl (v :: vs)) server
              zone) s₁ = written at hok ⊢
            obtain ⟨reply, s₂⟩ := written
            cases reply with
            | error exc => exact absurd hok (status_failure_ne ch exc)
            | ok existed => exact ⟨existing, rest, s₁, v, vs, existed, rfl, hvalues, hwritten⟩
          · simp only [hm] at hok
            exact absurd hok (status_failure_ne ch _)

end Patch

/-- A provider as a client meets it: what it holds of an RRset, by the zone of
the client, the record name and the type. -/
structure LiveProvider where
  sig : Sig
  State : Type
  client : (o : ProviderOp) → Prog sig (ProviderOp.Reply o)
  handler : Handler sig State
  rdatas (zone name : Str) (rt : RecordType) (s : State) : List Rdata
  /-- the texts of the RRset are as the provider holds texts -/
  Held (zone name : Str) (rt : RecordType) (s : State) : Prop
  /-- the values that are read of the RRset are not changed by normalising -/
  Settled (zone name : Str) (rt : RecordType) (s : State) : Prop

namespace LiveProvider

variable (U : Ucd) (L : LiveProvider)

/-- Serve a PATCH with the client of the provider. -/
def servePatch (settings : Dict) (zoneName : Str) (body : RecordBody) (s : L.State) :
    Reply × L.State :=
  (((RecordRequest.patch body).serve U settings zoneName).translate L.client).run L.handler s

/-- A PATCH of a TTL alone that succeeds leaves the record data of an RRset if
and only if the RRset is settled. -/
def KeepsIffSettled : Prop :=
  ∀ (settings : Dict) (zoneName zone : Str) (body : RecordBody) (name : Str) (rt : RecordType)
    (ttl : Int) (s : L.State),
    providerDnsZone U settings = .ok zone →
    RecordRequest.read U (.patch body) = .ok ⟨name, rt, .patch (some ttl) none⟩ →
    L.Held zone name rt s →
    (L.servePatch U settings zoneName body s).1.httpStatus = 200 →
    (SameRdata (L.rdatas zone name rt s)
        (L.rdatas zone name rt (L.servePatch U settings zoneName body s).2) ↔
      L.Settled zone name rt s)

variable {U L}

/-- What a PATCH that succeeds has the client do. -/
theorem servePatch_ok {settings : Dict} {zoneName zone : Str} {body : RecordBody} {name : Str}
    {rt : RecordType} {ttl : Int} {s : L.State} (hz : providerDnsZone U settings = .ok zone)
    (hread : RecordRequest.read U (.patch body) = .ok ⟨name, rt, .patch (some ttl) none⟩)
    (hok : (L.servePatch U settings zoneName body s).1.httpStatus = 200) :
    ∃ existing rest s₁ v vs existed s₂,
      (L.client (.getRecord name (some rt.text) (dnsServer settings) zone)).run L.handler s =
        (.ok (existing :: rest), s₁) ∧
      existing.values = some (v :: vs) ∧
      (L.client (.createOrUpdateRecord ⟨some zoneName, rt.text, name, some ttl, v :: vs⟩
        (dnsServer settings) zone)).run L.handler s₁ = (.ok existed, s₂) ∧
      (L.servePatch U settings zoneName body s).2 = s₂ := by
  unfold servePatch at hok ⊢
  rw [serve_eq_program zoneName hz hread, Prog.run_translate] at hok ⊢
  obtain ⟨existing, rest, s₁, v, vs, existed, hlooked, hvalues, hwritten⟩ := run_patch_ok rfl hok
  exact ⟨existing, rest, s₁, v, vs, existed, _, hlooked, hvalues, hwritten, rfl⟩

end LiveProvider

/-! ## Azure -/

namespace Azure

/-- A service that keeps record sets: what it does when a call succeeds. -/
structure Keeps {σ : Type} (h : Handler sdkSig σ)
    (sets : σ → Str → Str → RecordType → Option RecordSet) : Prop where
  get : ∀ {s s' zone name rt rs}, h (.get zone name rt) s = (.ok rs, s') →
    rs = sets s zone name rt ∧ sets s' = sets s
  createOrUpdate : ∀ {s s' zone name rt rs}, h (.createOrUpdate zone name rt rs) s = (.ok (), s') →
    sets s' = fun z n t => if z = zone ∧ n = name ∧ t = rt then some rs else sets s z n t

/-- What the records of a record set say. -/
def RecordSet.rdatas (rs : RecordSet) : RecordType → List Rdata
  | .a => rs.aRecords.map fun text => .address (IpAddress.parse text)
  | .aaaa => rs.aaaaRecords.map fun text => .address (IpAddress.parse text)
  | .cname => rs.cnameRecord.toList.map fun host => .target (rstripDots host)
  | .txt => rs.txtRecords.map .strings
  | _ => []

/-- The texts of a record set are addresses and targets as Azure holds them. -/
def RecordSet.Held (rs : RecordSet) : RecordType → Prop
  | .a => ∀ text ∈ rs.aRecords, IsAddressText text
  | .aaaa => ∀ text ∈ rs.aaaaRecords, IsAddressText text
  | .cname => ∀ host ∈ rs.cnameRecord, IsTargetText host
  | _ => True

/-- Every TXT record is one character string, without white space at its ends. -/
def RecordSet.Settled (rs : RecordSet) (rt : RecordType) : Prop :=
  rt = .txt → ∀ strings ∈ rs.txtRecords, ∃ text, strings = [text] ∧ strip text = text

section

variable {U : Ucd} {σ : Type} {h : Handler sdkSig σ}
  {sets : σ → Str → Str → RecordType → Option RecordSet} {s s' : σ} {zone name : Str} {rt : RecordType}

/-- Reading a record set changes nothing. -/
theorem run_getExistingRecordSet (hk : Keeps h sets) {rs : Option RecordSet}
    (hr : (getExistingRecordSet zone name rt).run h s = (.ok rs, s')) :
    rs = sets s zone name rt ∧ sets s' = sets s :=
  hk.get hr

/-- A lookup that finds records reads the record set. -/
theorem run_getRecord_ok (hk : Keeps h sets) {recordName : Str} {server : Json}
    {existing : DnsRecordInfo} {rest : List DnsRecordInfo}
    (hr : (getRecord U recordName (some rt.text) server zone).run h s = (.ok (existing :: rest), s')) :
    ∃ rs values, sets s zone (dnsRelativeName U zone recordName) rt = some rs ∧ sets s' = sets s ∧
      valuesOf U rs rt = .ok values ∧ existing.values = some values := by
  obtain ⟨_, -, hr⟩ := run_lift_bind_eq_ok hr
  obtain ⟨rts, hrts, hr⟩ := run_lift_bind_eq_ok hr
  rw [lookupRecordTypesToQuery_text] at hrts
  rw [← Except.ok.inj hrts] at hr
  obtain ⟨found, s₁, hr₁, hr⟩ := run_bind_eq_ok hr
  obtain ⟨info, hinfo, hr⟩ := run_lift_bind_eq_ok hr
  obtain ⟨hinfos, rfl⟩ := run_pure_eq_ok.mp (show run h (pure (info.toList ++ [])) s₁ = _ from hr)
  obtain ⟨hfound, hsets⟩ := run_getExistingRecordSet hk hr₁
  cases found with
  | none =>
      rw [← Except.ok.inj (show Except.ok none = Except.ok info from hinfo)] at hinfos
      contradiction
  | some rs =>
      obtain ⟨i, hi, rfl⟩ := map_eq_ok_iff.mp hinfo
      obtain ⟨values, hvalues, hi⟩ := bind_eq_ok hi
      obtain ⟨rfl, -⟩ := List.cons.inj (show [i] = existing :: rest by simpa using hinfos)
      refine ⟨rs, values, hfound.symm, hsets, hvalues, ?_⟩
      rw [← Except.ok.inj hi]

/-- A write that succeeds leaves the record set that is built of the values. -/
theorem run_createOrUpdateRecord_ok (hk : Keeps h sets) {payload : DnsRecordRequest} {server : Json}
    {existed : Bool} (htype : payload.recordType = rt.text) (hrt : rt.isMutable = true)
    (hr : (createOrUpdateRecord U payload server zone).run h s = (.ok existed, s')) :
    ∃ values rs, normalizeRecordValues U rt payload.values = .ok values ∧
      buildRecordSet U rt values (ttlOrDefault payload.ttl) = .ok rs ∧
      sets s' zone (dnsRelativeName U zone payload.recordName) rt = some rs := by
  have hsupported : supportedType rt.text = .ok rt := by
    simp [supportedType, Option.filter_some, hrt]
  obtain ⟨_, -, hr⟩ := run_lift_bind_eq_ok hr
  dsimp only at hr
  rw [htype, upper_text, if_neg rt.text_ne_delete] at hr
  obtain ⟨rt', hrt', hr⟩ := run_lift_bind_eq_ok hr
  obtain rfl := Except.ok.inj (hsupported.symm.trans hrt')
  obtain ⟨found, s₁, -, hr⟩ := run_bind_eq_ok hr
  obtain ⟨values, hvalues, hr⟩ := run_lift_bind_eq_ok hr
  obtain ⟨rs, hrs, hr⟩ := run_lift_bind_eq_ok hr
  obtain ⟨_, s₂, hwrite, hr⟩ := run_bind_eq_ok hr
  obtain ⟨-, rfl⟩ := run_pure_eq_ok.mp hr
  refine ⟨values, rs, hvalues, hrs, ?_⟩
  rw [hk.createOrUpdate hwrite]
  simp

end

/-- What is read of a held record set and written back says the same if it is settled. -/
theorem sameRdata_iff {U : Ucd} {rs rs' : RecordSet} {rt : RecordType} {values values' : List Str}
    {ttl : Int} (hrt : rt.isPublic = true) (hheld : rs.Held rt) (hread : valuesOf U rs rt = .ok values)
    (hnormal : normalizeRecordValues U rt values = .ok values')
    (hbuild : buildRecordSet U rt values' ttl = .ok rs') :
    SameRdata (rs.rdatas rt) (rs'.rdatas rt) ↔ rs.Settled rt := by
  have hsame {before after : List Rdata} (hne : rt ≠ .txt) (heq : after = before) :
      SameRdata before after ↔ rs.Settled rt :=
    iff_of_true (fun r => by rw [heq]) fun h => absurd h hne
  cases rt with
  | a =>
      rw [← Except.ok.inj hread] at hnormal
      rw [← Except.ok.inj hbuild]
      refine hsame (by decide) (map_eq_of_mapM_eq_ok (normalizeRecordValues_ok hnormal).1 fun v hv o ho => ?_)
      exact congrArg _ ((normalizeRecordValue_ok ho).1 (.inl rfl) (hheld v hv))
  | aaaa =>
      rw [← Except.ok.inj hread] at hnormal
      rw [← Except.ok.inj hbuild]
      refine hsame (by decide) (map_eq_of_mapM_eq_ok (normalizeRecordValues_ok hnormal).1 fun v hv o ho => ?_)
      exact congrArg _ ((normalizeRecordValue_ok ho).1 (.inr rfl) (hheld v hv))
  | cname =>
      refine hsame (by decide) ?_
      unfold valuesOf at hread
      dsimp only at hread
      split at hread
      · next c cs hhost =>
          rw [← Except.ok.inj hread] at hnormal
          have hall := mapM_eq_ok_iff.mp (normalizeRecordValues_ok hnormal).1
          cases hall with
          | @cons _ out _ _ hout htail =>
              cases htail
              have htarget : IsTargetText (rstripDots (c :: cs)) := fun x hx =>
                hheld (c :: cs) hhost x ((List.rdropWhile_prefix _ _).subset hx)
              rw [← Except.ok.inj hbuild]
              simp [RecordSet.rdatas, hhost, (normalizeRecordValue_ok hout).2.1 rfl htarget]
      · rw [← Except.ok.inj hread] at hnormal
        exact absurd rfl (length_normalizeRecordValues U hnormal).2
  | txt =>
      rw [← Except.ok.inj hread] at hnormal
      rw [← Except.ok.inj hbuild]
      have hout : values' = rs.txtRecords.flatten.map strip := by
        have hmap := map_eq_of_mapM_eq_ok (g := strip) (normalizeRecordValues_ok hnormal).1
          fun v _ o ho => (normalizeRecordValue_ok ho).2.2 rfl
        rwa [List.map_id'] at hmap
      rw [hout]
      simp only [RecordSet.rdatas, RecordSet.Settled, forall_const, List.map_map]
      constructor
      · intro hsame strings hstrings
        have hafter := (hsame (.strings strings)).mp (List.mem_map_of_mem hstrings)
        obtain ⟨text, -, heq⟩ := List.mem_map.mp hafter
        exact ⟨strip text, (Rdata.strings.inj heq).symm, strip_strip text⟩
      · intro hsettled r
        rw [List.mem_map, List.mem_map]
        constructor
        · rintro ⟨strings, hstrings, rfl⟩
          obtain ⟨text, rfl, htext⟩ := hsettled strings hstrings
          refine ⟨text, List.mem_flatten.mpr ⟨_, hstrings, List.mem_cons_self⟩, ?_⟩
          simp [htext]
        · rintro ⟨text, hmem, rfl⟩
          obtain ⟨strings, hstrings, htext⟩ := List.mem_flatten.mp hmem
          obtain ⟨text', rfl, hstrip⟩ := hsettled strings hstrings
          obtain rfl := List.mem_singleton.mp htext
          exact ⟨[text], hstrings, by simp [hstrip]⟩
  | mx | ns | srv | caa | ptr | soa => contradiction

/-- Azure DNS, for its client. -/
def live (U : Ucd) {σ : Type} (h : Handler sdkSig σ)
    (sets : σ → Str → Str → RecordType → Option RecordSet) : LiveProvider where
  sig := sdkSig
  State := σ
  client := client U
  handler := h
  rdatas zone name rt s :=
    ((sets s zone (dnsRelativeName U zone name) rt).map fun rs => rs.rdatas rt).getD []
  Held zone name rt s := ∀ rs ∈ sets s zone (dnsRelativeName U zone name) rt, rs.Held rt
  Settled zone name rt s := ∀ rs ∈ sets s zone (dnsRelativeName U zone name) rt, rs.Settled rt

/-- Azure keeps the rest exactly of settled record sets. -/
theorem keepsIffSettled {U : Ucd} {σ : Type} {h : Handler sdkSig σ}
    {sets : σ → Str → Str → RecordType → Option RecordSet} (hk : Keeps h sets) :
    (live U h sets).KeepsIffSettled U := by
  intro settings zoneName zone body name rt ttl s hz hread hheld hok
  have hrt : rt.isPublic = true := isPublic_of_read_patch hread
  obtain ⟨existing, rest, s₁, v, vs, existed, s₂, hlooked, hvalues, hwritten, hend⟩ :=
    LiveProvider.servePatch_ok hz hread hok
  obtain ⟨rs, values, hrs, -, hvalues', heq⟩ := run_getRecord_ok hk hlooked
  obtain rfl := Option.some.inj (hvalues.symm.trans heq)
  obtain ⟨values', rs', hnormal, hbuild, hrs'⟩ :=
    run_createOrUpdateRecord_ok hk rfl (RecordType.isMutable_of_isPublic hrt) hwritten
  have hiff := sameRdata_iff hrt (hheld rs hrs) hvalues' hnormal hbuild
  rw [hend]
  simpa only [live, hrs, hrs', Option.map_some, Option.getD_some, Option.mem_some_iff,
    forall_eq'] using hiff

end Azure

/-! ## Cloudflare -/

namespace Cloudflare

/-- The content of a TXT record, in the quotation marks it is kept in. -/
def quotedContent (content : Str) : Str :=
  let v := strip content
  if isQuoted v then v else '"' :: v ++ ['"']

/-- What the content of a record says. -/
def contentRdata (content : Str) : RecordType → Option Rdata
  | .a | .aaaa => some (.address (IpAddress.parse content))
  | .cname => some (.target (rstripDots content))
  | .txt => some (.content (quotedContent content))
  | _ => none

/-- What a row says. -/
def rowRdata (rt : RecordType) (row : Dict) : Option Rdata :=
  (textField row (lit "content")).bind fun content => contentRdata content rt

/-- What the rows of an RRset say. -/
def rdatas (fqdn : Str) (rt : RecordType) (rows : List Dict) : List Rdata :=
  (rows.filter (inRRset fqdn rt)).filterMap (rowRdata rt)

/-- The content of a row is a text as Cloudflare holds it. -/
def RowHeld (rt : RecordType) (row : Dict) : Prop :=
  ∃ content, textField row (lit "content") = some content ∧
    (rt = .a ∨ rt = .aaaa → IsAddressText content) ∧ (rt = .cname → IsTargetText content)

/-- The value that is read of a TXT record has neither white space at its ends
nor quotation marks around it. -/
def RowSettled (row : Dict) : Prop :=
  ∀ content ∈ textField row (lit "content"),
    strip (normalizeTxtValue content) = normalizeTxtValue content ∧
      isQuoted (normalizeTxtValue content) = false

/-! ### the text of TXT records -/

/-- A text is quoted once. -/
theorem quotedContent_eq (content : Str) :
    quotedContent content = '"' :: normalizeTxtValue content ++ ['"'] := by
  unfold quotedContent normalizeTxtValue
  dsimp only
  split
  · next h => exact eq_of_isQuoted h
  · rfl

/-- The content that is written for a value that was read. -/
theorem quotedContent_cloudflareTxtContent (value : Str) :
    quotedContent (cloudflareTxtContent value) = '"' :: normalizeTxtValue value ++ ['"'] := by
  rw [quotedContent_eq, cloudflareTxtContent]
  exact congrArg (fun v => '"' :: v ++ ['"']) (normalizeTxtValue_quoted _)

/-! ### rows -/

section

variable {P : Platform} {cfg : Config} {σ : Type} {h : Handler httpSig σ} {zoneId : Str}
  {rows : σ → List Dict} {s s' : σ} {rt : RecordType}

/-- The content that is written for a value. -/
def writtenContent (rt : RecordType) (value : Str) : Str :=
  if rt = .txt then cloudflareTxtContent value else value

/-- What a written row says. -/
theorem rowRdata_of_written {t : Target} {value : Str} {row : Dict} (hrt : t.rt.isPublic = true)
    (hw : Written P cfg t value row) : rowRdata t.rt row = contentRdata (writtenContent t.rt value) t.rt := by
  obtain ⟨id, body, hbody, rfl⟩ := hw
  obtain ⟨data, hdata, hbody⟩ := bind_eq_ok hbody
  have hcontent : textField (rowOf id body) (lit "content") = some (writtenContent t.rt value) := by
    rw [← Except.ok.inj hbody]
    cases hr : t.rt with
    | a | aaaa | cname | txt =>
        rw [hr] at hdata
        rw [← Except.ok.inj hdata]
        simp [textField, rowOf, Dict.get, lit, writtenContent]
    | mx | ns | srv | caa | ptr | soa =>
        rw [hr] at hrt
        contradiction
  rw [rowRdata, hcontent, Option.bind_some]

/-- A field of text is its text. -/
theorem textOr_of_textField {row : Dict} {content : Str}
    (hcontent : textField row (lit "content") = some content) :
    textOr P (Dict.get row (lit "content")) = content := by
  rw [textOr, textField_eq_some_iff.mp hcontent]
  cases content with
  | nil => rfl
  | cons c cs => exact Json.pyStr_str _ _

/-- What a held row says, and what is written for the value that is read of it. -/
theorem rowRdata_eq {row : Dict} {value out : Str} (hrt : rt.isPublic = true) (hheld : RowHeld rt row)
    (hread : canonicalFromRow P rt row = .ok value)
    (hnormal : normalizeRecordValue P.ucd rt value = .ok out) :
    (rt ≠ .txt → rowRdata rt row = contentRdata (writtenContent rt out) rt) ∧
      (rt = .txt → rowRdata rt row = some (.content ('"' :: value ++ ['"'])) ∧
        contentRdata (writtenContent rt out) rt =
          some (.content ('"' :: normalizeTxtValue value ++ ['"']))) := by
  obtain ⟨content, hcontent, haddress, htarget⟩ := hheld
  have htext := textOr_of_textField (P := P) hcontent
  have hnormal := normalizeRecordValue_ok hnormal
  unfold canonicalFromRow at hread
  dsimp only at hread
  rw [htext] at hread
  rw [rowRdata, hcontent, Option.bind_some]
  cases rt with
  | a =>
      obtain rfl := Except.ok.inj hread
      refine ⟨fun _ => ?_, by simp⟩
      simp [contentRdata, writtenContent, hnormal.1 (.inl rfl) (haddress (.inl rfl))]
  | aaaa =>
      obtain rfl := Except.ok.inj hread
      refine ⟨fun _ => ?_, by simp⟩
      simp [contentRdata, writtenContent, hnormal.1 (.inr rfl) (haddress (.inr rfl))]
  | cname =>
      have hvalue := normalizeHostname_target (htarget rfl) hread
      have htarget' : IsTargetText value := fun x hx =>
        htarget rfl x ((List.rdropWhile_prefix _ _).subset (hvalue ▸ hx))
      refine ⟨fun _ => ?_, by simp⟩
      simp [contentRdata, writtenContent, hnormal.2.1 rfl htarget', hvalue]
  | txt =>
      obtain rfl := Except.ok.inj hread
      refine ⟨by simp, fun _ => ⟨?_, ?_⟩⟩
      · rw [contentRdata, quotedContent_eq]
      · rw [hnormal.2.2 rfl, contentRdata, writtenContent, if_pos rfl,
          quotedContent_cloudflareTxtContent, normalizeTxtValue_strip]
  | mx | ns | srv | caa | ptr | soa => contradiction

/-- Held rows, the values that are read of them, and the values they are
normalised to. -/
structure ReadBack (P : Platform) (rt : RecordType) (listed : List Dict) (values desired : List Str) :
    Prop where
  held : ∀ row ∈ listed, RowHeld rt row
  read : listed.mapM (canonicalFromRow P rt) = .ok values
  normal : values.mapM (normalizeRecordValue P.ucd rt) = .ok desired

section ReadBack

variable {t : Target} {listed after : List Dict} {values desired : List Str}

/-- What the rows say after a sync. -/
theorem mem_rdatas_synced (hrt : t.rt.isPublic = true) (hsynced : Synced P cfg t desired after)
    (r : Rdata) : r ∈ rdatas t.fqdn t.rt after ↔
      ∃ value ∈ desired, contentRdata (writtenContent t.rt value) t.rt = some r := by
  rw [rdatas, List.mem_filterMap]
  constructor
  · rintro ⟨row, hrow, hr⟩
    rw [List.mem_filter] at hrow
    obtain ⟨value, hvalue, hw⟩ := hsynced.1 row hrow.1 hrow.2
    exact ⟨value, hvalue, by rw [← rowRdata_of_written hrt hw, hr]⟩
  · rintro ⟨value, hvalue, hr⟩
    obtain ⟨row, hrow, hw⟩ := hsynced.2 value hvalue
    exact ⟨row, List.mem_filter.mpr ⟨hrow, hw.inRRset⟩, by rw [rowRdata_of_written hrt hw, hr]⟩

/-- Addresses and targets are written back as they were. -/
theorem ReadBack.mem_iff (hb : ReadBack P rt listed values desired) (hrt : rt.isPublic = true)
    (htxt : rt ≠ .txt) (r : Rdata) : (∃ row ∈ listed, rowRdata rt row = some r) ↔
      ∃ value ∈ desired, contentRdata (writtenContent rt value) rt = some r := by
  constructor
  · rintro ⟨row, hrow, hr⟩
    obtain ⟨value, hvalue, hv⟩ := exists_of_mapM_eq_ok hb.read hrow
    obtain ⟨out, hout, ho⟩ := exists_of_mapM_eq_ok hb.normal hvalue
    exact ⟨out, hout, by rw [← (rowRdata_eq hrt (hb.held row hrow) hv ho).1 htxt, hr]⟩
  · rintro ⟨out, hout, hr⟩
    obtain ⟨value, hvalue, ho⟩ := mem_of_mapM_eq_ok hb.normal hout
    obtain ⟨row, hrow, hv⟩ := mem_of_mapM_eq_ok hb.read hvalue
    exact ⟨row, hrow, by rw [(rowRdata_eq hrt (hb.held row hrow) hv ho).1 htxt, hr]⟩

/-- A TXT row says the value that is read of it. -/
theorem ReadBack.mem_txt_iff (hb : ReadBack P .txt listed values desired) (r : Rdata) :
    (∃ row ∈ listed, rowRdata .txt row = some r) ↔
      ∃ value ∈ values, .content ('"' :: value ++ ['"']) = r := by
  constructor
  · rintro ⟨row, hrow, hr⟩
    obtain ⟨value, hvalue, hv⟩ := exists_of_mapM_eq_ok hb.read hrow
    obtain ⟨out, -, ho⟩ := exists_of_mapM_eq_ok hb.normal hvalue
    have hread := ((rowRdata_eq rfl (hb.held row hrow) hv ho).2 rfl).1
    exact ⟨value, hvalue, Option.some.inj (hread.symm.trans hr)⟩
  · rintro ⟨value, hvalue, rfl⟩
    obtain ⟨row, hrow, hv⟩ := mem_of_mapM_eq_ok hb.read hvalue
    obtain ⟨out, -, ho⟩ := exists_of_mapM_eq_ok hb.normal hvalue
    exact ⟨row, hrow, ((rowRdata_eq rfl (hb.held row hrow) hv ho).2 rfl).1⟩

/-- What is written for a TXT row is the value read once more. -/
theorem ReadBack.mem_written_iff (hb : ReadBack P .txt listed values desired) (r : Rdata) :
    (∃ value ∈ desired, contentRdata (writtenContent .txt value) .txt = some r) ↔
      ∃ value ∈ values, .content ('"' :: normalizeTxtValue value ++ ['"']) = r := by
  constructor
  · rintro ⟨out, hout, hr⟩
    obtain ⟨value, hvalue, ho⟩ := mem_of_mapM_eq_ok hb.normal hout
    obtain ⟨row, hrow, hv⟩ := mem_of_mapM_eq_ok hb.read hvalue
    have hread := ((rowRdata_eq rfl (hb.held row hrow) hv ho).2 rfl).2
    exact ⟨value, hvalue, Option.some.inj (hread.symm.trans hr)⟩
  · rintro ⟨value, hvalue, rfl⟩
    obtain ⟨row, hrow, hv⟩ := mem_of_mapM_eq_ok hb.read hvalue
    obtain ⟨out, hout, ho⟩ := exists_of_mapM_eq_ok hb.normal hvalue
    exact ⟨out, hout, ((rowRdata_eq rfl (hb.held row hrow) hv ho).2 rfl).2⟩

/-- The values that are read of TXT rows are left alone if the rows are settled. -/
theorem ReadBack.settled_iff (hb : ReadBack P .txt listed values desired) :
    (∀ row ∈ listed, RowSettled row) ↔ ∀ value ∈ values, normalizeTxtValue value = value := by
  constructor
  · intro hsettled value hvalue
    obtain ⟨row, hrow, hv⟩ := mem_of_mapM_eq_ok hb.read hvalue
    obtain ⟨content, hcontent, -⟩ := hb.held row hrow
    rw [← Except.ok.inj hv, textOr_of_textField hcontent]
    exact normalizeTxtValue_eq_self_iff.mpr (hsettled row hrow content hcontent)
  · intro hfixed row hrow content hcontent
    obtain ⟨value, hvalue, hv⟩ := exists_of_mapM_eq_ok hb.read hrow
    have heq : normalizeTxtValue content = value := by
      rw [← Except.ok.inj hv, textOr_of_textField hcontent]
    rw [heq]
    exact normalizeTxtValue_eq_self_iff.mp (hfixed value hvalue)

/-- Rows that are read and written back say the same if they are settled. -/
theorem sameRdata_iff {before : List Dict} (hrt : t.rt.isPublic = true)
    (hb : ReadBack P t.rt (before.filter (inRRset t.fqdn t.rt)) values desired)
    (hsynced : Synced P cfg t desired after) :
    SameRdata (rdatas t.fqdn t.rt before) (rdatas t.fqdn t.rt after) ↔
      (t.rt = .txt → ∀ row ∈ before.filter (inRRset t.fqdn t.rt), RowSettled row) := by
  have hafter := mem_rdatas_synced hrt hsynced
  have hbefore : ∀ r, r ∈ rdatas t.fqdn t.rt before ↔
      ∃ row ∈ before.filter (inRRset t.fqdn t.rt), rowRdata t.rt row = some r :=
    fun r => List.mem_filterMap
  by_cases htxt : t.rt = .txt
  · rw [imp_iff_right htxt]
    simp only [htxt] at hb hafter hbefore ⊢
    rw [hb.settled_iff]
    constructor
    · intro hsame
      have hshorter : ∀ v ∈ values, ∀ w, Except.ok (normalizeTxtValue v) = (.ok w : Except Exc Str) →
          w = v ∨ w.length < v.length := fun v _ w hw =>
        Except.ok.inj hw ▸ (normalizeTxtValue_cases v).imp And.left id
      have hfixed := fixed_of_image hshorter fun v hv => by
        have hmem := (hsame _).mp ((hbefore _).mpr ((hb.mem_txt_iff _).mpr ⟨v, hv, rfl⟩))
        obtain ⟨w, hw, heq⟩ := (hb.mem_written_iff _).mp ((hafter _).mp hmem)
        have hquoted := (List.cons.inj (Rdata.content.inj heq)).2
        exact ⟨w, hw, congrArg Except.ok (List.append_cancel_right hquoted)⟩
      exact fun v hv => Except.ok.inj (hfixed v hv)
    · intro hfixed r
      rw [hbefore, hb.mem_txt_iff, hafter, hb.mem_written_iff]
      exact exists_congr fun v => and_congr_right fun hv => by rw [hfixed v hv]
  · refine iff_of_true (fun r => ?_) fun h => absurd h htxt
    rw [hafter, hbefore]
    exact hb.mem_iff hrt htxt r

end ReadBack

/-! ### the client -/

/-- A lookup that finds records reads the rows of the RRset. -/
theorem run_getRecord_ok (hk : Keeps P h zoneId rows) (hcfg : ∀ z ∈ cfg.zoneId, z = zoneId)
    {recordName zone : Str} {server : Json} {existing : DnsRecordInfo} {rest : List DnsRecordInfo}
    (hr : (getRecord P cfg recordName (some rt.text) server zone).run h s =
      (.ok (existing :: rest), s')) :
    ∃ values, ((rows s).filter (inRRset (owner P.ucd zone recordName) rt)).mapM
        (canonicalFromRow P rt) = .ok values ∧
      rows s' = rows s ∧ existing.values = some values := by
  obtain ⟨zoneName, hzone, hr⟩ := run_lift_bind_eq_ok hr
  obtain rfl := checkLookup_ok hzone
  obtain ⟨rts, hrts, hr⟩ := run_lift_bind_eq_ok hr
  rw [lookupRecordTypesToQuery_text] at hrts
  rw [← Except.ok.inj hrts] at hr
  obtain ⟨id, s₁, hresolve, hr⟩ := run_bind_eq_ok hr
  obtain ⟨rfl, hrows₁⟩ := run_resolveZoneId_ok hk hcfg hresolve
  obtain ⟨listed, s₂, hlist, hr⟩ := run_bind_eq_ok hr
  obtain ⟨rfl, hrows₂⟩ := run_listRecords_ok hk hlist
  obtain ⟨info, hinfo, hr⟩ := run_lift_bind_eq_ok hr
  obtain ⟨hinfos, rfl⟩ := run_pure_eq_ok.mp (show run h (pure (info ++ [])) s₂ = _ from hr)
  split at hinfo
  · rw [← Except.ok.inj hinfo] at hinfos
    contradiction
  · obtain ⟨i, hi, rfl⟩ := map_eq_ok_iff.mp hinfo
    obtain ⟨ttls, -, hi⟩ := bind_eq_ok hi
    obtain ⟨values, hvalues, hi⟩ := bind_eq_ok hi
    obtain ⟨rfl, -⟩ := List.cons.inj (show [i] = existing :: rest by simpa using hinfos)
    rw [hrows₁] at hvalues
    exact ⟨values, hvalues, hrows₂.trans hrows₁, by rw [← Except.ok.inj hi]⟩

/-- A write that succeeds leaves the rows of the values. -/
theorem run_createOrUpdateRecord_ok (hk : Keeps P h zoneId rows) (hcfg : ∀ z ∈ cfg.zoneId, z = zoneId)
    (hids : Identified (rows s)) {payload : DnsRecordRequest} {server : Json} {zone : Str}
    {existed : Bool} (htype : payload.recordType = rt.text) (hrt : rt.isMutable = true)
    (hr : (createOrUpdateRecord P cfg payload server zone).run h s = (.ok existed, s')) :
    ∃ desired, normalizeRecordValues P.ucd rt payload.values = .ok desired ∧
      Synced P cfg ⟨zoneId, owner P.ucd zone payload.recordName, rt, ttlOrDefault payload.ttl⟩
        desired (rows s') := by
  have hsupported : supportedType rt.text = .ok rt := by
    simp [supportedType, Option.filter_some, hrt]
  obtain ⟨zoneName, hzone, hr⟩ := run_lift_bind_eq_ok hr
  obtain rfl := checkTarget_ok hzone
  dsimp only at hr
  obtain ⟨id, s₁, hresolve, hr⟩ := run_bind_eq_ok hr
  obtain ⟨rfl, hrows₁⟩ := run_resolveZoneId_ok hk hcfg hresolve
  rw [htype, upper_text, if_neg rt.text_ne_delete] at hr
  obtain ⟨rt', hrt', hr⟩ := run_lift_bind_eq_ok hr
  obtain rfl := Except.ok.inj (hsupported.symm.trans hrt')
  obtain ⟨listed, s₂, hlist, hr⟩ := run_bind_eq_ok hr
  obtain ⟨rfl, hrows₂⟩ := run_listRecords_ok hk hlist
  obtain ⟨desired, hdesired, hr⟩ := run_lift_bind_eq_ok hr
  obtain ⟨_, s₃, hsync, hr⟩ := run_bind_eq_ok hr
  obtain ⟨-, rfl⟩ := run_pure_eq_ok.mp hr
  rw [← hrows₁] at hids
  rw [← hrows₂] at hids hsync
  exact ⟨desired, hdesired,
    run_syncRecords_ok hk hids (normalizeRecordValues_ok hdesired).2 hsync⟩

end

/-- Cloudflare, for its client. -/
def live (P : Platform) (cfg : Config) {σ : Type} (h : Handler httpSig σ) (rows : σ → List Dict) :
    LiveProvider where
  sig := httpSig
  State := σ
  client := client P cfg
  handler := h
  rdatas zone name rt s := rdatas (owner P.ucd zone name) rt (rows s)
  Held zone name rt s := Identified (rows s) ∧
    ∀ row ∈ (rows s).filter (inRRset (owner P.ucd zone name) rt), RowHeld rt row
  Settled zone name rt s :=
    rt = .txt → ∀ row ∈ (rows s).filter (inRRset (owner P.ucd zone name) rt), RowSettled row

/-- Cloudflare keeps the rest exactly of settled rows. -/
theorem keepsIffSettled {P : Platform} {cfg : Config} {σ : Type} {h : Handler httpSig σ}
    {zoneId : Str} {rows : σ → List Dict} (hk : Keeps P h zoneId rows)
    (hcfg : ∀ z ∈ cfg.zoneId, z = zoneId) : (live P cfg h rows).KeepsIffSettled P.ucd := by
  intro settings zoneName zone body name rt ttl s hz hread hheld hok
  have hrt : rt.isPublic = true := isPublic_of_read_patch hread
  obtain ⟨existing, rest, s₁, v, vs, existed, s₂, hlooked, hvalues, hwritten, hend⟩ :=
    LiveProvider.servePatch_ok hz hread hok
  obtain ⟨values, hvalues', hrows₁, heq⟩ := run_getRecord_ok hk hcfg hlooked
  obtain rfl := Option.some.inj (hvalues.symm.trans heq)
  have hids : Identified (rows s₁) := hrows₁ ▸ hheld.1
  obtain ⟨desired, hnormal, hsynced⟩ := run_createOrUpdateRecord_ok hk hcfg hids rfl
    (RecordType.isMutable_of_isPublic hrt) hwritten
  rw [hend]
  exact sameRdata_iff hrt ⟨hheld.2, hvalues', (normalizeRecordValues_ok hnormal).1⟩ hsynced

end Cloudflare

/-! ## both providers -/

/-- A PATCH of a TTL alone that succeeds leaves the record data of an RRset at
Azure or Cloudflare if and only if the RRset is settled. -/
theorem ttlPatch_keeps_iff (P : Platform) (cfg : Cloudflare.Config) {σ τ : Type}
    {sdk : Handler Azure.sdkSig σ} {sets : σ → Str → Str → RecordType → Option Azure.RecordSet}
    {http : Handler Cloudflare.httpSig τ} {zoneId : Str} {rows : τ → List Dict}
    (hsdk : Azure.Keeps sdk sets) (hhttp : Cloudflare.Keeps P http zoneId rows)
    (hcfg : ∀ z ∈ cfg.zoneId, z = zoneId) :
    (Azure.live P.ucd sdk sets).KeepsIffSettled P.ucd ∧
      (Cloudflare.live P cfg http rows).KeepsIffSettled P.ucd :=
  ⟨Azure.keepsIffSettled hsdk, Cloudflare.keepsIffSettled hhttp hcfg⟩

/-! ### a provider of each kind -/

/-- Record sets by zone, name and type. -/
abbrev Azure.Sets := Str → Str → RecordType → Option Azure.RecordSet

/-- Change one record set. -/
def Azure.Sets.set (sets : Azure.Sets) (zone name : Str) (rt : RecordType)
    (rs : Option Azure.RecordSet) : Azure.Sets :=
  fun z n t => if z = zone ∧ n = name ∧ t = rt then rs else sets z n t

/-- An Azure that never fails. -/
def Azure.keeper : Handler Azure.sdkSig Azure.Sets
  | .get zone name rt, sets => (.ok (sets zone name rt), sets)
  | .createOrUpdate zone name rt rs, sets => (.ok (), sets.set zone name rt (some rs))
  | .delete zone name rt, sets => (.ok (sets zone name rt).isSome, sets.set zone name rt none)

/-- The keeper keeps its record sets. -/
theorem Azure.keeper_keeps : Azure.Keeps Azure.keeper id where
  get := by
    intro s s' zone name rt rs h
    obtain ⟨hrs, rfl⟩ := Prod.ext_iff.mp h
    exact ⟨(Except.ok.inj hrs).symm, rfl⟩
  createOrUpdate := by
    intro s s' zone name rt rs h
    obtain ⟨-, rfl⟩ := Prod.ext_iff.mp h
    rfl

/-- The zone `example.com` with one TXT record. -/
def Azure.textZone (strings : List Str) : Azure.Sets :=
  Azure.Sets.set (fun _ _ _ => none) (lit "example.com") (lit "www") .txt
    (some { ttl := some 300, txtRecords := [strings] })

/-- PATCH of the TTL of the TXT record. -/
def ttlBody : RecordBody :=
  ⟨.absent, .given (lit "TXT"), .given (lit "www"), .given 600, .absent⟩

/-- The configuration of the zone. -/
def exampleZone : Dict := [(lit "dns_zone", .str (lit "example.com"))]

/-- Azure with the keeper, and a PATCH of the TTL. -/
def Azure.kept : LiveProvider := Azure.live Ucd.ascii Azure.keeper id

/-- The answer to the PATCH and the state it leaves. -/
def LiveProvider.patched (L : LiveProvider) (s : L.State) : Reply × L.State :=
  L.servePatch Ucd.ascii exampleZone [] ttlBody s

/-- The patch succeeds. -/
theorem Azure.status_patched {strings : List Str}
    (h : strings = [lit "one"] ∨ strings = [lit "one", lit "two"]) :
    (Azure.kept.patched (Azure.textZone strings)).1.httpStatus = 200 := by
  rcases h with rfl | rfl <;> decide

/-- The record set of the zone. -/
theorem Azure.textZone_eq (strings : List Str) :
    Azure.textZone strings (lit "example.com")
      (dnsRelativeName Ucd.ascii (lit "example.com") (lit "www")) .txt =
        some { ttl := some 300, txtRecords := [strings] } := by
  rw [show dnsRelativeName Ucd.ascii (lit "example.com") (lit "www") = lit "www" by decide]
  simp [Azure.textZone, Azure.Sets.set]

/-- When it is settled. -/
theorem Azure.settled_textZone (strings : List Str) :
    Azure.kept.Settled (lit "example.com") (lit "www") .txt (Azure.textZone strings) ↔
      ∃ text, strings = [text] ∧ strip text = text := by
  simp [Azure.kept, Azure.live, Azure.textZone_eq, Azure.RecordSet.Settled]

namespace Cloudflare

/-- The rows of `example.com` with one TXT record. -/
def textRows (content : Str) : List Dict :=
  [rowOf (lit "r1") [(lit "type", .str (lit "TXT")), (lit "name", .str (lit "www.example.com")),
    (lit "content", .str content), (lit "ttl", .int 300)]]

/-- Cloudflare with the keeper. -/
def kept : LiveProvider := live Platform.plain ⟨some (lit "z1"), false⟩ keeper id

/-- The patch succeeds. -/
theorem status_patched {content : Str} (h : content = lit "\"one\"" ∨ content = lit "\" one\"") :
    (kept.patched (textRows content)).1.httpStatus = 200 := by
  rcases h with rfl | rfl <;> decide

/-- The row is the RRset. -/
theorem filter_textRows (content : Str) :
    (textRows content).filter
        (inRRset (owner Platform.plain.ucd (lit "example.com") (lit "www")) .txt) =
      textRows content := by
  have howner : owner Platform.plain.ucd (lit "example.com") (lit "www") = lit "www.example.com" := by
    decide
  rw [howner]
  rfl

/-- The content of the row. -/
theorem content_textRows {content : Str} {row : Dict} (h : row ∈ textRows content) :
    textField row (lit "content") = some content := by
  rw [List.mem_singleton.mp h]
  rfl

/-- When it is settled. -/
theorem settled_textRows (content : Str) :
    kept.Settled (lit "example.com") (lit "www") .txt (textRows content) ↔
      strip (normalizeTxtValue content) = normalizeTxtValue content ∧
        isQuoted (normalizeTxtValue content) = false := by
  show (RecordType.txt = .txt → ∀ row ∈ (textRows content).filter _, RowSettled row) ↔ _
  rw [imp_iff_right rfl, filter_textRows]
  constructor
  · intro h
    exact h _ List.mem_cons_self content rfl
  · intro h row hrow text htext
    rw [content_textRows hrow, Option.mem_some_iff] at htext
    exact htext ▸ h

/-- It is held. -/
theorem held_textRows (content : Str) :
    kept.Held (lit "example.com") (lit "www") .txt (textRows content) := by
  refine ⟨⟨?_, ?_⟩, fun row hrow => ⟨content, content_textRows ?_, by simp, by simp⟩⟩
  · intro row hrow
    rw [List.mem_singleton.mp hrow]
    rfl
  · exact List.nodup_singleton _
  · exact List.mem_of_mem_filter hrow

end Cloudflare

/-- A record of one character string at Azure and a quoted text at Cloudflare
are left as they were. -/
theorem ttlPatch_keeps_one :
    SameRdata (Azure.kept.rdatas (lit "example.com") (lit "www") .txt (Azure.textZone [lit "one"]))
        (Azure.kept.rdatas (lit "example.com") (lit "www") .txt
          (Azure.kept.patched (Azure.textZone [lit "one"])).2) ∧
      SameRdata (Cloudflare.kept.rdatas (lit "example.com") (lit "www") .txt
          (Cloudflare.textRows (lit "\"one\"")))
        (Cloudflare.kept.rdatas (lit "example.com") (lit "www") .txt
          (Cloudflare.kept.patched (Cloudflare.textRows (lit "\"one\""))).2) := by
  obtain ⟨hazure, hcloudflare⟩ := ttlPatch_keeps_iff Platform.plain ⟨some (lit "z1"), false⟩
    Azure.keeper_keeps (Cloudflare.keeper_keeps _) (by simp)
  constructor
  · exact (hazure exampleZone []
      (lit "example.com") ttlBody (lit "www") .txt 600 _ (by decide) (by decide)
      (fun _ _ => trivial) (Azure.status_patched (.inl rfl))).mpr
      ((Azure.settled_textZone _).mpr ⟨_, rfl, by decide⟩)
  · exact (hcloudflare exampleZone []
      (lit "example.com") ttlBody (lit "www")
      .txt 600 _ (by decide) (by decide) (Cloudflare.held_textRows _)
      (Cloudflare.status_patched (.inl rfl))).mpr
      ((Cloudflare.settled_textRows _).mpr (by decide))

/-- A record of two character strings at Azure becomes two records, and the
space at the start of a text is lost at Cloudflare. -/
theorem ttlPatch_changes :
    ((Azure.kept.patched (Azure.textZone [lit "one", lit "two"])).1.httpStatus = 200 ∧
      ¬SameRdata
        (Azure.kept.rdatas (lit "example.com") (lit "www") .txt
          (Azure.textZone [lit "one", lit "two"]))
        (Azure.kept.rdatas (lit "example.com") (lit "www") .txt
          (Azure.kept.patched (Azure.textZone [lit "one", lit "two"])).2)) ∧
    ((Cloudflare.kept.patched (Cloudflare.textRows (lit "\" one\""))).1.httpStatus = 200 ∧
      ¬SameRdata
        (Cloudflare.kept.rdatas (lit "example.com") (lit "www") .txt
          (Cloudflare.textRows (lit "\" one\"")))
        (Cloudflare.kept.rdatas (lit "example.com") (lit "www") .txt
          (Cloudflare.kept.patched (Cloudflare.textRows (lit "\" one\""))).2)) := by
  refine ⟨⟨Azure.status_patched (.inr rfl), fun h => ?_⟩,
    ⟨Cloudflare.status_patched (.inr rfl), fun h => ?_⟩⟩
  · have hsettled := (Azure.keepsIffSettled Azure.keeper_keeps exampleZone [] (lit "example.com")
      ttlBody (lit "www") .txt 600 _ (by decide) (by decide) (fun _ _ => trivial)
      (Azure.status_patched (.inr rfl))).mp h
    obtain ⟨text, heq, -⟩ := (Azure.settled_textZone _).mp hsettled
    simp at heq
  · have hsettled := (Cloudflare.keepsIffSettled (Cloudflare.keeper_keeps _) (by simp) exampleZone []
      (lit "example.com") ttlBody (lit "www") .txt 600 _ (by decide) (by decide)
      (Cloudflare.held_textRows _) (Cloudflare.status_patched (.inr rfl))).mp h
    exact absurd ((Cloudflare.settled_textRows _).mp hsettled) (by decide)

end ApiToDns
