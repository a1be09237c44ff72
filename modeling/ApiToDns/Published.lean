import ApiToDns.Plugins.DnsPython

/-!
# Published

Whether the BIND client publishes the values it is given: the RDATA of the
UPDATE it sends, against the normalised values.

`sends_iff` says which UPDATE `create_or_update_record` sends; what becomes
of its values is then a matter of one value at a time (`publishes_iff`).
-/

namespace ApiToDns.Bind

open Py

variable (U : Ucd) (d : DnsPython)

/-! ## the UPDATE that is sent -/

/-- The code sends the UPDATE, for some replies of the network. -/
def Sends (p : Prog netSig α) (u : Update) : Prop := ∃ host, p.Issues (.tcp (.update u) host)

/-- The owner a record name stands for in an UPDATE. -/
def ownerName (dnsZone recordName : Str) (origin : Name) : Except Exc Name :=
  d.nameFromText (node (dnsRelativeName U (bareName dnsZone) recordName)) origin

/-- The request names a server, and dnspython takes its zone and its record
name for names. -/
structure Addressable (server : Json) (dnsZone recordName : Str) (origin : Name) : Prop where
  server : ∃ host, server = .str host ∧ host ≠ []
  zone : bareName dnsZone ≠ [] ∧ d.nameFromText (bareName dnsZone) root = .ok origin
  qname : ∃ name, qname d (bareName dnsZone) (dnsRelativeName U (bareName dnsZone) recordName) =
    .ok name
  owner : ∃ name, ownerName U d dnsZone recordName origin = .ok name

/-- Finding the endpoint looks up a name. -/
theorem issues_tcpEndpointHost {host : Json} {o : NetOp}
    (h : (tcpEndpointHost U host).prog.Issues o) : ∃ name, o = .getaddrinfo name := by
  unfold tcpEndpointHost at h
  split at h
  · next name _ =>
      simp only at h
      split_ifs at h
      · exact absurd h (Code.not_issues_pure _)
      · exact absurd h (Code.not_issues_pure _)
      · cases Code.issues_bind_iff.mp h with
        | inl h =>
            cases Code.issues_tryCatch_iff.mp h with
            | inl h =>
                rw [prog_getaddrinfo, Prog.issues_call_iff] at h
                exact ⟨_, (h.resolve_right (by simp)).symm⟩
            | inr h =>
                obtain ⟨e, -, h⟩ := h
                cases e <;> exact absurd h (Code.not_issues_throw _)
        | inr h =>
            obtain ⟨infos, -, h⟩ := h
            cases infos with
            | nil => exact absurd h (Code.not_issues_throw _)
            | cons address _ => exact absurd h (Code.not_issues_pure _)
  · exact absurd h (Code.not_issues_throw _)

/-- A server given by its name or address has an endpoint, for some replies. -/
theorem returns_tcpEndpointHost (host : Str) :
    ∃ address, (tcpEndpointHost U (.str host)).prog.Returns (.ok address) := by
  have hor : (Json.str host).orElse (.str []) = .str host := by
    cases host with
    | nil => rfl
    | cons c cs => rfl
  unfold tcpEndpointHost
  rw [hor]
  simp only
  split_ifs with hnil hip
  · exact ⟨_, Code.returns_pure_iff.mpr rfl⟩
  · exact ⟨_, Code.returns_pure_iff.mpr rfl⟩
  · refine ⟨[], Code.returns_bind_iff.mpr (.inl ⟨[[]], ?_, Code.returns_pure_iff.mpr rfl⟩)⟩
    refine Code.returns_tryCatch_iff.mpr (.inl ⟨[[]], ?_, rfl⟩)
    rw [prog_getaddrinfo]
    exact .call (.ok [[]]) .ret

/-- Only the message itself is sent. -/
theorem issues_send {message message' : Message} {server : Json} {host : Str}
    (h : (send U message server).prog.Issues (.tcp message' host)) : message' = message := by
  cases Code.issues_bind_iff.mp h with
  | inl h =>
      obtain ⟨name, hname⟩ := issues_tcpEndpointHost U h
      contradiction
  | inr h =>
      obtain ⟨address, -, h⟩ := h
      rw [prog_tcp, Prog.issues_call_iff] at h
      have heq := h.resolve_right (by simp)
      injection heq with hmessage
      exact hmessage.symm

/-- It is sent. -/
theorem sends_send {u : Update} (host : Str) : Sends (send U (.update u) (.str host)).prog u := by
  obtain ⟨address, haddress⟩ := returns_tcpEndpointHost U host
  exact ⟨address, Code.issues_bind_iff.mpr (.inr ⟨address, haddress, .here⟩)⟩

/-- An UPDATE is sent to find out what the server says to it. -/
theorem sends_sendUpdate_iff {u u' : Update} (host : Str) :
    Sends (sendUpdate U d u (.str host)).prog u' ↔ u' = u := by
  constructor
  · intro h
    obtain ⟨address, h⟩ := h
    cases Code.issues_bind_iff.mp h with
    | inl h =>
        have heq := issues_send U h
        injection heq
    | inr h =>
        obtain ⟨response, -, h⟩ := h
        by_cases hrcode : response.rcode ≠ noError
        · rw [if_pos hrcode] at h
          exact absurd h (Code.not_issues_throw _)
        · rw [if_neg hrcode] at h
          exact absurd h (Code.not_issues_pure _)
  · intro h
    rw [h]
    obtain ⟨address, hsend⟩ := sends_send U (u := u) host
    exact ⟨address, Code.issues_bind_iff.mpr (.inl hsend)⟩

/-- The existence lookup sends no UPDATE. -/
theorem not_sends_recordExistsAtName {server : Json} {zoneName relative : Str} {rt : RecordType}
    {u : Update} : ¬Sends (recordExistsAtName U d server zoneName relative rt).prog u := by
  intro h
  obtain ⟨address, h⟩ := h
  cases Code.issues_bind_iff.mp h with
  | inl h => exact absurd h (Code.not_issues_lift _)
  | inr h =>
      obtain ⟨name, -, h⟩ := h
      cases Code.issues_tryCatch_iff.mp h with
      | inl h =>
          cases Code.issues_bind_iff.mp h with
          | inl h =>
              have heq := issues_send U h
              contradiction
          | inr h =>
              obtain ⟨response, -, h⟩ := h
              exact absurd h (Code.not_issues_pure _)
      | inr h =>
          obtain ⟨e, -, h⟩ := h
          exact absurd h (Code.not_issues_pure _)

/-- Every operation has an answer. -/
theorem netSig_nonempty (o : NetOp) : Nonempty (netSig.Ret o) := by
  cases o with
  | getaddrinfo host => exact ⟨.error (.other [])⟩
  | tcp message host => exact ⟨.error (.other [])⟩

/-- The existence lookup does not raise once its name is one. -/
theorem returns_recordExistsAtName {server : Json} {zoneName relative : Str} {rt : RecordType}
    {name : Name} (h : qname d zoneName relative = .ok name) :
    ∃ existed, (recordExistsAtName U d server zoneName relative rt).prog.Returns (.ok existed) := by
  obtain ⟨result, hresult⟩ := Prog.exists_returns netSig_nonempty
    (recordExistsAtName U d server zoneName relative rt).prog
  cases Code.returns_bind_iff.mp hresult with
  | inl hname =>
      obtain ⟨name', -, htry⟩ := hname
      cases Code.returns_tryCatch_iff.mp htry with
      | inl hok =>
          obtain ⟨existed, -, heq⟩ := hok
          exact ⟨existed, heq ▸ hresult⟩
      | inr herror =>
          obtain ⟨e, -, hfalse⟩ := herror
          exact ⟨false, Code.returns_pure_iff.mp hfalse ▸ hresult⟩
  | inr hname =>
      obtain ⟨e, he, -⟩ := hname
      rw [Code.returns_lift_iff, h] at he
      contradiction

/-- A sequence sends what its second part sends after the first. -/
theorem sends_bind_iff {c : NetCode α} {f : α → NetCode β} {u : Update} :
    Sends (c >>= f).prog u ↔
      Sends c.prog u ∨ ∃ a, c.prog.Returns (.ok a) ∧ Sends (f a).prog u := by
  simp only [Sends, Code.issues_bind_iff]
  constructor
  · intro h
    obtain ⟨host, h | ⟨a, ha, h⟩⟩ := h
    · exact .inl ⟨host, h⟩
    · exact .inr ⟨a, ha, host, h⟩
  · intro h
    cases h with
    | inl h => obtain ⟨host, h⟩ := h; exact ⟨host, .inl h⟩
    | inr h => obtain ⟨a, ha, host, h⟩ := h; exact ⟨host, .inr ⟨a, ha, h⟩⟩

/-- What is sent after a result that is at hand. -/
theorem sends_lift_bind_iff {r : Except Exc α} {f : α → NetCode β} {u : Update} :
    Sends (Code.lift r >>= f).prog u ↔ ∃ a, r = .ok a ∧ Sends (f a).prog u := by
  rw [sends_bind_iff]
  constructor
  · intro h
    cases h with
    | inl h => obtain ⟨host, h⟩ := h; exact absurd h (Code.not_issues_lift _)
    | inr h =>
        obtain ⟨a, ha, h⟩ := h
        exact ⟨a, (Code.returns_lift_iff.mp ha).symm, h⟩
  · intro h
    obtain ⟨a, ha, h⟩ := h
    exact .inr ⟨a, Code.returns_lift_iff.mpr ha.symm, h⟩

/-- The UPDATE that a request to write values sends: one RDATA for each
normalised value. -/
theorem sends_iff {payload : DnsRecordRequest} {server : Json} {dnsZone : Str} {origin : Name}
    {rt : RecordType} {values : List Str} {u : Update}
    (haddr : Addressable U d server dnsZone payload.recordName origin)
    (hrt : U.upper payload.recordType = rt.text) (hmutable : rt.isMutable = true)
    (hvalues : normalizeRecordValues U rt payload.values = .ok values) :
    Sends (createOrUpdateRecord U d payload server dnsZone).prog u ↔
      ∃ owner rds, ownerName U d dnsZone payload.recordName origin = .ok owner ∧
        rdatas d rt origin values = .ok rds ∧
        u = ⟨origin, owner, rt,
          .replace (if payload.ttl.getD 0 = 0 then 300 else payload.ttl.getD 0) rds⟩ := by
  obtain ⟨host, hserver, hhost⟩ := haddr.server
  obtain ⟨name, hname⟩ := haddr.qname
  have hread : ∃ existed,
      (recordExistsAtName U d server (bareName dnsZone)
        (dnsRelativeName U (bareName dnsZone) payload.recordName) rt).prog.Returns (.ok existed) :=
    returns_recordExistsAtName U d hname
  obtain ⟨existed, hexisted⟩ := hread
  have htruthy : server.truthy = true := by
    rw [hserver]
    simp [Json.truthy, hhost]
  have htarget : target server dnsZone = .ok (bareName dnsZone) := by
    simp [target, htruthy, haddr.zone.1]
  have hsupported : supportedType rt.text = .ok rt := by
    simp [supportedType, hmutable, Option.filter_some]
  unfold createOrUpdateRecord
  rw [htarget]
  simp only [sends_lift_bind_iff, Except.ok.injEq, exists_eq_left', haddr.zone.2, hrt,
    rt.text_ne_delete, if_false, replaceRecord, hsupported, hvalues]
  rw [sends_bind_iff, or_iff_right (not_sends_recordExistsAtName U d)]
  have hsent (u' : Update) (existed : Bool) :
      Sends (sendUpdate U d u' server >>= fun _ => pure existed : NetCode Bool).prog u ↔ u = u' := by
    rw [sends_bind_iff, hserver, sends_sendUpdate_iff, or_iff_left]
    intro h
    obtain ⟨a, -, address, h⟩ := h
    exact absurd h (Code.not_issues_pure _)
  simp only [sends_lift_bind_iff, hsent]
  constructor
  · intro h
    obtain ⟨-, -, owner, howner, rds, hrds, hu⟩ := h
    exact ⟨owner, rds, howner, hrds, hu⟩
  · intro h
    obtain ⟨owner, rds, howner, hrds, hu⟩ := h
    exact ⟨existed, hexisted, owner, howner, rds, hrds, hu⟩

/-! ## what becomes of the values -/

/-- The code sends an UPDATE, and every UPDATE it sends replaces by one RDATA
for each value, which has the property `good` for it. -/
def Publishes (p : Prog netSig α) (good : RecordType → Str → Rdata → Prop) (values : List Str) :
    Prop :=
  (∃ u, Sends p u) ∧
    ∀ u, Sends p u → ∃ ttl rds, u.change = .replace ttl rds ∧
      List.Forall₂ (good u.rdtype) values rds

/-- Results for all members of a list are a result for each. -/
theorem exists_forall₂_and_iff {R S : α → β → Prop} {as : List α} :
    (∃ bs, List.Forall₂ R as bs ∧ List.Forall₂ S as bs) ↔ ∀ a ∈ as, ∃ b, R a b ∧ S a b := by
  induction as with
  | nil => simp
  | cons a as ih =>
      rw [List.forall_mem_cons, ← ih]
      constructor
      · intro h
        obtain ⟨bs, hR, hS⟩ := h
        cases hR with
        | cons hr hrs =>
            cases hS with
            | cons hs hss => exact ⟨⟨_, hr, hs⟩, _, hrs, hss⟩
      · intro h
        obtain ⟨⟨b, hr, hs⟩, bs, hrs, hss⟩ := h
        exact ⟨b :: bs, .cons hr hrs, .cons hs hss⟩

/-- RDATA is read back as the value. -/
def ReadsBack (rt : RecordType) (value : Str) (rdata : Rdata) : Prop :=
  formatRdataValue U d rt rdata = .ok value

/-- A request publishes its values exactly when the RDATA of each has the
property. -/
theorem publishes_iff (payload : DnsRecordRequest) {server : Json} {dnsZone : Str} {origin : Name}
    (rt : RecordType) {values : List Str} (good : RecordType → Str → Rdata → Prop)
    (haddr : Addressable U d server dnsZone payload.recordName origin)
    (hrt : U.upper payload.recordType = rt.text) (hmutable : rt.isMutable = true)
    (hvalues : normalizeRecordValues U rt payload.values = .ok values) :
    Publishes (createOrUpdateRecord U d payload server dnsZone).prog good values ↔
      ∀ v ∈ values, ∃ rd, d.rdataFromText rt v origin = .ok rd ∧ good rt v rd := by
  obtain ⟨owner, howner⟩ := haddr.owner
  have hsends (u : Update) := sends_iff U d (u := u) haddr hrt hmutable hvalues
  simp only [Publishes, hsends]
  have hall : (∃ rds, rdatas d rt origin values = .ok rds ∧ List.Forall₂ (good rt) values rds) ↔
      ∀ v ∈ values, ∃ rd, d.rdataFromText rt v origin = .ok rd ∧ good rt v rd := by
    simp only [rdatas, mapM_eq_ok_iff]
    exact exists_forall₂_and_iff
  rw [← hall]
  constructor
  · intro h
    obtain ⟨⟨u, owner', rds, howner', hrds, hu⟩, hevery⟩ := h
    obtain ⟨ttl, rds', hchange, hgood⟩ := hevery u ⟨owner', rds, howner', hrds, hu⟩
    rw [hu, Change.replace.injEq] at hchange
    rw [hu, ← hchange.2] at hgood
    exact ⟨rds, hrds, hgood⟩
  · intro h
    obtain ⟨rds, hrds, hgood⟩ := h
    refine ⟨⟨_, owner, rds, howner, hrds, rfl⟩, fun u hu => ?_⟩
    obtain ⟨owner', rds', -, hrds', hu⟩ := hu
    rw [hrds] at hrds'
    rw [hu, ← Except.ok.inj hrds']
    exact ⟨_, rds, rfl, hgood⟩

/-! ## TXT -/

/-- Normal values are there, each normal. -/
theorem normalizeRecordValues_mem {rt : RecordType} {raw values : List Str}
    (h : normalizeRecordValues U rt raw = .ok values) :
    values ≠ [] ∧ ∀ v ∈ values, ∃ r, normalizeRecordValue U rt r = .ok v := by
  obtain ⟨hlen, hraw⟩ := length_normalizeRecordValues U h
  refine ⟨fun hnil => ?_, fun v hv => ?_⟩
  · rw [hnil, List.length_nil] at hlen
    exact hraw (List.length_eq_zero_iff.mp hlen.symm)
  · unfold normalizeRecordValues at h
    split_ifs at h
    obtain ⟨r, -, hr⟩ := mem_of_mapM_eq_ok h hv
    exact ⟨r, hr⟩

/-- A normal text is not empty. -/
theorem ne_nil_of_normalizeRecordValue_txt {raw v : Str}
    (h : normalizeRecordValue U .txt raw = .ok v) : v ≠ [] := by
  unfold normalizeRecordValue at h
  simp only at h
  split_ifs at h with hne
  exact Except.ok.inj h ▸ hne

/-- The RDATA of a text is read back as the text exactly when the grammar of
master files does so. -/
theorem readsBack_txt_iff (hd : d.ParsesTxt U) (v : Str) (origin : Name) :
    (∃ rd, d.rdataFromText .txt v origin = .ok rd ∧ ReadsBack U d .txt v rd) ↔
      MasterFile.readBack U.decimal v = some v := by
  have hparse := hd v origin
  unfold MasterFile.readBack
  cases hrd : d.rdataFromText .txt v origin with
  | error e =>
      rw [hrd] at hparse
      have hnone : MasterFile.txtStrings U.decimal v = none :=
        Option.map_eq_none_iff.mp hparse.symm
      rw [hnone]
      simp
  | ok rd =>
      rw [hrd] at hparse
      obtain ⟨strings, hstrings, hrd'⟩ := Option.map_eq_some_iff.mp hparse.symm
      rw [hstrings, ← hrd']
      simp [ReadsBack, formatRdataValue]

/-- BIND publishes TXT values as they are exactly when none has a white
space, semicolon, parenthesis, double quote or backslash in it, and none is
longer than 255 octets. -/
theorem publishes_txt_iff (payload : DnsRecordRequest) {server : Json} {dnsZone : Str}
    {origin : Name} {values : List Str} (hd : d.ParsesTxt U)
    (haddr : Addressable U d server dnsZone payload.recordName origin)
    (hrt : U.upper payload.recordType = RecordType.txt.text)
    (hvalues : normalizeRecordValues U .txt payload.values = .ok values) :
    Publishes (createOrUpdateRecord U d payload server dnsZone).prog (ReadsBack U d) values ↔
      ∀ v ∈ values, (∀ c ∈ v, MasterFile.isSpecial c = false) ∧ (Utf8.encode v).length ≤ 255 := by
  rw [publishes_iff U d payload .txt (ReadsBack U d) haddr hrt rfl hvalues]
  refine forall₂_congr fun v hv => ?_
  obtain ⟨raw, hraw⟩ := (normalizeRecordValues_mem U hvalues).2 v hv
  have hne := ne_nil_of_normalizeRecordValue_txt U hraw
  rw [readsBack_txt_iff U d hd, MasterFile.readBack_iff U.decimal hne]

/-- The address of a server, a zone and a record name that can be addressed. -/
theorem addressable_www :
    Addressable Ucd.ascii (.plain Ucd.ascii) (.str (lit "192.0.2.53")) (lit "example.com")
      (lit "www") [lit "example", lit "com"] where
  server := ⟨lit "192.0.2.53", rfl, by decide⟩
  zone := by decide
  qname := ⟨[lit "www", lit "example", lit "com"], by decide⟩
  owner := ⟨[lit "www", lit "example", lit "com"], by decide⟩

/-- A token without special characters is published as it is. -/
theorem publishes_txt_token :
    Publishes (createOrUpdateRecord Ucd.ascii (.plain Ucd.ascii)
      ⟨none, lit "TXT", lit "www", some 60, [lit "token=42"]⟩ (.str (lit "192.0.2.53"))
      (lit "example.com")).prog (ReadsBack Ucd.ascii (.plain Ucd.ascii)) [lit "token=42"] :=
  have hplain : ∀ v ∈ [lit "token=42"],
      (∀ c ∈ v, MasterFile.isSpecial c = false) ∧ (Utf8.encode v).length ≤ 255 := by
    simp only [List.mem_singleton, forall_eq]
    exact ⟨forall_mem_of_all (by decide), by decide +kernel⟩
  (publishes_txt_iff Ucd.ascii (.plain Ucd.ascii)
    ⟨none, lit "TXT", lit "www", some 60, [lit "token=42"]⟩
    (DnsPython.plain_parsesTxt Ucd.ascii) addressable_www (by decide) (by decide)).mpr hplain

/-- An SPF policy loses its spaces. -/
theorem not_publishes_txt_spf :
    normalizeRecordValues Ucd.ascii .txt [lit "v=spf1 -all"] = .ok [lit "v=spf1 -all"] ∧
      ¬Publishes (createOrUpdateRecord Ucd.ascii (.plain Ucd.ascii)
        ⟨none, lit "TXT", lit "www", some 60, [lit "v=spf1 -all"]⟩ (.str (lit "192.0.2.53"))
        (lit "example.com")).prog (ReadsBack Ucd.ascii (.plain Ucd.ascii)) [lit "v=spf1 -all"] ∧
      MasterFile.readBack Ucd.ascii.decimal (lit "v=spf1 -all") = some (lit "v=spf1-all") := by
  have hback : MasterFile.readBack Ucd.ascii.decimal (lit "v=spf1 -all") =
      some (lit "v=spf1-all") := by decide +kernel
  refine ⟨by decide, fun h => ?_, hback⟩
  have hall := (publishes_iff Ucd.ascii (.plain Ucd.ascii)
    ⟨none, lit "TXT", lit "www", some 60, [lit "v=spf1 -all"]⟩ .txt
    (ReadsBack Ucd.ascii (.plain Ucd.ascii)) addressable_www (by decide) rfl (by decide)).mp h
  have hread := (readsBack_txt_iff Ucd.ascii (.plain Ucd.ascii)
    (DnsPython.plain_parsesTxt Ucd.ascii) _ _).mp (hall (lit "v=spf1 -all") (by simp))
  rw [hback] at hread
  exact absurd hread (by decide)

/-! ## host names -/

/-- The name in a record's data. -/
def Rdata.name? : Rdata → Option Name
  | target name | mx _ name | srv _ _ _ name => some name
  | _ => none

/-- The host name of a value: its last word. -/
def hostOf (value : Str) : Str := (splitWords value).getLast?.getD []

/-- RDATA holds the absolute name of the value's host, and is read back as
the value. -/
def KeepsTarget (rt : RecordType) (value : Str) (rdata : Rdata) : Prop :=
  (∃ name, rdata.name? = some name ∧ d.nameFromText (hostOf value) root = .ok name) ∧
    ReadsBack U d rt value rdata

/-- The types whose values hold a host name. -/
def IsHostType (rt : RecordType) : Prop :=
  rt = .cname ∨ rt = .ns ∨ rt = .ptr ∨ rt = .mx ∨ rt = .srv

/-- How a value with the host name `labels` is parsed and printed: the name
behind its last word goes into the data as it is parsed. -/
structure HostValue (rt : RecordType) (v : Str) (labels : List Str) (data : Name → Rdata) :
    Prop where
  host : IsHost labels
  hostOf : hostOf v = hostText labels
  name : ∀ name, (data name).name? = some name
  parse : ∀ origin, (d.rdataFromText rt v origin).toOption =
    (d.nameFromText (hostText labels) origin).toOption.map data
  print : ReadsBack U d rt v (data labels)

/-- A name is published as a target. -/
theorem hostValue_of_plain (hd : d.ParsesHosts) {rt : RecordType}
    (hrt : rt = .cname ∨ rt = .ns ∨ rt = .ptr) {labels : List Str} (h : IsHost labels) :
    HostValue U d rt (hostText labels) labels .target where
  host := h
  hostOf := by simp [hostOf, splitWords_hostText h]
  name _ := rfl
  parse origin := hd.target hrt h origin
  print := by
    have hprint := hd.print h
    rcases hrt with hrt | hrt | hrt
    all_goals
      rw [hrt, ReadsBack, formatRdataValue, hprint]

/-- A mail exchange is published. -/
theorem hostValue_of_mx (hd : d.ParsesHosts) {preference : Nat} {labels : List Str}
    (hp : preference ≤ 65535) (h : IsHost labels) :
    HostValue U d .mx (mxText preference labels) labels (.mx preference) where
  host := h
  hostOf := by simp [hostOf, splitWords_mxText preference h]
  name _ := rfl
  parse origin := hd.mx hp h origin
  print := by
    rw [ReadsBack, formatRdataValue, hd.print h]
    exact normalizeRecordValue_mxText U hp h

/-- A service is published. -/
theorem hostValue_of_srv (hd : d.ParsesHosts) {priority weight port : Nat} {labels : List Str}
    (hp : priority ≤ 65535) (hw : weight ≤ 65535) (ho : port ≤ 65535) (h : IsHost labels) :
    HostValue U d .srv (srvText priority weight port labels) labels (.srv priority weight port) where
  host := h
  hostOf := by simp [hostOf, splitWords_srvText priority weight port h]
  name _ := rfl
  parse origin := hd.srv hp hw ho h origin
  print := by
    rw [ReadsBack, formatRdataValue, hd.print h]
    exact normalizeRecordValue_srvText U hp hw ho h

/-- A number has no newline. -/
theorem newline_not_mem_natStr (n : Nat) : '\n' ∉ natStr n := fun h =>
  absurd (mem_natStr h) (by decide)

/-- A normalised value holds a line feed, or a host name. -/
theorem hostValue_of_normalized (hd : d.ParsesHosts) {rt : RecordType} (hrt : IsHostType rt)
    {raw v : Str} (h : normalizeRecordValue U rt raw = .ok v) (hline : '\n' ∉ v) :
    ∃ labels data, HostValue U d rt v labels data := by
  have hplain (hrt : rt = .cname ∨ rt = .ns ∨ rt = .ptr) :
      ∃ labels data, HostValue U d rt v labels data := by
    obtain ⟨labels, tail, hlabels, hv, htail⟩ := normalizeRecordValue_host_ok U hrt h
    rcases htail with htail | htail | htail
    · rw [hv, htail, List.append_nil]
      exact ⟨labels, _, hostValue_of_plain U d hd hrt hlabels⟩
    · exact absurd (by rw [hv, htail]; simp) hline
    · exact absurd (by rw [hv, htail]; simp) hline
  rcases hrt with hrt | hrt | hrt | hrt | hrt
  · exact hplain (.inl hrt)
  · exact hplain (.inr (.inl hrt))
  · exact hplain (.inr (.inr hrt))
  · rw [hrt] at h ⊢
    obtain ⟨preference, labels, hp, hlabels, hv⟩ := normalizeRecordValue_mx_ok U h
    rw [hv]
    exact ⟨labels, _, hostValue_of_mx U d hd hp hlabels⟩
  · rw [hrt] at h ⊢
    obtain ⟨priority, weight, port, labels, hp, hw, ho, hlabels, hv⟩ :=
      normalizeRecordValue_srv_ok U h
    rw [hv]
    exact ⟨labels, _, hostValue_of_srv U d hd hp hw ho hlabels⟩

/-- What is printed of a record with a host name has no line feed. -/
theorem newline_not_mem_of_readsBack (hd : d.ParsesHosts) {rt : RecordType} (hrt : IsHostType rt)
    {raw v : Str} (h : normalizeRecordValue U rt raw = .ok v) {rd : Rdata}
    (hback : ReadsBack U d rt v rd) : '\n' ∉ v := by
  have hplain (hrt : rt = .cname ∨ rt = .ns ∨ rt = .ptr) : '\n' ∉ v := by
    obtain ⟨name, hname⟩ : ∃ name, v = d.nameToText name := by
      unfold ReadsBack at hback
      rcases hrt with hrt | hrt | hrt
      all_goals
        rw [hrt] at hback
        cases rd with
        | target name => exact ⟨name, (Except.ok.inj hback).symm⟩
        | _ => contradiction
    rw [hname]
    exact hd.print_printable name
  rcases hrt with hrt | hrt | hrt | hrt | hrt
  · exact hplain (.inl hrt)
  · exact hplain (.inr (.inl hrt))
  · exact hplain (.inr (.inr hrt))
  · rw [hrt] at h
    obtain ⟨preference, labels, -, hlabels, hv⟩ := normalizeRecordValue_mx_ok U h
    rw [hv, mxText]
    simp [newline_not_mem_natStr, newline_not_mem_hostText hlabels.label]
  · rw [hrt] at h
    obtain ⟨priority, weight, port, labels, -, -, -, hlabels, hv⟩ :=
      normalizeRecordValue_srv_ok U h
    rw [hv, srvText]
    simp [newline_not_mem_natStr, newline_not_mem_hostText hlabels.label]

/-- A name without an origin is read as its labels. -/
theorem nameFromText_root (hd : d.ParsesHosts) {labels : List Str} (h : IsHost labels) :
    d.nameFromText (hostText labels) root = .ok labels := by
  have hlen := length_hostText h.ne_nil
  have hwire : DnsPython.wireLength (labels ++ root) ≤ 255 := by
    have hle := h.length_le
    have hwire : DnsPython.wireLength labels = (labels.map fun l => l.length + 1).sum + 1 := rfl
    rw [root, List.append_nil, hwire, ← hlen]
    omega
  have hname := hd.name h root
  rw [if_pos hwire, root, List.append_nil] at hname
  exact toOption_eq_some_iff.mp hname

/-- A host value is completed with the zone: its RDATA keeps the target only
if the zone is the root. -/
theorem keepsTarget_iff (hd : d.ParsesHosts) {rt : RecordType} (hrt : IsHostType rt)
    {raw v : Str} (h : normalizeRecordValue U rt raw = .ok v) (origin : Name) :
    (∃ rd, d.rdataFromText rt v origin = .ok rd ∧ KeepsTarget U d rt v rd) ↔
      origin = root ∧ '\n' ∉ v := by
  constructor
  · intro hkeeps
    obtain ⟨rd, hrd, ⟨name, hname, hhost⟩, hback⟩ := hkeeps
    have hline := newline_not_mem_of_readsBack U d hd hrt h hback
    obtain ⟨labels, data, hv⟩ := hostValue_of_normalized U d hd hrt h hline
    refine ⟨?_, hline⟩
    -- the name in the RDATA is the host completed with the origin
    have hparse := hv.parse origin
    rw [hrd, hd.name hv.host] at hparse
    split_ifs at hparse
    · have hdata : rd = data (labels ++ origin) := Option.some.inj hparse
      have hcompleted : labels ++ origin = name := by
        rw [hdata, hv.name, Option.some.injEq] at hname
        exact hname
      have habsolute : labels = name := by
        rw [hv.hostOf, nameFromText_root d hd hv.host] at hhost
        exact Except.ok.inj hhost
      rw [← habsolute] at hcompleted
      exact List.append_right_eq_self.mp hcompleted
    · contradiction
  · intro hkeeps
    obtain ⟨horigin, hline⟩ := hkeeps
    obtain ⟨labels, data, hv⟩ := hostValue_of_normalized U d hd hrt h hline
    have habsolute := nameFromText_root d hd hv.host
    have hparse := hv.parse root
    rw [habsolute] at hparse
    refine ⟨data labels, ?_, ⟨labels, hv.name labels, ?_⟩, hv.print⟩
    · rw [horigin]
      exact toOption_eq_some_iff.mp hparse
    · rw [hv.hostOf]
      exact habsolute

/-- The types of names are mutable. -/
theorem isMutable_of_isHostType {rt : RecordType} (h : IsHostType rt) : rt.isMutable = true := by
  rcases h with h | h | h | h | h
  all_goals
    rw [h]
    rfl

/-- BIND keeps the targets of host names exactly when the zone is the DNS
root and no value ends in a line feed: every other zone is appended to
them. -/
theorem publishes_hosts_iff (payload : DnsRecordRequest) {server : Json} {dnsZone : Str}
    {origin : Name} {rt : RecordType} {values : List Str} (hd : d.ParsesHosts)
    (haddr : Addressable U d server dnsZone payload.recordName origin)
    (hrt : U.upper payload.recordType = rt.text) (hhost : IsHostType rt)
    (hvalues : normalizeRecordValues U rt payload.values = .ok values) :
    Publishes (createOrUpdateRecord U d payload server dnsZone).prog (KeepsTarget U d) values ↔
      origin = root ∧ ∀ v ∈ values, '\n' ∉ v := by
  have hmutable := isMutable_of_isHostType hhost
  obtain ⟨hne, hall⟩ := normalizeRecordValues_mem U hvalues
  rw [publishes_iff U d payload rt (KeepsTarget U d) haddr hrt hmutable hvalues]
  have hvalue : ∀ v ∈ values, ((∃ rd, d.rdataFromText rt v origin = .ok rd ∧
      KeepsTarget U d rt v rd) ↔ origin = root ∧ '\n' ∉ v) := by
    intro v hv
    obtain ⟨raw, hraw⟩ := hall v hv
    exact keepsTarget_iff U d hd hhost hraw origin
  rw [forall₂_congr hvalue]
  obtain ⟨v, hv⟩ := List.exists_mem_of_ne_nil values hne
  exact ⟨fun h => ⟨(h v hv).1, fun w hw => (h w hw).2⟩, fun h w hw => ⟨h.1, h.2 w hw⟩⟩

/-- The apex of the root can be addressed. -/
theorem addressable_root :
    Addressable Ucd.ascii (.plain Ucd.ascii) (.str (lit "192.0.2.53")) (lit "@") (lit "www")
      root where
  server := ⟨lit "192.0.2.53", rfl, by decide⟩
  zone := by decide
  qname := ⟨[lit "www", lit "@"], by decide⟩
  owner := ⟨[lit "www"], by decide⟩

/-- In the root zone a target is kept. -/
theorem publishes_cname_root :
    Publishes (createOrUpdateRecord Ucd.ascii (.plain Ucd.ascii)
      ⟨none, lit "CNAME", lit "www", some 60, [lit "host.example.net."]⟩
      (.str (lit "192.0.2.53")) (lit "@")).prog (KeepsTarget Ucd.ascii (.plain Ucd.ascii))
      [lit "host.example.net"] :=
  (publishes_hosts_iff Ucd.ascii (.plain Ucd.ascii)
    ⟨none, lit "CNAME", lit "www", some 60, [lit "host.example.net."]⟩
    (DnsPython.plain_parsesHosts Ucd.ascii) addressable_root (by decide) (.inl rfl)
    (by decide +kernel)).mpr (by decide)

/-- In a zone of its own a target is completed with the zone. -/
theorem not_publishes_mx :
    normalizeRecordValues Ucd.ascii .mx [lit "10 mail.example.net"] =
        .ok [lit "10 mail.example.net"] ∧
      ¬Publishes (createOrUpdateRecord Ucd.ascii (.plain Ucd.ascii)
        ⟨none, lit "MX", lit "www", some 60, [lit "10 mail.example.net"]⟩
        (.str (lit "192.0.2.53")) (lit "example.com")).prog (KeepsTarget Ucd.ascii (.plain Ucd.ascii))
        [lit "10 mail.example.net"] ∧
      (DnsPython.plain Ucd.ascii).rdataFromText .mx (lit "10 mail.example.net")
          [lit "example", lit "com"] =
        .ok (.mx 10 [lit "mail", lit "example", lit "net", lit "example", lit "com"]) := by
  have hvalues : normalizeRecordValues Ucd.ascii .mx [lit "10 mail.example.net"] =
      .ok [lit "10 mail.example.net"] := by decide +kernel
  have hvalue : normalizeRecordValue Ucd.ascii .mx (lit "10 mail.example.net") =
      .ok (lit "10 mail.example.net") := by decide +kernel
  refine ⟨hvalues, fun h => ?_, by decide +kernel⟩
  have hall := (publishes_iff Ucd.ascii (.plain Ucd.ascii)
    ⟨none, lit "MX", lit "www", some 60, [lit "10 mail.example.net"]⟩ .mx
    (KeepsTarget Ucd.ascii (.plain Ucd.ascii)) addressable_www (by decide) rfl hvalues).mp h
  have hkeeps := (keepsTarget_iff Ucd.ascii (.plain Ucd.ascii)
    (DnsPython.plain_parsesHosts Ucd.ascii) (.inr (.inr (.inr (.inl rfl)))) hvalue _).mp
    (hall _ (by simp))
  exact absurd hkeeps.1 (by decide)

end ApiToDns.Bind
