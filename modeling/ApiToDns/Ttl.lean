import ApiToDns.Names
import ApiToDns.Plugins.Azure
import ApiToDns.Plugins.DnsPython
import ApiToDns.Plugins.WinRm
import ApiToDns.Serve

/-!
# Ttl

The TTL that reaches the provider, followed from the request through the
validation, the merging of PATCH and the client of each plugin.

Every client reads its TTL as `ttl or 300`, so the accepted TTL is the one
that is published exactly when it is not 0 (`ttl_published_iff`).
-/

namespace ApiToDns

open Py Code Quoting

/-- Records that were read with the TTL, the default standing for 0. -/
def ReadsTtl (t : Int) (infos : List DnsRecordInfo) : Prop :=
  ∀ info ∈ infos, ∃ t', info.ttl = some t' ∧ ttlOrDefault (some t') = ttlOrDefault (some t)

/-- Of nothing every TTL is read. -/
theorem ReadsTtl.nil {t : Int} : ReadsTtl t [] := by simp [ReadsTtl]

/-- Two lists with the same TTL. -/
theorem ReadsTtl.append {t : Int} {infos infos' : List DnsRecordInfo} (h : ReadsTtl t infos)
    (h' : ReadsTtl t infos') : ReadsTtl t (infos ++ infos') := by
  intro info hinfo
  rcases List.mem_append.mp hinfo with hinfo | hinfo
  · exact h info hinfo
  · exact h' info hinfo

/-- An answer with the TTL. -/
theorem ReadsTtl.toList {t : Int} {info : Option DnsRecordInfo} (h : ∀ i ∈ info, i.ttl = some t) :
    ReadsTtl t info.toList :=
  fun i hi => ⟨t, h i (Option.mem_toList.mp hi), rfl⟩

/-! ## BIND -/

namespace Bind

/-- The operation publishes a record set with the TTL. -/
def PublishesTtl : NetOp → Int → Prop
  | .tcp (.update ⟨_, _, _, .replace ttl _⟩) _, t => ttl = t
  | _, _ => False

/-- The answers to queries show the TTL. -/
def ShowsTtl (t : Int) : Prog.World netSig
  | .tcp (.query _ rt) _, .ok resp => ∀ rrset ∈ resp.answer, rrset.rdtype = rt → (rrset.ttl : Int) = t
  | _, _ => True

section

variable {U : Ucd} {d : DnsPython} {w : Prog.World netSig} {Q : NetOp → Prop}

/-- Looking up an address is one operation. -/
theorem ensures_getaddrinfo {host : Str} (h : Q (.getaddrinfo host)) :
    Ensures w Q (fun _ => True) (getaddrinfo host) :=
  ⟨h, fun _ _ _ _ => trivial⟩

/-- Finding the endpoint looks up addresses only. -/
theorem ensures_tcpEndpointHost {server : Json} (h : ∀ host, Q (.getaddrinfo host)) :
    Ensures w Q (fun _ => True) (tcpEndpointHost U server) := by
  unfold tcpEndpointHost
  split
  · dsimp only
    split
    · exact .pure trivial
    · split
      · exact .pure trivial
      · refine .bind (.tryCatch (ensures_getaddrinfo (h _)) fun exc => ?_) fun infos _ => ?_
        · cases exc <;> exact .throw
        · cases infos <;> first | exact .throw | exact .pure trivial
  · exact .throw

/-- Sending a message. -/
theorem ensures_send {message : Message} {server : Json} (hget : ∀ host, Q (.getaddrinfo host))
    (htcp : ∀ host, Q (.tcp message host)) :
    Ensures w Q (fun resp => ∃ host, w (.tcp message host) (.ok resp)) (send U message server) := by
  refine .bind (ensures_tcpEndpointHost hget) fun host _ => ⟨htcp host, fun reply hreply resp heq => ?_⟩
  rw [heq] at hreply
  exact ⟨host, hreply⟩

/-- Looking for a record sends queries only. -/
theorem ensures_recordExistsAtName {server : Json} {zoneName relative : Str} {rt : RecordType}
    (hget : ∀ host, Q (.getaddrinfo host)) (hquery : ∀ name rt host, Q (.tcp (.query name rt) host)) :
    Ensures w Q (fun _ => True) (recordExistsAtName U d server zoneName relative rt) := by
  refine .bind (.lift fun name _ => trivial) fun name _ => .tryCatch ?_ fun _ => .pure trivial
  exact .bind (ensures_send hget (hquery name rt)) fun _ _ => .pure trivial

/-- Sending an update. -/
theorem ensures_sendUpdate {u : Update} {server : Json} (hget : ∀ host, Q (.getaddrinfo host))
    (hupdate : ∀ host, Q (.tcp (.update u) host)) :
    Ensures w Q (fun _ => True) (sendUpdate U d u server) := by
  refine .bind (ensures_send hget hupdate) fun resp _ => ?_
  split
  · exact .throw
  · exact .pure trivial

/-- The UPDATE of a change carries the TTL of the change, or the default. -/
theorem ensures_createOrUpdateRecord {payload : DnsRecordRequest} {server : Json} {dnsZone : Str} :
    Ensures w (fun o => ∀ t, PublishesTtl o t → t = ttlOrDefault payload.ttl) (fun _ => True)
      (createOrUpdateRecord U d payload server dnsZone) := by
  have hexists : ∀ {relative zoneName rt}, Ensures w
      (fun o => ∀ t, PublishesTtl o t → t = ttlOrDefault payload.ttl) (fun _ => True)
      (recordExistsAtName U d server zoneName relative rt) :=
    ensures_recordExistsAtName (by simp [PublishesTtl]) (by simp [PublishesTtl])
  refine .bind (.lift fun _ _ => trivial) fun zoneName _ => ?_
  refine .bind (.lift fun _ _ => trivial) fun origin _ => ?_
  split
  · unfold deleteRecord
    split
    · exact .throw
    · refine .bind (.lift fun _ _ => trivial) fun rt _ => .bind hexists fun existed _ => ?_
      split
      · exact .pure trivial
      · refine .bind (.lift fun _ _ => trivial) fun owner _ => ?_
        exact .bind (ensures_sendUpdate (by simp [PublishesTtl]) (by simp [PublishesTtl]))
          fun _ _ => .pure trivial
  · refine .bind (.lift fun _ _ => trivial) fun rt _ => ?_
    refine .bind (.lift fun _ _ => trivial) fun validated _ => .bind hexists fun existed _ => ?_
    refine .bind (.lift fun _ _ => trivial) fun owner _ => .bind (.lift fun _ _ => trivial) fun rdatas _ => ?_
    refine .bind (ensures_sendUpdate (by simp [PublishesTtl]) ?_) fun _ _ => .pure trivial
    intro host t ht
    exact ht.symm

/-- A record set of the answer has the TTL that is read. -/
theorem ttl_of_readAnswer {rt : RecordType} {answer : List Rrset} {n : Nat} {values : List Str}
    (h : readAnswer U d rt answer = .ok (some n, values)) :
    ∃ rrset ∈ answer, rrset.rdtype = rt ∧ rrset.ttl = n := by
  induction answer generalizing n values with
  | nil => simp [readAnswer] at h
  | cons rrset rest ih =>
      unfold readAnswer at h
      split at h
      · obtain ⟨found, hfound, hrest⟩ := ih h
        exact ⟨found, List.mem_cons_of_mem _ hfound, hrest⟩
      · next hrt =>
          obtain ⟨_, -, h⟩ := bind_eq_ok h
          obtain ⟨⟨ttl, more⟩, hrest, h⟩ := bind_eq_ok h
          have heq := (Prod.ext_iff.mp (Except.ok.inj h)).1
          cases ttl with
          | none => exact ⟨rrset, List.mem_cons_self, by simpa using hrt, by simpa using heq⟩
          | some m =>
              obtain ⟨found, hfound, hrt, httl⟩ := ih hrest
              exact ⟨found, List.mem_cons_of_mem _ hfound, hrt, by rw [httl]; simpa using heq⟩

/-- The answer to a query, `none` for one that failed, shows the TTL. -/
theorem ensures_answer {t : Int} {shown : Prop} (hshows : shown → ∀ o r, w o r → ShowsTtl t o r)
    {name : Name} {rt : RecordType} {server : Json} :
    Ensures w (fun o => ∀ t, ¬PublishesTtl o t)
      (fun resp => ∀ r ∈ resp, shown → ∀ rrset ∈ r.answer, rrset.rdtype = rt → (rrset.ttl : Int) = t)
      (tryCatch (do let resp ← send U (.query name rt) server; return some resp)
        fun _ => return none) := by
  refine .tryCatch ?_ fun _ => .pure (by simp)
  refine .bind (ensures_send (by simp [PublishesTtl]) (by simp [PublishesTtl])) fun resp hresp => .pure ?_
  obtain ⟨host, hresp⟩ := hresp
  simp only [Option.mem_some_iff, forall_eq']
  exact fun h => hshows h _ _ hresp

/-- A lookup publishes nothing, and reads the TTL that is shown. -/
theorem ensures_queryTypes {t : Int} {shown : Prop}
    (hshows : shown → ∀ o r, w o r → ShowsTtl t o r) {server : Json} {zoneName relative : Str}
    (rts : List RecordType) :
    Ensures w (fun o => ∀ t, ¬PublishesTtl o t)
      (fun infos => shown → ReadsTtl t infos) (queryTypes U d server zoneName relative rts) := by
  have hquery : ∀ rt, Ensures w (fun o => ∀ t, ¬PublishesTtl o t)
      (fun info => shown → ∀ i ∈ info, i.ttl = some t)
      (queryRecordDetailsAtName U d server zoneName relative rt) := by
    intro rt
    refine .bind (.lift fun _ _ => trivial) fun name _ => ?_
    refine .bind (ensures_answer hshows) fun resp hresp => ?_
    cases resp with
    | none => exact .pure (by simp)
    | some resp =>
        refine .bind (.lift fun _ h => h) fun read hread => ?_
        obtain ⟨ttl, values⟩ := read
        dsimp only
        split
        · next n v vs hn =>
            refine .pure fun hs => ?_
            obtain ⟨rrset, hmem, hrt, httl⟩ := ttl_of_readAnswer hread
            simp only [Option.mem_some_iff, forall_eq']
            rw [← hresp resp rfl hs rrset hmem hrt, httl]
        · exact .pure (by simp)
  induction rts with
  | nil => exact .pure fun _ => .nil
  | cons rt rts ih =>
      refine .bind (hquery rt) fun info hinfo => .bind ih fun infos hinfos => .pure fun hs => ?_
      exact (ReadsTtl.toList (hinfo hs)).append (hinfos hs)

/-- A lookup publishes nothing and reads the TTL that is shown. -/
theorem ensures_getRecord {t : Int} {shown : Prop} (hshows : shown → ∀ o r, w o r → ShowsTtl t o r)
    {name : Str} {recordType : Option Str} {server : Json} {dnsZone : Str} :
    Ensures w (fun o => ∀ t, ¬PublishesTtl o t) (fun infos => shown → ReadsTtl t infos)
      (getRecord U d name recordType server dnsZone) := by
  refine .bind (.lift fun _ _ => trivial) fun zoneName _ => ?_
  exact .bind (.lift fun _ _ => trivial) fun rts _ => ensures_queryTypes hshows rts

end

end Bind

/-! ## Azure -/

namespace Azure

/-- The call publishes a record set with the TTL. -/
def PublishesTtl : SdkOp → Int → Prop
  | .createOrUpdate _ _ _ rs, t => rs.ttl = some t
  | _, _ => False

/-- The record sets that are read have the TTL. -/
def ShowsTtl (t : Int) : Prog.World sdkSig
  | .get .., .ok (some rs) => rs.ttl = some t
  | _, _ => True

section

variable {U : Ucd} {w : Prog.World sdkSig} {Q : SdkOp → Prop}

/-- Reading a record set. -/
theorem ensures_getExistingRecordSet {zone name : Str} {rt : RecordType}
    (h : Q (.get zone name rt)) :
    Ensures w Q (fun rs => w (.get zone name rt) (.ok rs)) (getExistingRecordSet zone name rt) := by
  refine ⟨h, fun reply hreply rs heq => ?_⟩
  rwa [heq] at hreply

/-- A mutation publishes the TTL of its payload. -/
theorem ensures_createOrUpdateRecord {payload : DnsRecordRequest} {server : Json} {dnsZone : Str} :
    Ensures w (fun o => ∀ t, PublishesTtl o t → t = ttlOrDefault payload.ttl) (fun _ => True)
      (createOrUpdateRecord U payload server dnsZone) := by
  have hget : ∀ {zone name rt}, Ensures w
      (fun o => ∀ t, PublishesTtl o t → t = ttlOrDefault payload.ttl)
      (fun rs => w (.get zone name rt) (.ok rs)) (getExistingRecordSet zone name rt) :=
    ensures_getExistingRecordSet (by simp [PublishesTtl])
  refine .bind (.lift fun _ _ => trivial) fun _ _ => ?_
  dsimp only
  split
  · unfold deleteRecordSet
    split
    · exact .throw
    · refine .bind (.lift fun _ _ => trivial) fun rt _ => .bind hget fun existing _ => ?_
      split
      · exact .pure trivial
      · exact ⟨by simp [PublishesTtl], fun _ _ _ _ => trivial⟩
  · refine .bind (.lift fun _ _ => trivial) fun rt _ => .bind hget fun existing _ => ?_
    refine .bind (.lift fun _ _ => trivial) fun values _ => .bind (.lift fun _ h => h) fun rs hrs => ?_
    have hwrite : Ensures w (fun o => ∀ t, PublishesTtl o t → t = ttlOrDefault payload.ttl)
        (fun _ => True)
        (recordSetsCreateOrUpdate dnsZone (dnsRelativeName U dnsZone payload.recordName) rt rs) := by
      refine ⟨fun t ht => ?_, fun _ _ _ _ => trivial⟩
      rw [PublishesTtl, ttl_buildRecordSet U hrs] at ht
      exact (Option.some.inj ht).symm
    exact .bind hwrite fun _ _ => .pure trivial

/-- A lookup publishes nothing and reads the TTL that is shown. -/
theorem ensures_getRecord {t : Int} {shown : Prop} (hshows : shown → ∀ o r, w o r → ShowsTtl t o r)
    {name : Str} {recordType : Option Str} {server : Json} {dnsZone : Str} :
    Ensures w (fun o => ∀ t, ¬PublishesTtl o t) (fun infos => shown → ReadsTtl t infos)
      (getRecord U name recordType server dnsZone) := by
  refine .bind (.lift fun _ _ => trivial) fun _ _ => .bind (.lift fun _ _ => trivial) fun rts _ => ?_
  induction rts with
  | nil => exact .pure fun _ => .nil
  | cons rt rts ih =>
      refine .bind (ensures_getExistingRecordSet (by simp [PublishesTtl])) fun existing hexisting => ?_
      refine .bind (.lift fun _ h => h) fun info hinfo => .bind ih fun infos hinfos => .pure fun hs => ?_
      refine .append ?_ (hinfos hs)
      cases existing with
      | none =>
          rw [← Except.ok.inj hinfo]
          exact .nil
      | some rs =>
          obtain ⟨i, hi, heq⟩ := map_eq_ok_iff.mp hinfo
          obtain ⟨values, -, hi⟩ := bind_eq_ok hi
          have httl : rs.ttl = some t := hshows hs _ _ hexisting
          rw [← heq, ← Except.ok.inj hi]
          intro i hi
          rw [Option.mem_toList] at hi
          exact ⟨_, by rw [← Option.some.inj hi, httl], ttlOrDefault_twice _⟩

end

end Azure

/-! ## Cloudflare -/

namespace Cloudflare

/-- The request publishes a record with the TTL. -/
def PublishesTtl (o : HttpOp) (t : Int) : Prop :=
  ∃ body, o.body = some body ∧ body.get (lit "ttl") = .int t

/-- The records that are listed have the TTL. -/
def ShowsTtl (t : Int) : Prog.World httpSig
  | o, .ok ⟨_, some (.obj body)⟩ =>
      o.path ≠ lit "/zones" → ∀ rows, resultOf body = .ok rows →
        ∀ row ∈ objects rows, row.get (lit "ttl") = .int t
  | _, _ => True

section

variable {P : Platform} {cfg : Config} {w : Prog.World httpSig} {Q : HttpOp → Prop}

/-- One request. -/
theorem ensures_request {o : HttpOp} (h : Q o) :
    Ensures w Q (fun body => ∃ reply, w o reply ∧ readResponse P reply = .ok body) (request P o) :=
  ⟨h, fun reply hreply _ heq => ⟨reply, hreply, heq⟩⟩

/-- Finding the zone sends no body. -/
theorem ensures_resolveZoneId {zoneName : Str} (h : ∀ o : HttpOp, o.body = none → Q o) :
    Ensures w Q (fun _ => True) (resolveZoneId P cfg zoneName) := by
  unfold resolveZoneId
  split
  · exact .pure trivial
  · refine .bind (ensures_request (h _ rfl)) fun body _ => ?_
    exact .bind (.lift fun _ _ => trivial) fun rows _ => .lift fun _ _ => trivial

/-- The body that comes with a successful response. -/
theorem readResponse_eq_ok {reply : Except Str HttpResponse} {body : Dict}
    (h : readResponse P reply = .ok body) : ∃ statusCode, reply = .ok ⟨statusCode, some (.obj body)⟩ := by
  have hfailed : ∀ {statusCode x}, (do
      let message ← firstErrorMessage P x
      let message := message.getD (lit "HTTP " ++ natStr statusCode)
      throw (.runtimeError (lit "Cloudflare API error: " ++ message)) : Except Exc Dict) ≠ .ok body := by
    intro statusCode x h
    obtain ⟨_, -, h⟩ := bind_eq_ok h
    contradiction
  unfold readResponse at h
  split at h
  · contradiction
  · contradiction
  · next statusCode x =>
      dsimp only at h
      split at h
      · split at h
        · rw [← Except.ok.inj h]
          exact ⟨statusCode, rfl⟩
        · exact absurd h hfailed
      · exact absurd h hfailed

/-- A listing reads the TTL that is shown. -/
theorem ensures_listRecords {t : Int} {shown : Prop} (hshows : shown → ∀ o r, w o r → ShowsTtl t o r)
    {zoneId fqdn : Str} {rt : RecordType} (h : ∀ o : HttpOp, o.body = none → Q o) :
    Ensures w Q (fun rows => shown → ∀ row ∈ rows, row.get (lit "ttl") = .int t)
      (listRecords P zoneId fqdn rt) := by
  refine .bind (ensures_request (h _ rfl)) fun body hbody => ?_
  refine .bind (.lift fun _ h => h) fun rows hrows => .pure fun hs => ?_
  obtain ⟨reply, hreply, hread⟩ := hbody
  obtain ⟨statusCode, heq⟩ := readResponse_eq_ok hread
  have hworld := hshows hs _ _ hreply
  rw [heq] at hworld
  refine hworld ?_ rows hrows
  simp [recordsPath, lit]

/-- A body has the TTL. -/
theorem publishes_recordBody {fqdn value : Str} {rt : RecordType} {ttl : Int} {body : Dict}
    (h : recordBody P cfg fqdn rt value ttl = .ok body) : body.get (lit "ttl") = .int ttl := by
  unfold recordBody at h
  obtain ⟨data, -, h⟩ := bind_eq_ok h
  rw [← Except.ok.inj h]
  rfl

section Writes

variable {t : Target}

/-- Deleting rows sends no body. -/
theorem ensures_deleteRows {zoneId : Str} (h : ∀ o : HttpOp, o.body = none → Q o) (rows : List Dict) :
    Ensures w Q (fun _ => True) (deleteRows P zoneId rows) := by
  induction rows with
  | nil => exact .pure trivial
  | cons row rows ih =>
      have hrow : Ensures w Q (fun _ => True) (deleteRecord P zoneId row) :=
        .bind (.lift fun _ _ => trivial) fun recordId _ =>
          .bind (ensures_request (h _ rfl)) fun _ _ => .pure trivial
      exact .bind hrow fun _ _ => ih

/-- A created row has the TTL. -/
theorem ensures_createRecord {value : Str} :
    Ensures w (fun o => ∀ n, PublishesTtl o n → n = t.ttl) (fun _ => True)
      (createRecord P cfg t value) := by
  refine .bind (.lift fun _ h => h) fun body hbody => .bind (ensures_request ?_) fun _ _ => .pure trivial
  intro n hn
  obtain ⟨_, heq, hn⟩ := hn
  rw [← Option.some.inj heq, publishes_recordBody hbody] at hn
  exact (Json.int.inj hn).symm

/-- An updated row has the TTL. -/
theorem ensures_updateRecord {row : Dict} {value : Str} :
    Ensures w (fun o => ∀ n, PublishesTtl o n → n = t.ttl) (fun _ => True)
      (updateRecord P cfg t row value) := by
  refine .bind (.lift fun _ _ => trivial) fun recordId _ => ?_
  refine .bind (.lift fun _ h => h) fun body hbody => .bind (ensures_request ?_) fun _ _ => .pure trivial
  intro n hn
  obtain ⟨_, heq, hn⟩ := hn
  rw [← Option.some.inj heq, publishes_recordBody hbody] at hn
  exact (Json.int.inj hn).symm

/-- Every record that is written has the TTL of the record set. -/
theorem ensures_syncRecords {desired : List Str} {existing : List Dict} :
    Ensures w (fun o => ∀ n, PublishesTtl o n → n = t.ttl) (fun _ => True)
      (syncRecords P cfg t desired existing) := by
  have hbody : ∀ o : HttpOp, o.body = none → ∀ n, PublishesTtl o n → n = t.ttl := by
    simp +contextual [PublishesTtl]
  unfold syncRecords
  split
  · split
    · exact .throw
    · exact ensures_createRecord
    · exact .bind ensures_updateRecord fun _ _ => ensures_deleteRows hbody _
  · refine .bind (.lift fun _ _ => trivial) fun split _ => ?_
    refine .bind (ensures_deleteRows hbody _) fun _ _ => ?_
    induction desired with
    | nil => exact .pure trivial
    | cons content rest ih =>
        unfold writeValues
        split
        · exact .bind ensures_updateRecord fun _ _ => ih
        · exact .bind ensures_createRecord fun _ _ => ih

end Writes

/-- A mutation publishes the TTL of its payload. -/
theorem ensures_createOrUpdateRecord {payload : DnsRecordRequest} {server : Json} {dnsZone : Str} :
    Ensures w (fun o => ∀ t, PublishesTtl o t → t = ttlOrDefault payload.ttl) (fun _ => True)
      (createOrUpdateRecord P cfg payload server dnsZone) := by
  have hbody : ∀ o : HttpOp, o.body = none → ∀ n, PublishesTtl o n → n = ttlOrDefault payload.ttl := by
    simp +contextual [PublishesTtl]
  have hlist : ∀ {zoneId fqdn rt}, Ensures w
      (fun o => ∀ t, PublishesTtl o t → t = ttlOrDefault payload.ttl) (fun _ => True)
      (listRecords P zoneId fqdn rt) :=
    .bind (ensures_request (hbody _ rfl)) fun _ _ => .bind (.lift fun _ _ => trivial) fun _ _ =>
      .pure trivial
  refine .bind (.lift fun _ _ => trivial) fun zoneName _ => ?_
  refine .bind (ensures_resolveZoneId hbody) fun zoneId _ => ?_
  split
  · unfold deleteRecordSet
    split
    · exact .throw
    · refine .bind (.lift fun _ _ => trivial) fun rt _ => .bind hlist fun existing _ => ?_
      exact .bind (ensures_deleteRows hbody _) fun _ _ => .pure trivial
  · refine .bind (.lift fun _ _ => trivial) fun rt _ => .bind hlist fun existing _ => ?_
    refine .bind (.lift fun _ _ => trivial) fun desired _ => ?_
    exact .bind (ensures_syncRecords (t := ⟨_, _, _, ttlOrDefault payload.ttl⟩)) fun _ _ => .pure trivial

/-- The TTLs of rows that share one. -/
theorem mapM_ttlOf {t : Int} {rows : List Dict} (h : ∀ row ∈ rows, row.get (lit "ttl") = .int t) :
    rows.mapM (ttlOf P) = .ok (rows.map fun _ => some t) := by
  refine mapM_eq_ok_iff.mpr ?_
  rw [List.forall₂_map_right_iff]
  refine List.forall₂_same.mpr fun row hrow => ?_
  rw [ttlOf, h row hrow]

/-- What is read of rows that share a TTL. -/
theorem ttl_of_rowsToInfo {t : Int} {rows : List Dict} (hne : rows ≠ [])
    (h : ∀ row ∈ rows, row.get (lit "ttl") = .int t) {name : Str} {rt : RecordType}
    {info : DnsRecordInfo} (hinfo : rowsToInfo P name rt rows = .ok info) : info.ttl = some t := by
  unfold rowsToInfo at hinfo
  obtain ⟨ttls, httls, hinfo⟩ := bind_eq_ok hinfo
  obtain ⟨values, -, hinfo⟩ := bind_eq_ok hinfo
  rw [mapM_ttlOf h] at httls
  rw [← Except.ok.inj hinfo, ← Except.ok.inj httls]
  show ((rows.map fun _ => some t).filterMap id).min? = some t
  rw [List.min?_eq_some_iff]
  obtain ⟨row, rest, heq⟩ := List.exists_cons_of_ne_nil hne
  simp [heq]

/-- A lookup publishes nothing and reads the TTL that is shown. -/
theorem ensures_getRecord {t : Int} {shown : Prop} (hshows : shown → ∀ o r, w o r → ShowsTtl t o r)
    {name : Str} {recordType : Option Str} {server : Json} {dnsZone : Str} :
    Ensures w (fun o => ∀ t, ¬PublishesTtl o t) (fun infos => shown → ReadsTtl t infos)
      (getRecord P cfg name recordType server dnsZone) := by
  have hbody : ∀ o : HttpOp, o.body = none → ∀ t, ¬PublishesTtl o t := by
    simp +contextual [PublishesTtl]
  refine .bind (.lift fun _ _ => trivial) fun zoneName _ => ?_
  refine .bind (.lift fun _ _ => trivial) fun rts _ => .bind (ensures_resolveZoneId hbody) fun zoneId _ => ?_
  induction rts with
  | nil => exact .pure fun _ => .nil
  | cons rt rts ih =>
      refine .bind (ensures_listRecords hshows hbody) fun rows hrows => ?_
      refine .bind (.lift fun _ h => h) fun info hinfo => .bind ih fun infos hinfos => .pure fun hs => ?_
      refine .append ?_ (hinfos hs)
      split at hinfo
      · rw [← Except.ok.inj hinfo]
        exact .nil
      · next hne =>
          obtain ⟨i, hi, heq⟩ := map_eq_ok_iff.mp hinfo
          rw [← heq]
          intro j hj
          rw [List.mem_singleton] at hj
          exact ⟨t, by rw [hj]; exact ttl_of_rowsToInfo hne (hrows hs) hi, rfl⟩

end

end Cloudflare

/-! ## Microsoft -/

namespace Microsoft

/-- The text of a piece the plugin wrote. -/
def codeText : Piece Char → Option Str
  | .code text => some text
  | .quoted _ => none

/-- What a script assigns to `$TtlSeconds`. -/
def ttlText : Script → Option Str
  | .code a :: rest =>
      if a = lit "$TtlSeconds = " then rest.head?.bind codeText else ttlText rest
  | .quoted _ :: rest => ttlText rest
  | [] => none

/-- The line does not mention the variable. -/
def Silent (line : Script) : Bool :=
  line.all fun
    | .code a => a != lit "$TtlSeconds = "
    | .quoted _ => true

/-- Silent code sets no TTL. -/
theorem ttlText_append {S T : Script} (h : Silent S = true) : ttlText (S ++ T) = ttlText T := by
  induction S with
  | nil => rfl
  | cons piece S ih =>
      rw [Silent, List.all_cons, Bool.and_eq_true] at h
      cases piece with
      | code a =>
          rw [List.cons_append, ttlText, if_neg (by simpa using h.1)]
          exact ih h.2
      | quoted s => exact ih h.2

/-- Silent lines set no TTL. -/
theorem ttlText_joinLines {lines : List Script} (h : ∀ line ∈ lines, Silent line = true) :
    ttlText (joinLines lines) = none := by
  unfold joinLines
  induction lines with
  | nil => rfl
  | cons line rest ih =>
      rw [List.forall_mem_cons] at h
      cases rest with
      | nil => simpa [ttlText] using ttlText_append (T := []) h.1
      | cons line' rest =>
          rw [List.intercalate_cons_cons, List.append_assoc, ttlText_append h.1,
            ttlText_append (by decide)]
          exact ih h.2

/-- A piece of code is silent unless it sets the TTL. -/
theorem silent_cons_code {s : String} {line : Script} :
    Silent (code s :: line) = true ↔ s ≠ "$TtlSeconds = " ∧ Silent line = true := by
  rw [Silent, List.all_cons, Bool.and_eq_true]
  exact and_congr_left' (bne_iff_ne.trans (not_congr String.toList_inj))

/-- What is quoted is silent. -/
theorem silent_cons_quoted {s : Str} {line : Script} :
    Silent (quoted s :: line) = true ↔ Silent line = true := by
  simp [Silent, quoted]

theorem silent_nil : Silent [] = true := rfl

/-- The script that shows a record sets no TTL. -/
theorem ttlText_recordDetailsScript (U : Ucd) (server zone name : Str) (rt : RecordType) :
    ttlText (recordDetailsScript U server zone name rt) = none := by
  have hbody : ∀ line ∈ recordDetailsBody.map textLine, Silent line = true := by
    simp [recordDetailsBody, textLine, silent_cons_code, silent_nil]
  have hswitch : Silent [code "switch ('", .code rt.text, code "') \x7b"] = true := by
    cases rt <;> simp [RecordType.text, Silent, code, lit]
  refine ttlText_joinLines ?_
  rw [List.forall_mem_append, List.forall_mem_append]
  refine ⟨⟨?_, hbody⟩, by simp [silent_nil]⟩
  simp [hswitch, silent_cons_code, silent_cons_quoted, silent_nil]

/-- Nor does the one that looks for it. -/
theorem ttlText_recordExistsScript (server zone name rrType : Str) :
    ttlText (recordExistsScript server zone name rrType) = none := by
  have hsilent : Silent (recordExistsScript server zone name rrType) = true := by
    simp [recordExistsScript, silent_cons_code, silent_cons_quoted, silent_nil]
  simpa [ttlText] using ttlText_append (T := []) hsilent

/-- Nor does the one that deletes it. -/
theorem ttlText_deleteScript (server zone name rrType : Str) :
    ttlText (deleteScript server zone name rrType) = none := by
  refine ttlText_joinLines ?_
  simp [header, removeLine, silent_cons_code, silent_cons_quoted, silent_nil]

/-- The script that updates a record sets the TTL. -/
theorem ttlText_updateScript {U : Ucd} {server zone name : Str} {rt : RecordType} {ttl : Int}
    {values : List Str} {S : Script} (h : updateScript U server zone name rt ttl values = .ok S) :
    ttlText S = some (intStr ttl) := by
  unfold updateScript at h
  obtain ⟨lines, -, h⟩ := bind_eq_ok h
  rw [← Except.ok.inj h]
  rfl

/-- The script publishes a record set with the TTL. -/
def PublishesTtl (o : WinRmOp) (t : Int) : Prop := ttlText o.script = some (intStr t)

/-- The details that a script prints have the TTL. -/
def ShowsTtl (P : Platform) (t : Int) : Prog.World winRmSig
  | _, .ok out => ∀ data : Dict, P.loads (strip out) = some (.obj data) →
      data.get (lit "ttl") = .int t
  | _, _ => True

section

variable {P : Platform} {w : Prog.World winRmSig} {Q : WinRmOp → Prop}

/-- One script. -/
theorem ensures_runPs {server : Str} {script : Script} (h : Q ⟨server, script⟩) :
    Ensures w Q (fun out => w ⟨server, script⟩ (.ok out)) (runPs server script) := by
  refine ⟨h, fun reply hreply out heq => ?_⟩
  rwa [heq] at hreply

/-- Looking for a record sets no TTL. -/
theorem ensures_recordExists {server zone name rrType : Str}
    (h : ∀ o : WinRmOp, ttlText o.script = none → Q o) :
    Ensures w Q (fun _ => True) (recordExists P server zone name rrType) :=
  .bind (ensures_runPs (h _ (ttlText_recordExistsScript ..))) fun _ _ => .pure trivial

/-- A mutation publishes the TTL of its payload. -/
theorem ensures_createOrUpdateRecord {payload : DnsRecordRequest} {server : Json} {dnsZone : Str} :
    Ensures w (fun o => ∀ t, PublishesTtl o t → t = ttlOrDefault payload.ttl) (fun _ => True)
      (createOrUpdateRecord P payload server dnsZone) := by
  have hsilent : ∀ o : WinRmOp, ttlText o.script = none → ∀ t, PublishesTtl o t →
      t = ttlOrDefault payload.ttl := by
    simp +contextual [PublishesTtl]
  refine .bind (.lift fun _ _ => trivial) fun at_ _ => ?_
  obtain ⟨server, zone⟩ := at_
  dsimp only
  split
  · unfold deleteRecords
    split
    · exact .throw
    · refine .bind (.lift fun _ _ => trivial) fun rt _ => ?_
      refine .bind (ensures_recordExists hsilent) fun existed _ => ?_
      split
      · exact .pure trivial
      · exact .bind (ensures_runPs (hsilent _ (ttlText_deleteScript ..))) fun _ _ => .pure trivial
  · refine .bind (.lift fun _ _ => trivial) fun rt _ => .bind (.lift fun _ _ => trivial) fun values _ => ?_
    refine .bind (ensures_recordExists hsilent) fun existed _ => ?_
    refine .bind (.lift fun _ h => h) fun script hscript => ?_
    refine .bind (ensures_runPs ?_) fun _ _ => .pure trivial
    intro t ht
    rw [PublishesTtl, ttlText_updateScript hscript] at ht
    exact (intStr_inj.mp (Option.some.inj ht)).symm

/-- What is read of the printed details. -/
theorem ttl_of_readDetails {t : Int} {name out : Str} {rt : RecordType} {info : DnsRecordInfo}
    (h : readDetails P name rt out = .ok (some info))
    (hshows : ∀ data : Dict, P.loads (strip out) = some (.obj data) →
      data.get (lit "ttl") = .int t) :
    info.ttl = some t := by
  unfold readDetails at h
  split at h
  · simp at h
  · split at h
    · contradiction
    · next data hdata =>
        obtain ⟨fields, hfields, h⟩ := bind_eq_ok h
        obtain ⟨raws, -, h⟩ := bind_eq_ok h
        obtain ⟨values, -, h⟩ := bind_eq_ok h
        obtain ⟨entry, hentry, h⟩ := bind_eq_ok h
        obtain ⟨ttl, httl, h⟩ := bind_eq_ok h
        have hobj : data = .obj fields := by
          cases data with
          | obj fields' => rw [Except.ok.inj hfields]
          | _ => contradiction
        rw [hobj] at hdata
        have hentry : entry = .int t := by
          unfold subscript at hentry
          split at hentry
          · rw [← Except.ok.inj hentry, hshows fields hdata]
          · contradiction
        rw [hentry] at httl
        rw [← Option.some.inj (Except.ok.inj h), ← Except.ok.inj httl]

/-- A lookup publishes nothing and reads the TTL that is shown. -/
theorem ensures_getRecord {t : Int} {shown : Prop} (hshows : shown → ∀ o r, w o r → ShowsTtl P t o r)
    {name : Str} {recordType : Option Str} {server : Json} {dnsZone : Str} :
    Ensures w (fun o => ∀ t, ¬PublishesTtl o t) (fun infos => shown → ReadsTtl t infos)
      (getRecord P name recordType server dnsZone) := by
  refine .bind (.lift fun _ _ => trivial) fun at_ _ => .bind (.lift fun _ _ => trivial) fun rts _ => ?_
  obtain ⟨server, zone⟩ := at_
  induction rts with
  | nil => exact .pure fun _ => .nil
  | cons rt rts ih =>
      have hdetails : Ensures w (fun o => ∀ t, ¬PublishesTtl o t)
          (fun info => shown → ∀ i ∈ info, i.ttl = some t)
          (getRecordDetails P server zone (dnsRelativeName P.ucd zone name) rt) := by
        refine .bind (ensures_runPs (by simp [PublishesTtl, ttlText_recordDetailsScript])) fun out hout => ?_
        refine .lift fun info hinfo hs i hi => ?_
        rw [hi] at hinfo
        exact ttl_of_readDetails hinfo (hshows hs _ _ hout)
      refine .bind hdetails fun info hinfo => .bind ih fun infos hinfos => .pure fun hs => ?_
      exact (ReadsTtl.toList (hinfo hs)).append (hinfos hs)

end

end Microsoft

/-! ## the plugins -/

/-- The calls of a plugin to its provider, and what they say of TTLs. -/
structure ProviderApi where
  sig : Sig
  client : (o : ProviderOp) → Prog sig (ProviderOp.Reply o)
  /-- the call publishes a record set with the TTL -/
  publishesTtl : sig.Op → Int → Prop
  /-- the reply shows no other TTL -/
  showsTtl : Int → Prog.World sig

section

variable (P : Platform) (d : Bind.DnsPython) (cfg : Cloudflare.Config)

/-- The calls of a plugin. -/
def Plugin.api : Plugin → ProviderApi
  | azure => ⟨Azure.sdkSig, Azure.client P.ucd, Azure.PublishesTtl, Azure.ShowsTtl⟩
  | bind => ⟨Bind.netSig, Bind.client P.ucd d, Bind.PublishesTtl, Bind.ShowsTtl⟩
  | cloudflare =>
      ⟨Cloudflare.httpSig, Cloudflare.client P cfg, Cloudflare.PublishesTtl, Cloudflare.ShowsTtl⟩
  | microsoft =>
      ⟨Microsoft.winRmSig, Microsoft.client P, Microsoft.PublishesTtl, Microsoft.ShowsTtl P⟩

/-- The write has the TTL, the default standing for 0. -/
def ProviderOp.WritesTtl (t : Int) : ProviderOp → Prop
  | getRecord .. => True
  | createOrUpdateRecord payload .. => ttlOrDefault payload.ttl = ttlOrDefault (some t)

/-- The lookups read the TTL, if it is the one the provider shows. -/
def LooksUpTtl (shown : Prop) (t : Int) : Prog.World providerSig
  | .getRecord .., reply => ∀ infos, reply = .ok infos → shown → ReadsTtl t infos
  | .createOrUpdateRecord .., _ => True

variable {P d cfg}

/-- Every plugin keeps to the TTL of the operation. -/
theorem Plugin.ensures_client (plugin : Plugin) {w : Prog.World (plugin.api P d cfg).sig} {t : Int}
    {shown : Prop} (hshows : shown → ∀ o r, w o r → (plugin.api P d cfg).showsTtl t o r)
    (o : ProviderOp) (ho : o.WritesTtl t) :
    ((plugin.api P d cfg).client o).Ensures w
      (fun o => ∀ t', (plugin.api P d cfg).publishesTtl o t' → t' = ttlOrDefault (some t))
      (LooksUpTtl shown t o) := by
  cases o with
  | getRecord name recordType server dnsZone =>
      cases plugin with
      | azure => exact (Azure.ensures_getRecord hshows).mono (fun _ h t' ht => absurd ht (h t')) fun _ h => h
      | bind => exact (Bind.ensures_getRecord hshows).mono (fun _ h t' ht => absurd ht (h t')) fun _ h => h
      | cloudflare =>
          exact (Cloudflare.ensures_getRecord hshows).mono (fun _ h t' ht => absurd ht (h t')) fun _ h => h
      | microsoft =>
          exact (Microsoft.ensures_getRecord hshows).mono (fun _ h t' ht => absurd ht (h t')) fun _ h => h
  | createOrUpdateRecord payload server dnsZone =>
      rw [← show ttlOrDefault payload.ttl = ttlOrDefault (some t) from ho]
      cases plugin with
      | azure => exact Azure.ensures_createOrUpdateRecord.mono (fun _ h => h) fun _ _ => trivial
      | bind => exact Bind.ensures_createOrUpdateRecord.mono (fun _ h => h) fun _ _ => trivial
      | cloudflare => exact Cloudflare.ensures_createOrUpdateRecord.mono (fun _ h => h) fun _ _ => trivial
      | microsoft => exact Microsoft.ensures_createOrUpdateRecord.mono (fun _ h => h) fun _ _ => trivial

end

/-! ## the requests -/

/-- A request that writes records, once it is authorised: of the API or of the
admin record browser. -/
inductive WriteRequest where
  | api (c : MutationCall)
  | browser (c : BrowserChange)
deriving DecidableEq, Repr

namespace WriteRequest

/-- The provider calls of a request. -/
def calls (U : Ucd) (settings : Dict) (zoneName : Str) : WriteRequest → Prog providerSig Unit
  | api c => (c.run U settings zoneName).prog >>= fun _ => .ret ()
  | browser c => (c.run U settings zoneName).prog >>= fun _ => .ret ()

/-- The request carries the TTL: it sets it, or it is a PATCH without a TTL of
records that have it. -/
def CarriesTtl (shown : Prop) (t : Int) : WriteRequest → Prop
  | api c =>
      c.mode ≠ .delete ∧ (c.ttlToCheck = some t ∨ c.mode = .patch ∧ c.patchTtl = none ∧ shown)
  | browser c => (c.mode = .create ∨ c.mode = .replace) ∧ c.ttl = some t

end WriteRequest

section

variable {U : Ucd} {settings : Dict} {zoneName zone : Str} {shown : Prop} {t : Int}

/-- A lookup of the provider reads the TTL that is shown. -/
theorem ensures_lookup {name : Str} {recordType : Option Str} {server : Json} {dnsZone : Str} :
    Code.Ensures (LooksUpTtl shown t) (ProviderOp.WritesTtl t)
      (fun infos => shown → ReadsTtl t infos) (getRecord name recordType server dnsZone) :=
  ⟨trivial, fun _ h => h⟩

/-- Writing a payload, once it is validated. -/
theorem ensures_write {payload : DnsRecordRequest} {server : Json} {dnsZone : Str}
    {o : DnsMutationOutcome} (h : ttlOrDefault payload.ttl = ttlOrDefault (some t)) :
    Code.Ensures (LooksUpTtl shown t) (ProviderOp.WritesTtl t) (fun _ => True) (do
      let internal ← Code.lift (payload.validate U)
      let _ ← createOrUpdateRecord internal server dnsZone
      return o) := by
  refine .bind (.lift fun _ h => DnsRecordRequest.validate_ok U h) fun internal hinternal => ?_
  have hwrite : Code.Ensures (LooksUpTtl shown t) (ProviderOp.WritesTtl t) (fun _ => True)
      (createOrUpdateRecord internal server dnsZone) := by
    rw [hinternal]
    exact ⟨h, fun _ _ _ _ => trivial⟩
  exact .bind hwrite fun _ _ => .pure trivial

/-- `apply_rrset_mutation` writes the TTL it is given. -/
theorem ensures_applyRrsetMutation {recordName : Str} {rt : RecordType} {values : List Str}
    {mode : Mode} (hmode : mode ≠ .delete) :
    Code.Ensures (LooksUpTtl shown t) (ProviderOp.WritesTtl t) (fun _ => True)
      (applyRrsetMutation U settings zoneName recordName rt (some t) values mode) := by
  have hexists : Code.Ensures (LooksUpTtl shown t) (ProviderOp.WritesTtl t) (fun _ => True)
      (recordExistsAtType U settings recordName rt) :=
    .bind (.lift fun _ _ => trivial) fun _ _ =>
      .bind (ensures_lookup (t := t)) fun _ _ => .pure trivial
  refine .bind (.lift fun _ _ => trivial) fun zone _ => .bind hexists fun exists_ _ => ?_
  rw [if_neg hmode]
  split
  · exact .pure trivial
  · split
    · exact .pure trivial
    · exact ensures_write rfl

/-- A patch writes its TTL, or the one that is shown. -/
theorem ensures_applyPatchMutation {recordName : Str} {rt : RecordType} {patchTtl : Option Int}
    {patchValues : Option (List Str)} (h : patchTtl = some t ∨ patchTtl = none ∧ shown) :
    Code.Ensures (LooksUpTtl shown t) (ProviderOp.WritesTtl t) (fun _ => True)
      (applyPatchMutation U settings zoneName recordName rt patchTtl patchValues) := by
  refine .bind (.lift fun _ _ => trivial) fun zone _ => .bind ensures_lookup fun records hrecords => ?_
  cases records with
  | nil => exact .pure trivial
  | cons existing rest =>
      refine .bind (.lift fun _ h => h) fun merged hmerged => ensures_write ?_
      obtain ⟨ttl', v, vs, hread, -, hm⟩ | ⟨-, hm⟩ := mergePatch_cases existing patchTtl patchValues
      · rw [← Except.ok.inj (hm.symm.trans hmerged)]
        rcases h with h | ⟨h, hs⟩
        · rw [h]
          rfl
        · obtain ⟨t', ht', httl⟩ := hrecords hs existing List.mem_cons_self
          rw [h, ← httl, ← Option.some.inj (hread.symm.trans ht')]
          rfl
      · rw [hm] at hmerged
        contradiction

/-- A request writes the TTL it carries. -/
theorem WriteRequest.ensures_calls {r : WriteRequest} (h : r.CarriesTtl shown t) :
    (r.calls U settings zoneName).Ensures (LooksUpTtl shown t) (ProviderOp.WritesTtl t)
      fun _ => True := by
  cases r with
  | browser c =>
      obtain ⟨hmode, httl⟩ := h
      have hdelete : c.mode ≠ .delete := by
        rcases hmode with hmode | hmode <;> simp [hmode]
      have hrun : Code.Ensures (LooksUpTtl shown t) (ProviderOp.WritesTtl t) (fun _ => True)
          (c.run U settings zoneName) := by
        refine .bind (.lift fun _ _ => trivial) fun zone _ => ?_
        refine .bind (.lift fun _ h => h) fun p hp => ?_
        have hp := (prepareMutation_ok hp).2.1
        rw [httl] at hp
        rw [← (validateTtl_ok hp).2.2]
        exact ensures_applyRrsetMutation hdelete
      exact Prog.Ensures.bind hrun fun _ _ => trivial
  | api c =>
      obtain ⟨hdelete, hcarries⟩ := h
      have hrun : Code.Ensures (LooksUpTtl shown t) (ProviderOp.WritesTtl t) (fun _ => True)
          (c.run U settings zoneName) := by
        refine .bind (.lift fun _ _ => trivial) fun zone _ => ?_
        refine .bind (.lift fun _ h => h) fun p hp => ?_
        obtain ⟨-, -, httl⟩ := validateTtl_ok (prepareMutation_ok hp).2.1
        split
        · next hmode =>
            rw [MutationCall.ttlToCheck, if_pos hmode] at httl hcarries
            refine .tryCatch (.bind (ensures_applyPatchMutation ?_) fun _ _ => .pure trivial)
              fun exc => ?_
            · cases hpatch : c.patchTtl with
              | none => exact .inr ⟨rfl, (hcarries.resolve_left (by simp [hpatch])).2.2⟩
              | some ttl =>
                  have heq := hcarries.resolve_right (by simp [hpatch])
                  rw [heq] at httl hpatch
                  exact .inl (congrArg some httl.symm)
            · cases exc <;> first | exact .throw | exact .pure trivial
        · next hmode =>
            rw [hcarries.resolve_right (by simp [hmode])] at httl
            rw [← show t = p.ttl from httl]
            exact .bind (ensures_applyRrsetMutation hdelete) fun _ _ => .pure trivial
      exact Prog.Ensures.bind hrun fun _ _ => trivial

end

/-! ## the TTL that is published -/

section

variable {P : Platform} {d : Bind.DnsPython} {cfg : Cloudflare.Config}

/-- What a plugin publishes for a request is the TTL the request carries, or the
default for 0. -/
theorem Plugin.publishesTtl_eq (plugin : Plugin) {w : Prog.World (plugin.api P d cfg).sig}
    {settings : Dict} {zoneName : Str} {r : WriteRequest} {t t' : Int}
    {o : (plugin.api P d cfg).sig.Op}
    (hr : r.CarriesTtl (∀ o r, w o r → (plugin.api P d cfg).showsTtl t o r) t)
    (ho : ((r.calls P.ucd settings zoneName).translate (plugin.api P d cfg).client).IssuesIn w o)
    (ht : (plugin.api P d cfg).publishesTtl o t') : t' = ttlOrDefault (some t) :=
  ((WriteRequest.ensures_calls hr).translate (plugin.ensures_client id)).of_issuesIn ho t' ht

/-- A plugin publishes the accepted TTL, and no other, unless it is 0: whatever
the provider answers, if the request comes to be published at all. -/
theorem ttl_published_iff (plugin : Plugin) {w : Prog.World (plugin.api P d cfg).sig}
    (settings : Dict) (zoneName : Str) {r : WriteRequest} {t : Int}
    (hr : r.CarriesTtl (∀ o r, w o r → (plugin.api P d cfg).showsTtl t o r) t)
    (hpublished : ∃ o t', ((r.calls P.ucd settings zoneName).translate
      (plugin.api P d cfg).client).IssuesIn w o ∧ (plugin.api P d cfg).publishesTtl o t') :
    (∀ o t', ((r.calls P.ucd settings zoneName).translate (plugin.api P d cfg).client).IssuesIn w o →
      (plugin.api P d cfg).publishesTtl o t' → t' = t) ↔ t ≠ 0 := by
  rw [← ttlOrDefault_eq_iff]
  constructor
  · intro h
    obtain ⟨o, t', ho, ht'⟩ := hpublished
    rw [← plugin.publishesTtl_eq hr ho ht', h o t' ho ht']
  · intro h o t' ho ht'
    rw [plugin.publishesTtl_eq hr ho ht', h]

end

/-- An empty zone that takes every change. -/
def Azure.emptyZone : (o : Azure.SdkOp) → Azure.SdkOp.Reply o
  | .get .. => .ok none
  | .createOrUpdate .. => .ok ()
  | .delete .. => .ok false

/-- POST of an address with the TTL. -/
def postAddress (ttl : Int) : WriteRequest :=
  .api ⟨none, lit "www", lit "A", some ttl, [lit "192.0.2.1"], .create, none, none⟩

/-- The zone the address is added to. -/
def exampleSettings : Dict := [(lit "dns_zone", .str (lit "example.com"))]

/-- What serving the call asks of Azure in the empty zone. -/
def azureProgram (ttl : Int) : Prog Azure.sdkSig Unit :=
  ((postAddress ttl).calls Ucd.ascii exampleSettings []).translate (Azure.client Ucd.ascii)

/-- Two lookups, and the record set with the TTL or its default. -/
theorem issued_azureProgram {ttl : Int} (h : ttl = 0 ∨ ttl = 600) :
    (azureProgram ttl).issued Azure.emptyZone =
      [.get (lit "example.com") (lit "www") .a, .get (lit "example.com") (lit "www") .a,
        .createOrUpdate (lit "example.com") (lit "www") .a
          { ttl := some (ttlOrDefault (some ttl)), aRecords := [lit "192.0.2.1"] }] := by
  rcases h with h | h <;> rw [h] <;> decide +kernel

/-- The program publishes the TTL, or the default for 0. -/
theorem issuesIn_azureProgram {ttl : Int} (h : ttl = 0 ∨ ttl = 600) :
    ∃ o, (azureProgram ttl).IssuesIn (fun o r => r = Azure.emptyZone o) o ∧
      Azure.PublishesTtl o (ttlOrDefault (some ttl)) := by
  refine ⟨.createOrUpdate (lit "example.com") (lit "www") .a
    { ttl := some (ttlOrDefault (some ttl)), aRecords := [lit "192.0.2.1"] }, ?_, rfl⟩
  simp [← Prog.mem_issued_iff, issued_azureProgram h]

theorem ttl_published_600 :
    (∀ o t', (azureProgram 600).IssuesIn (fun o r => r = Azure.emptyZone o) o →
      Azure.PublishesTtl o t' → t' = 600) ↔ (600 : Int) ≠ 0 :=
  @ttl_published_iff .plain (.plain .ascii) ⟨none, false⟩ .azure _ exampleSettings [] _ _
    ⟨by decide, .inl rfl⟩
    ((issuesIn_azureProgram (.inr rfl)).imp fun _ h => ⟨_, h⟩)

/-- The TTL 0 is accepted, and 300 is published. -/
theorem zero_published_as_default :
    TtlOk 0 ∧ ¬∀ o t', (azureProgram 0).IssuesIn (fun o r => r = Azure.emptyZone o) o →
      Azure.PublishesTtl o t' → t' = 0 := by
  refine ⟨by decide, fun h => ?_⟩
  obtain ⟨o, ho, hpublished⟩ := issuesIn_azureProgram (.inl rfl)
  exact absurd (h o _ ho hpublished) (by decide)

end ApiToDns
