import ApiToDns.CloudflareFailure

/-!
# CloudflarePages

The calls of the Cloudflare client at an API that lists a bounded number of
rows.  `_list_records` asks for one page, so the calls see the whole record set
exactly if it fits into one (`seesWhole_iff`).
-/

namespace ApiToDns.Cloudflare

open Py Code

section

variable {σ : Type}

/-- An API that answers every request of the client with success, and lists at
most `size` rows of a record set. -/
structure Pages (P : Platform) (cfg : Config) (h : Handler httpSig σ) (zoneName zoneId : Str)
    (size : Nat) (rows : σ → List Dict) : Prop where
  resolve : ∀ s, ∃ s', (resolveZoneId P cfg zoneName).run h s = (.ok zoneId, s') ∧ rows s' = rows s
  list : ∀ s fqdn (rt : RecordType), ∃ body s',
    (request P ⟨.get, recordsPath zoneId, [(lit "name", fqdn), (lit "type", rt.text)], none⟩).run h s =
      (.ok body, s') ∧ rows s' = rows s ∧
    body.get (lit "result") = .arr ((((rows s).filter (inRRset fqdn rt)).take size).map .obj)
  change : ∀ (c : Change) s, ∃ body s', (request P (c.op zoneId)).run h s = (.ok body, s') ∧
    c.Made (rows s) (rows s')

/-- What is read of all rows of the record set. -/
def WholeInfo (P : Platform) (t : Target) (displayName : Str) (existing : List Dict)
    (infos : List DnsRecordInfo) : Prop :=
  (if existing = [] then .ok [] else ([·]) <$> rowsToInfo P displayName t.rt existing) = .ok infos

/-- The calls of the client see all rows of the record set: a lookup returns the
values of all of them, a deletion leaves none, and a replace leaves none but
those of the wanted values. -/
structure SeesWhole (P : Platform) (cfg : Config) (h : Handler httpSig σ) (rows : σ → List Dict)
    (t : Target) (desired : List Str) (payload : DnsRecordRequest) (server : Json) (dnsZone : Str)
    (s : σ) : Prop where
  get : ∃ infos s', (getRecord P cfg payload.recordName (some t.rt.text) server dnsZone).run h s =
      (.ok infos, s') ∧
    WholeInfo P t (relativeName P.ucd (bareName dnsZone) t.fqdn)
      ((rows s).filter (inRRset t.fqdn t.rt)) infos
  delete : ∃ existed s',
    (createOrUpdateRecord P cfg ⟨payload.zoneName, deleteType, payload.recordName, payload.ttl,
      [t.rt.text]⟩ server dnsZone).run h s = (.ok existed, s') ∧
    (rows s').filter (inRRset t.fqdn t.rt) = []
  replace : ∃ existed s', (createOrUpdateRecord P cfg payload server dnsZone).run h s =
      (.ok existed, s') ∧
    ∀ row ∈ (rows s').filter (inRRset t.fqdn t.rt), ∃ value ∈ desired, Written P cfg t value row

section

variable {P : Platform} {cfg : Config} {h : Handler httpSig σ} {zoneName zoneId fqdn : Str}
  {size : Nat} {rows : σ → List Dict} {t : Target} {values desired : List Str} {s : σ}

/-- Listing a record set finds its first page. -/
theorem run_listRecords_page (hp : Pages P cfg h zoneName zoneId size rows) (s : σ) (fqdn : Str)
    (rt : RecordType) :
    ∃ s', (listRecords P zoneId fqdn rt).run h s =
        (.ok (((rows s).filter (inRRset fqdn rt)).take size), s') ∧ rows s' = rows s := by
  obtain ⟨body, s', hrun, hrows, hresult⟩ := hp.list s fqdn rt
  refine ⟨s', ?_, hrows⟩
  generalize ((rows s).filter (inRRset fqdn rt)).take size = listed at hresult
  have hfound : resultOf body = .ok (listed.map .obj) := by
    rw [resultOf, hresult]
    cases listed <;> rfl
  unfold listRecords
  rw [run_bind_ok hrun, hfound, lift_ok, pure_bind, objects_map_obj]
  rfl

/-- Changes are made one after the other. -/
theorem run_performAll_page (hp : Pages P cfg h zoneName zoneId size rows) (cs : List Change) (s : σ) :
    ∃ s', (performAll P zoneId cs).run h s = (.ok (), s') ∧ AllMade cs (rows s) (rows s') := by
  induction cs generalizing s with
  | nil => exact ⟨s, rfl, rfl⟩
  | cons c cs ih =>
      obtain ⟨body, s₁, hrun, hmade⟩ := hp.change c s
      obtain ⟨s', hrest, hall⟩ := ih s₁
      refine ⟨s', ?_, rows s₁, hmade, hall⟩
      rw [performAll, run_bind_ok hrun, hrest]

/-- Rows that are deleted. -/
theorem run_deleteRows_page (hp : Pages P cfg h zoneName zoneId size rows) {gone : List Dict}
    (hids : ∀ row ∈ gone, (idOf row).isSome) (s : σ) :
    ∃ s', (deleteRows P zoneId gone).run h s = (.ok (), s') ∧
      rows s' = (rows s).filter fun row => idOf row ∉ gone.map idOf := by
  rw [deleteRows_eq hids]
  obtain ⟨s', hrun, hmade⟩ := run_performAll_page hp (gone.map deleteOf) s
  exact ⟨s', hrun, allMade_deletes hids hmade⟩

/-- A replace of all rows that are there leaves rows of the wanted values. -/
theorem run_syncRecords_page (hp : Pages P cfg h zoneName t.zoneId size rows)
    (hids : Identified (rows s))
    (hnormal : normalizeRecordValues P.ucd t.rt values = .ok desired)
    (hread : ∃ read, ((rows s).filter (inRRset t.fqdn t.rt)).mapM (canonicalFromRow P t.rt) = .ok read) :
    ∃ s', (syncRecords P cfg t desired ((rows s).filter (inRRset t.fqdn t.rt))).run h s = (.ok (), s') ∧
      ∀ row ∈ (rows s').filter (inRRset t.fqdn t.rt), ∃ value ∈ desired, Written P cfg t value row := by
  have hbody : ∀ value ∈ desired, HasBody P cfg t value := hasBody_of_normal hnormal
  have hsome := (hids.filter (inRRset t.fqdn t.rt)).1
  by_cases hcname : t.rt = .cname
  · obtain ⟨value, rfl⟩ := (normalizeRecordValues_ok hnormal).2 hcname
    have hvalue := hbody value List.mem_cons_self
    rw [syncRecords_cname_eq hcname hsome hvalue]
    obtain ⟨s', hrun, hmade⟩ := run_performAll_page hp
      (cnameChanges P cfg t value ((rows s).filter (inRRset t.fqdn t.rt))) s
    obtain ⟨row, -, hrow, hw⟩ := left_of_cnameChanges hids hvalue hmade
    refine ⟨s', hrun, fun row' hrow' => ⟨value, List.mem_cons_self, ?_⟩⟩
    rw [hrow] at hrow'
    rwa [List.mem_singleton.mp hrow']
  · have hsplit := splitRows_of_read P t desired ((rows s).filter (inRRset t.fqdn t.rt)) []
    obtain ⟨read, hread⟩ := hread
    rw [hread] at hsplit
    obtain ⟨kept, stale, hsplit⟩ := hsplit
    rw [syncRecords_eq hcname hsome hbody hsplit]
    obtain ⟨s', hrun, hmade⟩ := run_performAll_page hp (changes P cfg t desired kept stale) s
    obtain ⟨entries, hleft⟩ := left_of_changes hids hsplit hbody hmade
    exact ⟨s', hrun, fun row hrow => hleft.written_of_mem hrow⟩

/-! ## the client -/

section Client

variable {payload : DnsRecordRequest} {server : Json} {dnsZone : Str}

/-- A lookup reads the page of rows that is listed. -/
theorem run_getRecord_page (hp : Pages P cfg h (bareName dnsZone) t.zoneId size rows)
    (hcheck : checkTarget server dnsZone = .ok (bareName dnsZone))
    (howner : t.fqdn = owner P.ucd dnsZone payload.recordName) {infos : List DnsRecordInfo}
    (hinfos : WholeInfo P t (relativeName P.ucd (bareName dnsZone) t.fqdn)
      (((rows s).filter (inRRset t.fqdn t.rt)).take size) infos) :
    ∃ s', (getRecord P cfg payload.recordName (some t.rt.text) server dnsZone).run h s =
      (.ok infos, s') := by
  obtain ⟨s₁, hresolve, hrows₁⟩ := hp.resolve s
  obtain ⟨s₂, hlist, -⟩ := run_listRecords_page hp s₁ t.fqdn t.rt
  rw [hrows₁] at hlist
  refine ⟨s₂, ?_⟩
  unfold getRecord
  rw [checkLookup_of_checkTarget hcheck, lookupRecordTypesToQuery_text, lift_ok, lift_ok, pure_bind]
  dsimp only
  rw [pure_bind, run_bind_ok hresolve, queryTypes, ← owner, ← howner, run_bind_ok hlist]
  rw [WholeInfo] at hinfos
  rw [hinfos]
  simp [lift_ok, queryTypes]

/-- A deletion leaves what is beyond the first page. -/
theorem run_delete_page (hp : Pages P cfg h (bareName dnsZone) t.zoneId size rows)
    (hids : Identified (rows s))
    (hcheck : checkTarget server dnsZone = .ok (bareName dnsZone))
    (howner : t.fqdn = owner P.ucd dnsZone payload.recordName) (hmutable : t.rt.isMutable = true) :
    ∃ existed s',
      (createOrUpdateRecord P cfg ⟨payload.zoneName, deleteType, payload.recordName, payload.ttl,
        [t.rt.text]⟩ server dnsZone).run h s = (.ok existed, s') ∧
      (rows s').filter (inRRset t.fqdn t.rt) = ((rows s).filter (inRRset t.fqdn t.rt)).drop size := by
  obtain ⟨s₁, hresolve, hrows₁⟩ := hp.resolve s
  obtain ⟨s₂, hlist, hrows₂⟩ := run_listRecords_page hp s₁ t.fqdn t.rt
  rw [hrows₁] at hlist hrows₂
  have hsome := (hids.filter (inRRset t.fqdn t.rt)).1
  have hgone : ∀ row ∈ ((rows s).filter (inRRset t.fqdn t.rt)).take size, (idOf row).isSome :=
    fun row hrow => hsome row (List.mem_of_mem_take hrow)
  obtain ⟨s₃, hdelete, hrows₃⟩ := run_deleteRows_page hp hgone s₂
  refine ⟨!(((rows s).filter (inRRset t.fqdn t.rt)).take size).isEmpty, s₃, ?_, ?_⟩
  · unfold createOrUpdateRecord
    rw [hcheck, lift_ok, pure_bind]
    dsimp only
    rw [run_bind_ok hresolve, if_pos (upper_deleteType P.ucd), deleteRecordSet, upperType_text,
      supportedType_text hmutable, lift_ok, pure_bind, ← owner, ← howner, run_bind_ok hlist,
      run_bind_ok hdelete]
    rfl
  · rw [hrows₃, hrows₂, List.filter_filter, List.filter_congr (fun row _ => Bool.and_comm _ _),
      ← List.filter_filter, filter_not_mem_take (hids.filter (inRRset t.fqdn t.rt)).2]

/-- A replace of rows that are on one page and can be read leaves the wanted values. -/
theorem run_replace_page (hp : Pages P cfg h (bareName dnsZone) t.zoneId size rows)
    (hids : Identified (rows s))
    (hcheck : checkTarget server dnsZone = .ok (bareName dnsZone))
    (ht : t = targetOf P.ucd t.zoneId dnsZone t.rt payload)
    (hrt : P.ucd.upper payload.recordType = t.rt.text) (hmutable : t.rt.isMutable = true)
    (hnormal : normalizeRecordValues P.ucd t.rt payload.values = .ok desired)
    (hread : ∃ read, ((rows s).filter (inRRset t.fqdn t.rt)).mapM (canonicalFromRow P t.rt) = .ok read)
    (hfits : ((rows s).filter (inRRset t.fqdn t.rt)).length ≤ size) :
    ∃ existed s', (createOrUpdateRecord P cfg payload server dnsZone).run h s = (.ok existed, s') ∧
      ∀ row ∈ (rows s').filter (inRRset t.fqdn t.rt), ∃ value ∈ desired, Written P cfg t value row := by
  obtain ⟨s₁, hresolve, hrows₁⟩ := hp.resolve s
  obtain ⟨s₂, hlist, hrows₂⟩ := run_listRecords_page hp s₁ t.fqdn t.rt
  rw [hrows₁] at hlist hrows₂
  rw [List.take_of_length_le hfits] at hlist
  rw [← hrows₂] at hids hread
  obtain ⟨s₃, hsync, hwritten⟩ := run_syncRecords_page hp hids hnormal hread
  rw [hrows₂] at hsync
  refine ⟨!((rows s).filter (inRRset t.fqdn t.rt)).isEmpty, s₃, ?_, hwritten⟩
  have howner : t.fqdn = fqdn P.ucd (bareName dnsZone) payload.recordName := by rw [ht]; rfl
  have htarget : (⟨t.zoneId, t.fqdn, t.rt, ttlOrDefault payload.ttl⟩ : Target) = t := by
    rw [ht]
    rfl
  unfold createOrUpdateRecord
  rw [hcheck, lift_ok, pure_bind]
  dsimp only
  rw [run_bind_ok hresolve, hrt, if_neg t.rt.text_ne_delete, writeRecordSet,
    supportedType_text hmutable, lift_ok, pure_bind, ← howner, run_bind_ok hlist, hnormal, lift_ok,
    pure_bind, htarget, run_bind_ok hsync]
  rfl

/-- What is read of all rows can be read of each. -/
theorem WholeInfo.readable {displayName : Str} {existing : List Dict} {infos : List DnsRecordInfo}
    (h : WholeInfo P t displayName existing infos) :
    ∃ info, rowsToInfo P displayName t.rt existing = .ok info := by
  rw [WholeInfo] at h
  split at h
  · next hnil =>
      rw [hnil]
      exact ⟨_, rfl⟩
  · obtain ⟨info, hinfo, -⟩ := map_eq_ok_iff.mp h
    exact ⟨info, hinfo⟩

/-- At an API that lists a bounded number of rows, the calls see all rows of the
record set exactly if their number is within the bound and each can be read. -/
theorem seesWhole_iff (hp : Pages P cfg h (bareName dnsZone) t.zoneId size rows)
    (hids : Identified (rows s))
    (hcheck : checkTarget server dnsZone = .ok (bareName dnsZone))
    (ht : t = targetOf P.ucd t.zoneId dnsZone t.rt payload)
    (hrt : P.ucd.upper payload.recordType = t.rt.text) (hmutable : t.rt.isMutable = true)
    (hnormal : normalizeRecordValues P.ucd t.rt payload.values = .ok desired) :
    SeesWhole P cfg h rows t desired payload server dnsZone s ↔
      ((rows s).filter (inRRset t.fqdn t.rt)).length ≤ size ∧
        ∃ info, rowsToInfo P (relativeName P.ucd (bareName dnsZone) t.fqdn) t.rt
          ((rows s).filter (inRRset t.fqdn t.rt)) = .ok info := by
  have howner : t.fqdn = owner P.ucd dnsZone payload.recordName := by rw [ht]; rfl
  obtain ⟨existed, s', hdelete, hleft⟩ := run_delete_page hp hids hcheck howner hmutable
  constructor
  · intro hsees
    obtain ⟨existed', s'', hdelete', hnone⟩ := hsees.delete
    rw [hdelete] at hdelete'
    obtain ⟨-, rfl⟩ := Prod.ext_iff.mp hdelete'
    rw [hleft, List.drop_eq_nil_iff] at hnone
    obtain ⟨infos, -, -, hinfos⟩ := hsees.get
    exact ⟨hnone, hinfos.readable⟩
  · intro hcond
    obtain ⟨hfits, info, hinfo⟩ := hcond
    have hvalues : ∃ read, ((rows s).filter (inRRset t.fqdn t.rt)).mapM (canonicalFromRow P t.rt) =
        .ok read := by
      obtain ⟨ttls, -, hinfo⟩ := bind_eq_ok hinfo
      obtain ⟨read, hread, -⟩ := bind_eq_ok hinfo
      exact ⟨read, hread⟩
    refine ⟨?_, ⟨existed, s', hdelete, ?_⟩,
      run_replace_page hp hids hcheck ht hrt hmutable hnormal hvalues hfits⟩
    · obtain ⟨infos, hinfos⟩ : ∃ infos, WholeInfo P t (relativeName P.ucd (bareName dnsZone) t.fqdn)
          ((rows s).filter (inRRset t.fqdn t.rt)) infos := by
        unfold WholeInfo
        split
        · exact ⟨[], rfl⟩
        · exact ⟨[info], by rw [hinfo]; rfl⟩
      have hpage := hinfos
      rw [← List.take_of_length_le hfits] at hpage
      obtain ⟨s₁, hget⟩ := run_getRecord_page hp hcheck howner hpage
      exact ⟨infos, s₁, hget, hinfos⟩
    · rw [hleft, List.drop_eq_nil_of_le hfits]

end Client

end

end

/-! ### two texts on pages of one row -/

/-- A Cloudflare that never fails and lists at most `size` rows of a record set
of the zone `z1`. -/
def pager (size : Nat) : Handler httpSig (List Dict) := fun o rows =>
  if o.method = .get then (success (.arr (((listing rows o.params).take size).map .obj)), rows)
  else keeper o rows

/-- The pager serves pages of the size. -/
theorem pager_pages (P : Platform) (zoneName : Str) (size : Nat) :
    Pages P unproxied (pager size) zoneName (lit "z1") size id where
  resolve s := ⟨s, rfl, rfl⟩
  list s fqdn rt := ⟨_, s, rfl, rfl, rfl⟩
  change c s := by
    cases c with
    | create fields => exact ⟨_, _, rfl, freshId s, freshId_fresh s, rfl⟩
    | update id fields => exact ⟨_, _, rfl, rfl⟩
    | delete id => exact ⟨_, _, rfl, rfl⟩

/-- `www.example.com` gets the texts `three` and `four`. -/
def threePayload : DnsRecordRequest := ⟨none, lit "TXT", lit "www", none, [lit "three", lit "four"]⟩

/-- Two texts are replaced by two others where a page has room for them. -/
theorem seesWhole_iff_text :
    SeesWhole .plain unproxied (pager 2) id (wwwTarget .txt) [lit "three", lit "four"] threePayload
      .null (lit "example.com") wwwTexts := by
  have hp : Pages .plain unproxied (pager 2) (bareName (lit "example.com")) (wwwTarget .txt).zoneId 2
      id := pager_pages .plain _ 2
  have hnormal : normalizeRecordValues Platform.plain.ucd (wwwTarget .txt).rt threePayload.values =
      .ok [lit "three", lit "four"] := by decide
  exact (seesWhole_iff (s := wwwTexts) hp identified_wwwTexts (by decide) rfl (by decide) rfl
    hnormal).mpr ⟨by decide, _, rfl⟩

/-- The second of two texts is not deleted. -/
theorem second_page_not_seen :
    Pages .plain unproxied (pager 1) (lit "example.com") (lit "z1") 1 id ∧
      ¬SeesWhole .plain unproxied (pager 1) id (wwwTarget .txt) [lit "three", lit "four"] threePayload
        .null (lit "example.com") wwwTexts := by
  refine ⟨pager_pages .plain _ 1, fun hsees => ?_⟩
  obtain ⟨existed, s', hrun, hnone⟩ := hsees.delete
  have hleft : (createOrUpdateRecord .plain unproxied ⟨none, deleteType, lit "www", none, [lit "TXT"]⟩
      .null (lit "example.com")).run (pager 1) wwwTexts = (.ok true, wwwTexts.drop 1) := rfl
  have hrun' := hleft.symm.trans hrun
  obtain ⟨-, rfl⟩ := Prod.ext_iff.mp hrun'
  exact absurd hnone (by decide)

end ApiToDns.Cloudflare
