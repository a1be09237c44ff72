import ApiToDns.Plugins.Cloudflare

/-!
# CloudflareSync

What `_sync_records` leaves at an API that keeps rows: every row of the RRset
is written for a wanted value, and every wanted value has its row
(`run_syncRecords_ok`).
-/

namespace ApiToDns.Cloudflare

open Py Code

/-! ## rows -/

/-- A field of a row that holds a text. -/
def textField (row : Dict) (key : Str) : Option Str :=
  match row.get key with
  | .str s => some s
  | _ => none

/-- A field of text. -/
theorem textField_eq_some_iff {row : Dict} {key s : Str} :
    textField row key = some s ↔ row.get key = .str s := by
  unfold textField
  cases row.get key <;> simp

/-- The id of a row. -/
def idOf (row : Dict) : Option Str := textField row (lit "id")

/-- The row is in the RRset. -/
def inRRset (fqdn : Str) (rt : RecordType) (row : Dict) : Bool :=
  textField row (lit "type") = some rt.text ∧
    (textField row (lit "name")).map foldAscii = some (foldAscii fqdn)

/-- The first field is found. -/
theorem get_cons_self (key : Str) (x : Json) (d : Dict) : Dict.get ((key, x) :: d) key = x := by
  simp [Dict.get]

/-- A field that is not null is there. -/
theorem has_of_get {d : Dict} {key : Str} (h : Dict.get d key ≠ .null) : Dict.has d key = true := by
  unfold Dict.get at h
  split at h
  · next field hfound =>
      have hkey := List.find?_some hfound
      exact List.any_eq_true.mpr ⟨field, List.mem_of_find?_eq_some hfound, hkey⟩
  · contradiction

/-- A row as the API answers a body with it. -/
def rowOf (id : Str) (body : Dict) : Dict := (lit "id", .str id) :: body

/-- A stored row has its id. -/
@[simp] theorem idOf_rowOf (id : Str) (body : Dict) : idOf (rowOf id body) = some id := by
  simp [idOf, textField_eq_some_iff, rowOf, get_cons_self]

/-- What an API that keeps the rows of a zone does when it answers a request
with success. -/
structure Keeps (P : Platform) {σ : Type} (h : Handler httpSig σ) (zoneId : Str)
    (rows : σ → List Dict) : Prop where
  zones : ∀ {s s' : σ} {reply body zoneName},
    h { method := .get, path := lit "/zones", params := [(lit "name", zoneName)] } s = (reply, s') →
    readResponse P reply = .ok body → rows s' = rows s ∧
      ∀ found id, resultOf body = .ok found → findZoneId P zoneName found = .ok id → id = zoneId
  list : ∀ {s s' : σ} {reply body fqdn} {rt : RecordType},
    h { method := .get, path := recordsPath zoneId,
        params := [(lit "name", fqdn), (lit "type", rt.text)] } s = (reply, s') →
    readResponse P reply = .ok body → rows s' = rows s ∧
      body.get (lit "result") = .arr (((rows s).filter (inRRset fqdn rt)).map .obj)
  create : ∀ {s s' : σ} {reply body} {fields : Dict},
    h { method := .post, path := recordsPath zoneId, body := some fields } s = (reply, s') →
    readResponse P reply = .ok body →
      ∃ id, some id ∉ (rows s).map idOf ∧ rows s' = rows s ++ [rowOf id fields]
  update : ∀ {s s' : σ} {reply body id} {fields : Dict},
    h { method := .put, path := recordPath zoneId id, body := some fields } s = (reply, s') →
    readResponse P reply = .ok body →
      rows s' = (rows s).map fun row => if idOf row = some id then rowOf id fields else row
  delete : ∀ {s s' : σ} {reply body id},
    h { method := .delete, path := recordPath zoneId id } s = (reply, s') →
    readResponse P reply = .ok body → rows s' = (rows s).filter fun row => idOf row ≠ some id

section

variable {P : Platform} {cfg : Config} {σ : Type} {h : Handler httpSig σ} {zoneId fqdn : Str}
  {rows : σ → List Dict} {s s' : σ} {rt : RecordType}

/-- A request that succeeds had an answer that can be read. -/
theorem run_request_ok {o : HttpOp} {body : Dict} (hr : (request P o).run h s = (.ok body, s')) :
    ∃ reply, h o s = (reply, s') ∧ readResponse P reply = .ok body := by
  generalize hreply : h o s = answer at *
  obtain ⟨reply, s₁⟩ := answer
  have hr : (readResponse P (h o s).1, (h o s).2) = (.ok body, s') := hr
  rw [hreply] at hr
  obtain ⟨hread, rfl⟩ := Prod.ext_iff.mp hr
  exact ⟨reply, rfl, hread⟩

/-- A list of objects is its objects. -/
theorem objects_map_obj (ds : List Dict) : objects (ds.map .obj) = ds := by
  simp [objects, List.filterMap_map]

/-- The rows of the RRset are listed. -/
theorem run_listRecords_ok (hk : Keeps P h zoneId rows) {listed : List Dict}
    (hr : (listRecords P zoneId fqdn rt).run h s = (.ok listed, s')) :
    listed = (rows s).filter (inRRset fqdn rt) ∧ rows s' = rows s := by
  obtain ⟨body, s₁, hrequest, hr⟩ := run_bind_eq_ok hr
  obtain ⟨found, hfound, hr⟩ := run_lift_bind_eq_ok hr
  obtain ⟨rfl, rfl⟩ := run_pure_eq_ok.mp hr
  obtain ⟨reply, hreply, hread⟩ := run_request_ok hrequest
  obtain ⟨hrows, hresult⟩ := hk.list hreply hread
  refine ⟨?_, hrows⟩
  have hfound' : found = ((rows s).filter (inRRset fqdn rt)).map .obj := by
    rw [resultOf, hresult] at hfound
    generalize ((rows s).filter (inRRset fqdn rt)).map Json.obj = items at hfound
    cases items <;> exact (Except.ok.inj hfound).symm
  rw [hfound', objects_map_obj]

/-- The id of a row. -/
theorem rowId_eq {row : Dict} {id : Str} (hid : idOf row = some id) : rowId P row = .ok id := by
  have hget := textField_eq_some_iff.mp hid
  have hhas : Dict.has row (lit "id") = true := has_of_get (by rw [hget]; simp)
  rw [rowId, subscript, if_pos hhas, hget]
  simp

/-- A deleted row is gone. -/
theorem run_deleteRecord_ok (hk : Keeps P h zoneId rows) {row : Dict} {id : Str}
    (hid : idOf row = some id) (hr : (deleteRecord P zoneId row).run h s = (.ok (), s')) :
    rows s' = (rows s).filter fun row => idOf row ≠ some id := by
  obtain ⟨id', hid', hr⟩ := run_lift_bind_eq_ok hr
  rw [rowId_eq hid] at hid'
  obtain rfl := Except.ok.inj hid'
  obtain ⟨body, s₁, hrequest, hr⟩ := run_bind_eq_ok hr
  obtain ⟨-, rfl⟩ := run_pure_eq_ok.mp hr
  obtain ⟨reply, hreply, hread⟩ := run_request_ok hrequest
  exact hk.delete hreply hread

/-- Deleted rows are gone. -/
theorem run_deleteRows_ok (hk : Keeps P h zoneId rows) {stale : List Dict}
    (hids : ∀ row ∈ stale, (idOf row).isSome)
    (hr : (deleteRows P zoneId stale).run h s = (.ok (), s')) :
    rows s' = (rows s).filter fun row => idOf row ∉ stale.map idOf := by
  induction stale generalizing s with
  | nil =>
      obtain ⟨-, rfl⟩ := run_pure_eq_ok.mp hr
      simp
  | cons row stale ih =>
      rw [List.forall_mem_cons] at hids
      obtain ⟨id, hid⟩ := Option.isSome_iff_exists.mp hids.1
      obtain ⟨_, s₁, hdelete, hr⟩ := run_bind_eq_ok hr
      rw [ih hids.2 hr, run_deleteRecord_ok hk hid hdelete, List.filter_filter]
      simp [hid, Bool.and_comm]

/-! ## the rows that keep their value -/

/-- The rows are split into those that keep a wanted value, each value once,
and the others. -/
theorem splitRows_ok {t : Target} {desired : List Str} {existing stale : List Dict}
    {kept kept' : List (Str × Dict)}
    (hr : splitRows P t desired existing kept = .ok (kept', stale)) :
    ∃ added, kept' = kept ++ added ∧ (added.map Prod.snd ++ stale).Perm existing ∧
      (∀ entry ∈ added, entry.1 ∈ desired) ∧
      ((kept.map Prod.fst).Nodup → (kept'.map Prod.fst).Nodup) := by
  induction existing generalizing kept stale with
  | nil =>
      obtain ⟨rfl, rfl⟩ := Prod.ext_iff.mp (Except.ok.inj hr)
      exact ⟨[], by simp, .refl _, by simp, id⟩
  | cons row existing ih =>
      obtain ⟨content, -, hr⟩ := bind_eq_ok hr
      split at hr
      · next hkeep =>
          obtain ⟨added, rfl, hperm, hdesired, hnodup⟩ := ih hr
          refine ⟨(content, row) :: added, by simp, hperm.cons row, ?_, fun h => hnodup ?_⟩
          · exact List.forall_mem_cons.mpr ⟨hkeep.1, hdesired⟩
          · rw [List.map_append, List.map_singleton, ← List.concat_eq_append]
            exact (List.nodup_concat _ _).mpr ⟨hkeep.2, h⟩
      · obtain ⟨⟨kept'', stale'⟩, hrest, hr⟩ := bind_eq_ok hr
        obtain ⟨rfl, rfl⟩ := Prod.ext_iff.mp (Except.ok.inj hr)
        obtain ⟨added, heq, hperm, hdesired, hnodup⟩ := ih hrest
        exact ⟨added, heq, List.perm_middle.trans (hperm.cons row), hdesired, hnodup⟩

/-! ## writing the values -/

/-- The row is written for the value. -/
def Written (P : Platform) (cfg : Config) (t : Target) (value : Str) (row : Dict) : Prop :=
  ∃ id body, recordBody P cfg t.fqdn t.rt value t.ttl = .ok body ∧ row = rowOf id body

/-- A row that is written is in the RRset. -/
theorem Written.inRRset {t : Target} {value : Str} {row : Dict} (hw : Written P cfg t value row) :
    inRRset t.fqdn t.rt row = true := by
  obtain ⟨id, body, hbody, rfl⟩ := hw
  obtain ⟨data, -, hbody⟩ := bind_eq_ok hbody
  rw [← Except.ok.inj hbody]
  simp [Cloudflare.inRRset, textField, rowOf, Dict.get, lit]

/-- Rows under their values: one row for a value, with an id of its own. -/
structure Keyed (kept : List (Str × Dict)) : Prop where
  values : ∀ e ∈ kept, ∀ e' ∈ kept, e.1 = e'.1 → e = e'
  ids : ∀ e ∈ kept, ∀ e' ∈ kept, idOf e.2 = idOf e'.2 → e = e'
  isSome : ∀ e ∈ kept, (idOf e.2).isSome

/-- The rows while the values `todo` of `desired` remain to be written, `kept`
being the rows that are written over. -/
structure Progress (P : Platform) (cfg : Config) (t : Target) (kept : List (Str × Dict))
    (desired todo : List Str) (rows : List Dict) : Prop where
  row : ∀ row ∈ rows, Cloudflare.inRRset t.fqdn t.rt row = true →
    (∃ value ∈ desired, Written P cfg t value row) ∨
      ∃ e ∈ kept, e.1 ∈ todo ∧ idOf row = idOf e.2
  written : ∀ value ∈ desired, value ∈ todo ∨
    ∃ row ∈ rows, Written P cfg t value row ∧ ∀ e ∈ kept, idOf row = idOf e.2 → e.1 = value
  kept : ∀ e ∈ kept, ∃ row ∈ rows, idOf row = idOf e.2

section Steps

variable {t : Target} {kept : List (Str × Dict)} {desired todo : List Str} {rows : List Dict}
  {value id : Str} {body : Dict}

/-- A value is written over the row that has it. -/
theorem Progress.update (hp : Progress P cfg t kept desired (value :: todo) rows)
    (hkept : Keyed kept) (hvalue : value ∈ desired) {old : Dict} (hold : (value, old) ∈ kept)
    (hid : idOf old = some id) (hbody : recordBody P cfg t.fqdn t.rt value t.ttl = .ok body) :
    Progress P cfg t kept desired todo
      (rows.map fun row => if idOf row = some id then rowOf id body else row) := by
  have hnew : Written P cfg t value (rowOf id body) := ⟨id, body, hbody, rfl⟩
  have hother {row : Dict} (hrow : row ∈ rows) (hne : idOf row ≠ some id) :
      row ∈ rows.map fun row => if idOf row = some id then rowOf id body else row :=
    List.mem_map.mpr ⟨row, hrow, if_neg hne⟩
  have hthis {row : Dict} (hrow : row ∈ rows) (heq : idOf row = some id) :
      rowOf id body ∈ rows.map fun row => if idOf row = some id then rowOf id body else row :=
    List.mem_map.mpr ⟨row, hrow, if_pos heq⟩
  -- only the value's own row has the id
  have hown : ∀ e ∈ kept, idOf (rowOf id body) = idOf e.2 → e.1 = value := by
    intro e he heq
    rw [hkept.ids e he _ hold (by rw [← heq, idOf_rowOf, hid])]
  refine ⟨?_, ?_, ?_⟩
  · intro row hrow hin
    obtain ⟨row', hrow', rfl⟩ := List.mem_map.mp hrow
    by_cases hthis' : idOf row' = some id
    · rw [if_pos hthis'] at *
      exact .inl ⟨value, hvalue, hnew⟩
    · rw [if_neg hthis'] at *
      refine (hp.row row' hrow' hin).imp (fun h => h) fun ⟨e, he, htodo, heq⟩ => ⟨e, he, ?_, heq⟩
      refine (List.mem_cons.mp htodo).resolve_left fun hfst => hthis' ?_
      rw [heq, hkept.values e he _ hold hfst, hid]
  · intro v hv
    by_cases hfst : v = value
    · obtain ⟨row, hrow, heq⟩ := hp.kept _ hold
      exact .inr ⟨_, hthis hrow (heq.trans hid), hfst ▸ hnew, by rw [hfst]; exact hown⟩
    · rcases hp.written v hv with htodo | ⟨row, hrow, hwritten, honly⟩
      · exact .inl ((List.mem_cons.mp htodo).resolve_left hfst)
      · refine .inr ⟨row, hother hrow fun heq => hfst ?_, hwritten, honly⟩
        exact (honly _ hold (heq.trans hid.symm)).symm
  · intro e he
    obtain ⟨row, hrow, heq⟩ := hp.kept e he
    by_cases hthis' : idOf row = some id
    · exact ⟨_, hthis hrow hthis', by rw [idOf_rowOf, ← heq, hthis']⟩
    · exact ⟨row, hother hrow hthis', heq⟩

/-- A value without a row gets a new one. -/
theorem Progress.create (hp : Progress P cfg t kept desired (value :: todo) rows)
    (hvalue : value ∈ desired) (hnone : ∀ e ∈ kept, e.1 ≠ value) (hfresh : some id ∉ rows.map idOf)
    (hbody : recordBody P cfg t.fqdn t.rt value t.ttl = .ok body) :
    Progress P cfg t kept desired todo (rows ++ [rowOf id body]) := by
  have hnew : Written P cfg t value (rowOf id body) := ⟨id, body, hbody, rfl⟩
  refine ⟨?_, ?_, ?_⟩
  · intro row hrow hin
    rcases List.mem_append.mp hrow with hrow | hrow
    · refine (hp.row row hrow hin).imp (fun h => h) fun ⟨e, he, htodo, heq⟩ => ⟨e, he, ?_, heq⟩
      exact (List.mem_cons.mp htodo).resolve_left (hnone e he)
    · rw [List.mem_singleton.mp hrow]
      exact .inl ⟨value, hvalue, hnew⟩
  · intro v hv
    by_cases hfst : v = value
    · refine .inr ⟨_, List.mem_append_right _ List.mem_cons_self, hfst ▸ hnew, fun e he heq => ?_⟩
      obtain ⟨row, hrow, heq'⟩ := hp.kept e he
      rw [idOf_rowOf] at heq
      exact absurd (List.mem_map.mpr ⟨row, hrow, heq'.trans heq.symm⟩) hfresh
    · rcases hp.written v hv with htodo | ⟨row, hrow, hwritten⟩
      · exact .inl ((List.mem_cons.mp htodo).resolve_left hfst)
      · exact .inr ⟨row, List.mem_append_left _ hrow, hwritten⟩
  · intro e he
    obtain ⟨row, hrow, heq⟩ := hp.kept e he
    exact ⟨row, List.mem_append_left _ hrow, heq⟩

end Steps

/-! ## the run -/

section Run

variable {t : Target} {kept : List (Str × Dict)} {desired todo : List Str} {value : Str}

/-- A created row is there. -/
theorem run_createRecord_ok (hk : Keeps P h t.zoneId rows)
    (hr : (createRecord P cfg t value).run h s = (.ok (), s')) :
    ∃ id body, recordBody P cfg t.fqdn t.rt value t.ttl = .ok body ∧
      some id ∉ (rows s).map idOf ∧ rows s' = rows s ++ [rowOf id body] := by
  obtain ⟨fields, hfields, hr⟩ := run_lift_bind_eq_ok hr
  obtain ⟨body, s₁, hrequest, hr⟩ := run_bind_eq_ok hr
  obtain ⟨-, rfl⟩ := run_pure_eq_ok.mp hr
  obtain ⟨reply, hreply, hread⟩ := run_request_ok hrequest
  obtain ⟨id, hfresh, hrows⟩ := hk.create hreply hread
  exact ⟨id, fields, hfields, hfresh, hrows⟩

/-- An updated row says the value. -/
theorem run_updateRecord_ok (hk : Keeps P h t.zoneId rows) {row : Dict} {id : Str}
    (hid : idOf row = some id) (hr : (updateRecord P cfg t row value).run h s = (.ok (), s')) :
    ∃ body, recordBody P cfg t.fqdn t.rt value t.ttl = .ok body ∧
      rows s' = (rows s).map fun row => if idOf row = some id then rowOf id body else row := by
  obtain ⟨id', hid', hr⟩ := run_lift_bind_eq_ok hr
  rw [rowId_eq hid] at hid'
  obtain rfl := Except.ok.inj hid'
  obtain ⟨fields, hfields, hr⟩ := run_lift_bind_eq_ok hr
  obtain ⟨body, s₁, hrequest, hr⟩ := run_bind_eq_ok hr
  obtain ⟨-, rfl⟩ := run_pure_eq_ok.mp hr
  obtain ⟨reply, hreply, hread⟩ := run_request_ok hrequest
  exact ⟨fields, hfields, hk.update hreply hread⟩

/-- A row that is found is among those kept. -/
theorem mem_of_lookup_eq_some {kept : List (Str × Dict)} {row : Dict}
    (hl : kept.lookup value = some row) : (value, row) ∈ kept := by
  induction kept with
  | nil => contradiction
  | cons e kept ih =>
      obtain ⟨v, r⟩ := e
      rw [List.lookup_cons] at hl
      split at hl
      · next heq =>
          rw [beq_iff_eq.mp heq, Option.some.inj hl]
          exact List.mem_cons_self
      · exact List.mem_cons_of_mem _ (ih hl)

/-- A value that is not found is not among those kept. -/
theorem ne_of_lookup_eq_none {kept : List (Str × Dict)} (hl : kept.lookup value = none) :
    ∀ e ∈ kept, e.1 ≠ value := by
  intro e he heq
  have hkey := List.lookup_eq_none_iff.mp hl e he
  simp [heq] at hkey

/-- Writing the values writes every one of them. -/
theorem run_writeValues_ok (hk : Keeps P h t.zoneId rows) (hkept : Keyed kept)
    (htodo : ∀ value ∈ todo, value ∈ desired) (hp : Progress P cfg t kept desired todo (rows s))
    (hr : (writeValues P cfg t kept todo).run h s = (.ok (), s')) :
    Progress P cfg t kept desired [] (rows s') := by
  induction todo generalizing s with
  | nil =>
      obtain ⟨-, rfl⟩ := run_pure_eq_ok.mp hr
      exact hp
  | cons value todo ih =>
      rw [List.forall_mem_cons] at htodo
      unfold writeValues at hr
      cases hl : kept.lookup value with
      | some row =>
          simp only [hl] at hr
          obtain ⟨_, s₁, hwrite, hr⟩ := run_bind_eq_ok hr
          have hmem := mem_of_lookup_eq_some hl
          obtain ⟨id, hid⟩ := Option.isSome_iff_exists.mp (hkept.isSome _ hmem)
          obtain ⟨body, hbody, hrows⟩ := run_updateRecord_ok hk hid hwrite
          refine ih htodo.2 ?_ hr
          rw [hrows]
          exact hp.update hkept htodo.1 hmem hid hbody
      | none =>
          simp only [hl] at hr
          obtain ⟨_, s₁, hwrite, hr⟩ := run_bind_eq_ok hr
          obtain ⟨id, body, hbody, hfresh, hrows⟩ := run_createRecord_ok hk hwrite
          refine ih htodo.2 ?_ hr
          rw [hrows]
          exact hp.create htodo.1 (ne_of_lookup_eq_none hl) hfresh hbody

/-- Every row of the RRset is written for a wanted value, and every wanted
value has a row. -/
def Synced (P : Platform) (cfg : Config) (t : Target) (desired : List Str) (rows : List Dict) : Prop :=
  (∀ row ∈ rows, Cloudflare.inRRset t.fqdn t.rt row = true →
    ∃ value ∈ desired, Written P cfg t value row) ∧
  ∀ value ∈ desired, ∃ row ∈ rows, Written P cfg t value row

/-- With nothing left to do the rows are in sync. -/
theorem Progress.synced {rows : List Dict} (hp : Progress P cfg t kept desired [] rows) :
    Synced P cfg t desired rows := by
  refine ⟨fun row hrow hin => ?_, fun value hvalue => ?_⟩
  · refine (hp.row row hrow hin).resolve_right ?_
    rintro ⟨e, -, htodo, -⟩
    contradiction
  · obtain ⟨row, hrow, hwritten, -⟩ := (hp.written value hvalue).resolve_left (by simp)
    exact ⟨row, hrow, hwritten⟩

/-- The rows of a zone have ids of their own. -/
def Identified (rows : List Dict) : Prop :=
  (∀ row ∈ rows, (idOf row).isSome) ∧ (rows.map idOf).Nodup

/-- The order of the rows does not matter. -/
theorem Identified.perm {rows rows' : List Dict} (hids : Identified rows) (hp : rows'.Perm rows) :
    Identified rows' :=
  ⟨fun row hrow => hids.1 row (hp.subset hrow), (hp.map idOf).nodup_iff.mpr hids.2⟩

/-- Some of the rows have ids of their own if all have. -/
theorem Identified.filter {rows : List Dict} (hids : Identified rows) (p : Dict → Bool) :
    Identified (rows.filter p) :=
  ⟨fun row hrow => hids.1 row (List.mem_of_mem_filter hrow),
    hids.2.sublist (List.filter_sublist.map idOf)⟩

/-- What is left of the rows of the RRset once the stale ones are deleted. -/
theorem progress_of_split {existing : List Dict} {stale : List Dict} {rows rows' : List Dict}
    (hexisting : existing = rows.filter (inRRset t.fqdn t.rt)) (hids : Identified existing)
    (hr : splitRows P t desired existing [] = .ok (kept, stale))
    (hrows : rows' = rows.filter fun row => idOf row ∉ stale.map idOf) :
    Keyed kept ∧ Progress P cfg t kept desired desired rows' := by
  obtain ⟨added, hkept, hperm, hdesired, hnodup⟩ := splitRows_ok hr
  rw [List.nil_append] at hkept
  subst hkept
  obtain ⟨hsome, hdistinct⟩ := hids.perm hperm
  rw [List.map_append, List.nodup_append] at hdistinct
  obtain ⟨hkeptIds, -, hdisjoint⟩ := hdistinct
  rw [List.map_map] at hkeptIds
  refine ⟨⟨?_, ?_, ?_⟩, ⟨?_, fun value hvalue => .inl hvalue, ?_⟩⟩
  · exact fun e he e' he' heq => List.inj_on_of_nodup_map (hnodup .nil) he he' heq
  · exact fun e he e' he' heq => List.inj_on_of_nodup_map hkeptIds he he' heq
  · exact fun e he => hsome _ (List.mem_append_left _ (List.mem_map_of_mem he))
  · intro row hrow hin
    rw [hrows, List.mem_filter, decide_eq_true_eq] at hrow
    have hmem : row ∈ kept.map Prod.snd ++ stale :=
      hperm.mem_iff.mpr (hexisting ▸ List.mem_filter.mpr ⟨hrow.1, hin⟩)
    rcases List.mem_append.mp hmem with hmem | hmem
    · obtain ⟨e, he, rfl⟩ := List.mem_map.mp hmem
      exact .inr ⟨e, he, hdesired e he, rfl⟩
    · exact absurd (List.mem_map_of_mem hmem) hrow.2
  · intro e he
    have hmem : e.2 ∈ existing := hperm.subset (List.mem_append_left _ (List.mem_map_of_mem he))
    rw [hexisting] at hmem
    refine ⟨e.2, ?_, rfl⟩
    rw [hrows, List.mem_filter, decide_eq_true_eq]
    refine ⟨List.mem_of_mem_filter hmem, fun hstale => ?_⟩
    exact hdisjoint _ (List.mem_map_of_mem (List.mem_map_of_mem he)) _ hstale rfl

/-- The one value of a CNAME is written over its first row, or to a new one. -/
theorem run_syncCname_ok (hk : Keeps P h t.zoneId rows) (hids : Identified (rows s))
    (hcname : t.rt = .cname)
    (hr : (syncRecords P cfg t [value] ((rows s).filter (inRRset t.fqdn t.rt))).run h s =
      (.ok (), s')) :
    Synced P cfg t [value] (rows s') := by
  unfold syncRecords at hr
  rw [if_pos hcname] at hr
  have hidsR := hids.filter (inRRset t.fqdn t.rt)
  have hinR : ∀ row ∈ rows s, inRRset t.fqdn t.rt row = true →
      row ∈ (rows s).filter (inRRset t.fqdn t.rt) :=
    fun row hrow hin => List.mem_filter.mpr ⟨hrow, hin⟩
  have hsub : ∀ row ∈ (rows s).filter (inRRset t.fqdn t.rt), row ∈ rows s :=
    fun row hrow => List.mem_of_mem_filter hrow
  generalize (rows s).filter (inRRset t.fqdn t.rt) = existing at hr hidsR hinR hsub
  cases existing with
  | nil =>
      obtain ⟨id, body, hbody, -, hrows⟩ := run_createRecord_ok hk hr
      have hnew : Written P cfg t value (rowOf id body) := ⟨id, body, hbody, rfl⟩
      rw [hrows]
      refine ⟨fun row hrow hin => ⟨value, List.mem_cons_self, ?_⟩, fun v hv => ⟨rowOf id body, ?_, ?_⟩⟩
      · rcases List.mem_append.mp hrow with hrow | hrow
        · exact absurd (hinR row hrow hin) (List.not_mem_nil)
        · rwa [List.mem_singleton.mp hrow]
      · exact List.mem_append_right _ List.mem_cons_self
      · rwa [List.mem_singleton.mp hv]
  | cons first rest =>
      obtain ⟨_, s₁, hupdate, hr⟩ := run_bind_eq_ok hr
      obtain ⟨hsome, hdistinct⟩ := hidsR
      rw [List.map_cons, List.nodup_cons] at hdistinct
      rw [List.forall_mem_cons] at hsome
      obtain ⟨id, hid⟩ := Option.isSome_iff_exists.mp hsome.1
      obtain ⟨body, hbody, hrows⟩ := run_updateRecord_ok hk hid hupdate
      have hnew : Written P cfg t value (rowOf id body) := ⟨id, body, hbody, rfl⟩
      rw [run_deleteRows_ok hk hsome.2 hr, hrows]
      refine ⟨fun row hrow hin => ⟨value, List.mem_cons_self, ?_⟩, fun v hv => ⟨rowOf id body, ?_, ?_⟩⟩
      · rw [List.mem_filter, decide_eq_true_eq] at hrow
        obtain ⟨hrow, hstale⟩ := hrow
        obtain ⟨row', hrow', rfl⟩ := List.mem_map.mp hrow
        by_cases hthis : idOf row' = some id
        · rwa [if_pos hthis]
        · rw [if_neg hthis] at hin hstale
          rcases List.mem_cons.mp (hinR row' hrow' hin) with heq | hmem
          · exact absurd (heq ▸ hid) hthis
          · exact absurd (List.mem_map_of_mem hmem) hstale
      · rw [List.mem_filter, decide_eq_true_eq, idOf_rowOf, ← hid]
        exact ⟨List.mem_map.mpr ⟨first, hsub first List.mem_cons_self, if_pos rfl⟩, hdistinct.1⟩
      · rwa [List.mem_singleton.mp hv]

/-- `_sync_records` leaves the wanted values. -/
theorem run_syncRecords_ok (hk : Keeps P h t.zoneId rows) (hids : Identified (rows s))
    (hdesired : t.rt = .cname → ∃ value, desired = [value])
    (hr : (syncRecords P cfg t desired ((rows s).filter (inRRset t.fqdn t.rt))).run h s =
      (.ok (), s')) :
    Synced P cfg t desired (rows s') := by
  by_cases hcname : t.rt = .cname
  · obtain ⟨value, rfl⟩ := hdesired hcname
    exact run_syncCname_ok hk hids hcname hr
  · unfold syncRecords at hr
    rw [if_neg hcname] at hr
    obtain ⟨⟨kept, stale⟩, hsplit, hr⟩ := run_lift_bind_eq_ok hr
    obtain ⟨_, s₁, hdelete, hr⟩ := run_bind_eq_ok hr
    have hidsR := hids.filter (inRRset t.fqdn t.rt)
    have hstale : ∀ row ∈ stale, (idOf row).isSome := by
      obtain ⟨added, -, hperm, -⟩ := splitRows_ok hsplit
      exact fun row hrow => hidsR.1 row (hperm.subset (List.mem_append_right _ hrow))
    obtain ⟨hkeyed, hprogress⟩ :=
      progress_of_split rfl hidsR hsplit (run_deleteRows_ok hk hstale hdelete)
    exact (run_writeValues_ok hk hkeyed (fun _ h => h) hprogress hr).synced

end Run

/-! ## before the run -/

/-- The zone is found. -/
theorem run_resolveZoneId_ok (hk : Keeps P h zoneId rows) (hcfg : ∀ z ∈ cfg.zoneId, z = zoneId)
    {zoneName id : Str} (hr : (resolveZoneId P cfg zoneName).run h s = (.ok id, s')) :
    id = zoneId ∧ rows s' = rows s := by
  unfold resolveZoneId at hr
  split at hr
  · next z hz =>
      obtain ⟨rfl, rfl⟩ := run_pure_eq_ok.mp hr
      exact ⟨hcfg z hz, rfl⟩
  · obtain ⟨body, s₁, hrequest, hr⟩ := run_bind_eq_ok hr
    obtain ⟨found, hfound, hr⟩ := run_lift_bind_eq_ok hr
    obtain ⟨hid, rfl⟩ := run_lift_eq_ok.mp hr
    obtain ⟨reply, hreply, hread⟩ := run_request_ok hrequest
    obtain ⟨hrows, hzone⟩ := hk.zones hreply hread
    exact ⟨hzone found id hfound hid, hrows⟩

/-- A target that passes is the stripped zone. -/
theorem checkTarget_ok {server : Json} {zone zoneName : Str}
    (hcheck : checkTarget server zone = .ok zoneName) : zoneName = bareName zone := by
  obtain ⟨-, -, hcheck⟩ := bind_eq_ok hcheck
  split_ifs at hcheck
  exact (Except.ok.inj hcheck).symm

/-- A lookup that passes is in the stripped zone. -/
theorem checkLookup_ok {server : Json} {zone zoneName : Str}
    (hcheck : checkLookup server zone = .ok zoneName) : zoneName = bareName zone := by
  obtain ⟨-, -, hcheck⟩ := bind_eq_ok hcheck
  split_ifs at hcheck
  exact (Except.ok.inj hcheck).symm

/-- A lookup passes where a change does. -/
theorem checkLookup_of_checkTarget {server : Json} {zone zoneName : Str}
    (hcheck : checkTarget server zone = .ok zoneName) : checkLookup server zone = .ok zoneName := by
  obtain ⟨hserver, hcheck⟩ : checkServer server = .ok () ∧ _ = _ := by
    obtain ⟨_, hserver, hcheck⟩ := bind_eq_ok hcheck
    exact ⟨hserver, hcheck⟩
  split_ifs at hcheck with hzone
  have hne : zone ≠ [] := by
    rintro rfl
    exact hzone rfl
  unfold checkLookup
  rw [hserver, ok_bind, if_neg hne]
  exact hcheck

end

/-- The owner the client addresses. -/
def owner (U : Ucd) (zone recordName : Str) : Str := fqdn U (bareName zone) recordName

end ApiToDns.Cloudflare
