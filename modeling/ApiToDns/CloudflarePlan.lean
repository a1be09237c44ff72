import ApiToDns.CloudflareValues

/-!
# CloudflarePlan

`_sync_records` as a list of changes to the rows of a zone that is known
before the first of them is made (`syncRecords_eq`): the stale rows are
deleted, then each value is written over the row that has it or to a new one.
A run makes a part of the changes, and all of them if no call fails
(`run_performAll`).
-/

namespace ApiToDns.Cloudflare

open Py Code

/-! ## changes -/

/-- A change of the rows of a zone. -/
inductive Change where
  | create (body : Dict)
  | update (id : Str) (body : Dict)
  | delete (id : Str)

/-- The request that makes a change. -/
def Change.op (zoneId : Str) : Change → HttpOp
  | create body => { method := .post, path := recordsPath zoneId, body := some body }
  | update id body => { method := .put, path := recordPath zoneId id, body := some body }
  | delete id => { method := .delete, path := recordPath zoneId id }

/-- The rows after a change are the rows before it with the change made. -/
def Change.Made : Change → List Dict → List Dict → Prop
  | create body, rows, rows' =>
      ∃ id, some id ∉ rows.map idOf ∧ rows' = rows ++ [rowOf id body]
  | update id body, rows, rows' =>
      rows' = rows.map fun row => if idOf row = some id then rowOf id body else row
  | delete id, rows, rows' => rows' = rows.filter fun row => idOf row ≠ some id

/-- The changes are made one after the other. -/
def AllMade : List Change → List Dict → List Dict → Prop
  | [], rows, rows' => rows' = rows
  | c :: cs, rows, rows' => ∃ mid, c.Made rows mid ∧ AllMade cs mid rows'

/-- Changes are made one part after the other. -/
theorem allMade_append {cs cs' : List Change} {rows rows' : List Dict} :
    AllMade (cs ++ cs') rows rows' ↔ ∃ mid, AllMade cs rows mid ∧ AllMade cs' mid rows' := by
  induction cs generalizing rows with
  | nil => simp [AllMade]
  | cons c cs ih =>
      simp only [List.cons_append, AllMade, ih]
      constructor
      · rintro ⟨mid, hc, mid', hcs, hcs'⟩
        exact ⟨mid', ⟨mid, hc, hcs⟩, hcs'⟩
      · rintro ⟨mid', ⟨mid, hc, hcs⟩, hcs'⟩
        exact ⟨mid, hc, mid', hcs, hcs'⟩

section

variable (P : Platform) (cfg : Config) (t : Target)

/-- Make changes in order. -/
def performAll (zoneId : Str) : List Change → HttpCode Unit
  | [] => return ()
  | c :: cs => do
      let _ ← request P (c.op zoneId)
      performAll zoneId cs

/-- Changes are sent one part after the other. -/
theorem performAll_append (zoneId : Str) (cs cs' : List Change) :
    performAll P zoneId (cs ++ cs') = (do performAll P zoneId cs; performAll P zoneId cs') := by
  induction cs with
  | nil => simp [performAll]
  | cons c cs ih => simp [performAll, ih]

/-- The id of a row that has one. -/
def idText (row : Dict) : Str := (idOf row).getD []

/-- The body of a value that has one. -/
def bodyOf (value : Str) : Dict := (recordBody P cfg t.fqdn t.rt value t.ttl).toOption.getD []

/-- How a value is written. -/
def writeOf (kept : List (Str × Dict)) (value : Str) : Change :=
  match kept.lookup value with
  | some row => .update (idText row) (bodyOf P cfg t value)
  | none => .create (bodyOf P cfg t value)

/-- The deletion of a row. -/
def deleteOf (row : Dict) : Change := .delete (idText row)

/-- The changes of `_sync_records`, given the rows that keep a wanted value and
the others. -/
def changes (desired : List Str) (kept : List (Str × Dict)) (stale : List Dict) : List Change :=
  stale.map deleteOf ++ desired.map (writeOf P cfg t kept)

/-- The changes of `_sync_records` for a CNAME. -/
def cnameChanges (value : Str) : List Dict → List Change
  | [] => [.create (bodyOf P cfg t value)]
  | row :: rows => .update (idText row) (bodyOf P cfg t value) :: rows.map deleteOf

end

section

variable {P : Platform} {cfg : Config} {t : Target} {value : Str} {row : Dict}

/-- A row with an id gives it. -/
theorem rowId_idText (h : (idOf row).isSome) : rowId P row = .ok (idText row) := by
  obtain ⟨id, hid⟩ := Option.isSome_iff_exists.mp h
  rw [rowId_eq hid, idText, hid, Option.getD_some]

/-- The value has a body. -/
def HasBody (P : Platform) (cfg : Config) (t : Target) (value : Str) : Prop :=
  recordBody P cfg t.fqdn t.rt value t.ttl = .ok (bodyOf P cfg t value)

/-- Rows are deleted by their ids. -/
theorem deleteRows_eq {zoneId : Str} {stale : List Dict} (hids : ∀ row ∈ stale, (idOf row).isSome) :
    deleteRows P zoneId stale = performAll P zoneId (stale.map deleteOf) := by
  induction stale with
  | nil => rfl
  | cons row stale ih =>
      rw [List.forall_mem_cons] at hids
      simp [deleteRows, deleteRecord, rowId_idText hids.1, ih hids.2, performAll, lift_ok, deleteOf,
        Change.op]

/-- Values are written in place of rows or as new ones. -/
theorem writeValues_eq {kept : List (Str × Dict)} {todo : List Str}
    (hkept : ∀ e ∈ kept, (idOf e.2).isSome) (hbody : ∀ value ∈ todo, HasBody P cfg t value) :
    writeValues P cfg t kept todo = performAll P t.zoneId (todo.map (writeOf P cfg t kept)) := by
  induction todo with
  | nil => rfl
  | cons value todo ih =>
      rw [List.forall_mem_cons] at hbody
      have hvalue : recordBody P cfg t.fqdn t.rt value t.ttl = .ok (bodyOf P cfg t value) := hbody.1
      rw [writeValues, List.map_cons, performAll, ← ih hbody.2, writeOf]
      cases hl : kept.lookup value with
      | some row =>
          have hid := rowId_idText (P := P) (hkept _ (mem_of_lookup_eq_some hl))
          simp [updateRecord, hid, hvalue, lift_ok, Change.op]
      | none => simp [createRecord, hvalue, lift_ok, Change.op]

/-- `_sync_records` makes its changes. -/
theorem syncRecords_eq {desired : List Str} {existing stale : List Dict} {kept : List (Str × Dict)}
    (hcname : t.rt ≠ .cname) (hids : ∀ row ∈ existing, (idOf row).isSome)
    (hbody : ∀ value ∈ desired, HasBody P cfg t value)
    (hsplit : splitRows P t desired existing [] = .ok (kept, stale)) :
    syncRecords P cfg t desired existing =
      performAll P t.zoneId (changes P cfg t desired kept stale) := by
  obtain ⟨added, hkept, hperm, -⟩ := splitRows_ok hsplit
  rw [List.nil_append] at hkept
  subst hkept
  have hstale : ∀ row ∈ stale, (idOf row).isSome := fun row hrow =>
    hids row (hperm.subset (List.mem_append_right _ hrow))
  have hkept : ∀ e ∈ kept, (idOf e.2).isSome := fun e he =>
    hids e.2 (hperm.subset (List.mem_append_left _ (List.mem_map_of_mem he)))
  unfold syncRecords
  rw [if_neg hcname, hsplit, changes, performAll_append, ← deleteRows_eq hstale,
    ← writeValues_eq hkept hbody]
  simp [lift_ok]

/-- `_sync_records` of a CNAME makes its changes. -/
theorem syncRecords_cname_eq {existing : List Dict} (hcname : t.rt = .cname)
    (hids : ∀ row ∈ existing, (idOf row).isSome) (hbody : HasBody P cfg t value) :
    syncRecords P cfg t [value] existing =
      performAll P t.zoneId (cnameChanges P cfg t value existing) := by
  have hvalue : recordBody P cfg t.fqdn t.rt value t.ttl = .ok (bodyOf P cfg t value) := hbody
  unfold syncRecords
  rw [if_pos hcname]
  cases existing with
  | nil => simp [createRecord, hvalue, lift_ok, cnameChanges, performAll, Change.op]
  | cons row rows =>
      rw [List.forall_mem_cons] at hids
      simp [updateRecord, rowId_idText hids.1, hvalue, lift_ok, deleteRows_eq hids.2, cnameChanges,
        performAll, Change.op]

/-! ## the run -/

variable {σ : Type} {h : Handler httpSig σ} {zoneId : Str} {rows : σ → List Dict}

/-- The API answers the call with success. -/
def Succeeds (P : Platform) (h : Handler httpSig σ) (c : HttpOp × σ) : Prop :=
  ∃ body, readResponse P (h c.1 c.2).1 = .ok body

/-- A call that goes well makes its change. -/
def Makes (P : Platform) (h : Handler httpSig σ) (zoneId : Str) (rows : σ → List Dict) : Prop :=
  ∀ (c : Change) (s : σ) (body : Dict), readResponse P (h (c.op zoneId) s).1 = .ok body →
    c.Made (rows s) (rows (h (c.op zoneId) s).2)

/-- An API that keeps rows makes the changes it is sent. -/
theorem Keeps.makes (hk : Keeps P h zoneId rows) : Makes P h zoneId rows := by
  intro c s body hread
  cases c with
  | create fields => exact hk.create rfl hread
  | update id fields => exact hk.update rfl hread
  | delete id => exact hk.delete rfl hread

/-- The first change is sent, and the others if it succeeds. -/
theorem calls_performAll_cons (c : Change) (cs : List Change) (s : σ) :
    (performAll P zoneId (c :: cs)).calls h s = (c.op zoneId, s) ::
      match readResponse P (h (c.op zoneId) s).1 with
      | .ok _ => (performAll P zoneId cs).calls h (h (c.op zoneId) s).2
      | .error _ => [] := by
  rw [performAll, calls_bind]
  have hrun : (request P (c.op zoneId)).run h s =
      (readResponse P (h (c.op zoneId) s).1, (h (c.op zoneId) s).2) := rfl
  rw [hrun]
  cases readResponse P (h (c.op zoneId) s).1 <;> rfl

/-- The run goes on if the first change succeeds. -/
theorem run_performAll_cons (c : Change) (cs : List Change) (s : σ) :
    (performAll P zoneId (c :: cs)).run h s =
      match readResponse P (h (c.op zoneId) s).1 with
      | .ok _ => (performAll P zoneId cs).run h (h (c.op zoneId) s).2
      | .error e => (.error e, (h (c.op zoneId) s).2) := by
  rw [performAll, run_bind]
  have hrun : (request P (c.op zoneId)).run h s =
      (readResponse P (h (c.op zoneId) s).1, (h (c.op zoneId) s).2) := rfl
  rw [hrun]
  cases readResponse P (h (c.op zoneId) s).1 <;> rfl

/-- If all calls succeed, the run makes all changes. -/
theorem run_performAll (hm : Makes P h zoneId rows) {cs : List Change} {s : σ}
    (hall : ∀ c ∈ (performAll P zoneId cs).calls h s, Succeeds P h c) :
    ∃ s', (performAll P zoneId cs).run h s = (.ok (), s') ∧ AllMade cs (rows s) (rows s') ∧
      ((performAll P zoneId cs).calls h s).map Prod.fst = cs.map (Change.op zoneId) := by
  induction cs generalizing s with
  | nil => exact ⟨s, rfl, rfl, rfl⟩
  | cons c cs ih =>
      rw [calls_performAll_cons] at hall
      rw [List.forall_mem_cons] at hall
      obtain ⟨⟨body, hbody⟩, hrest⟩ := hall
      simp only [hbody] at hrest
      obtain ⟨s', hrun, hmade, hcalls⟩ := ih hrest
      rw [calls_performAll_cons, run_performAll_cons]
      simp only [hbody, hrun, List.map_cons, hcalls]
      exact ⟨s', rfl, ⟨_, hm c s body hbody, hmade⟩, trivial⟩

/-- A run ends well with all changes made, or at the first call that fails. -/
theorem run_performAll_cases (hm : Makes P h zoneId rows) (cs : List Change) (s : σ) :
    (∃ s', (performAll P zoneId cs).run h s = (.ok (), s') ∧ AllMade cs (rows s) (rows s')) ∨
      ∃ done c rest s₁ e, cs = done ++ c :: rest ∧ AllMade done (rows s) (rows s₁) ∧
        readResponse P (h (c.op zoneId) s₁).1 = .error e ∧
        (performAll P zoneId cs).run h s = (.error e, (h (c.op zoneId) s₁).2) := by
  induction cs generalizing s with
  | nil => exact .inl ⟨s, rfl, rfl⟩
  | cons c cs ih =>
      rw [run_performAll_cons]
      cases hread : readResponse P (h (c.op zoneId) s).1 with
      | error e => exact .inr ⟨[], c, cs, s, e, rfl, rfl, hread, rfl⟩
      | ok body =>
          have hmade := hm c s body hread
          rcases ih (h (c.op zoneId) s).2 with ⟨s', hrun, hall⟩ |
            ⟨done, c', rest, s₁, e, rfl, hdone, herror, hrun⟩
          · exact .inl ⟨s', hrun, _, hmade, hall⟩
          · exact .inr ⟨c :: done, c', rest, s₁, e, rfl, ⟨_, hmade, hdone⟩, herror, hrun⟩

/-- A run that ends well makes all changes. -/
theorem allMade_of_run_performAll (hm : Makes P h zoneId rows) {cs : List Change} {s s' : σ}
    (hrun : (performAll P zoneId cs).run h s = (.ok (), s')) : AllMade cs (rows s) (rows s') := by
  rcases run_performAll_cases hm cs s with ⟨s₁, hrun', hmade⟩ |
    ⟨done, c, rest, s₁, e, -, -, -, hrun'⟩
  · rw [hrun] at hrun'
    obtain ⟨-, rfl⟩ := Prod.ext_iff.mp hrun'
    exact hmade
  · rw [hrun] at hrun'
    exact absurd (Prod.ext_iff.mp hrun').1 (by simp)

end

/-! ## a stand-in for the API -/

/-- A successful response. -/
def success (result : Json) : Except Str HttpResponse :=
  .ok ⟨200, some (.obj [(lit "success", .bool true), (lit "result", result)])⟩

/-- What a success says. -/
theorem readResponse_success {P : Platform} {result : Json} {body : Dict}
    (h : readResponse P (success result) = .ok body) :
    body = [(lit "success", .bool true), (lit "result", result)] :=
  (Except.ok.inj h).symm

/-- An id no row has. -/
def freshId (rows : List Dict) : Str :=
  List.replicate ((rows.map fun row => ((idOf row).getD []).length).sum + 1) '0'

/-- The rows a listing asks for. -/
def listing (rows : List Dict) : List (Str × Str) → List Dict
  | [(_, fqdn), (_, type)] =>
      rows.filter fun row => textField row (lit "type") = some type ∧
        (textField row (lit "name")).map foldAscii = some (foldAscii fqdn)
  | _ => []

/-- A Cloudflare that never fails, for the zone `z1`. -/
def keeper : Handler httpSig (List Dict)
  | ⟨.get, _, params, _⟩, rows => (success (.arr ((listing rows params).map .obj)), rows)
  | ⟨.post, _, _, some fields⟩, rows => (success .null, rows ++ [rowOf (freshId rows) fields])
  | ⟨.put, path, _, some fields⟩, rows =>
      (success .null, rows.map fun row =>
        if idOf row = some (path.drop (recordPath (lit "z1") []).length) then
          rowOf (path.drop (recordPath (lit "z1") []).length) fields
        else row)
  | ⟨.delete, path, _, _⟩, rows =>
      (success .null,
        rows.filter fun row => idOf row ≠ some (path.drop (recordPath (lit "z1") []).length))
  | _, rows => (.error [], rows)

/-- A fresh id is taken by no row. -/
theorem freshId_fresh (rows : List Dict) : some (freshId rows) ∉ rows.map idOf := by
  intro h
  obtain ⟨row, hrow, hid⟩ := List.mem_map.mp h
  have hle := length_le_sum (W := rows.map fun row => (idOf row).getD []) (List.mem_map_of_mem hrow)
  rw [hid, List.map_map, Option.getD_some, freshId, List.length_replicate] at hle
  exact absurd hle (Nat.not_succ_le_self _)

/-- The keeper keeps its rows. -/
theorem keeper_keeps (P : Platform) : Keeps P keeper (lit "z1") id where
  zones := by
    intro s s' reply body zoneName h hread
    obtain ⟨rfl, rfl⟩ := Prod.ext_iff.mp h
    refine ⟨rfl, fun found id hfound hid => ?_⟩
    rw [readResponse_success hread] at hfound
    rw [← Except.ok.inj (show Except.ok [] = Except.ok found from hfound)] at hid
    contradiction
  list := by
    intro s s' reply body fqdn rt h hread
    obtain ⟨rfl, rfl⟩ := Prod.ext_iff.mp h
    rw [readResponse_success hread]
    exact ⟨rfl, rfl⟩
  create := by
    intro s s' reply body fields h hread
    obtain ⟨-, rfl⟩ := Prod.ext_iff.mp h
    exact ⟨freshId s, freshId_fresh s, rfl⟩
  update := by
    intro s s' reply body id fields h hread
    obtain ⟨-, rfl⟩ := Prod.ext_iff.mp h
    rfl
  delete := by
    intro s s' reply body id h hread
    obtain ⟨-, rfl⟩ := Prod.ext_iff.mp h
    rfl

instance (P : Platform) {σ : Type} (h : Handler httpSig σ) (c : HttpOp × σ) :
    Decidable (Succeeds P h c) :=
  decidable_of_iff ((readResponse P (h c.1 c.2).1).toOption.isSome = true) <| by
    simp [Succeeds, Option.isSome_iff_exists]

end ApiToDns.Cloudflare
