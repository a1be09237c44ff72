import ApiToDns.CloudflarePlan

/-!
# CloudflareReplace

Replacing an RRset at Cloudflare, with every call answered with success: what
is left is written for the wanted values and the other rows of the zone stay
(`syncRecords_converges_iff`).
-/

namespace ApiToDns.Cloudflare

open Py Code

section

variable {P : Platform} {cfg : Config} {t : Target} {values desired : List Str}
  {existing : List Dict}

/-! ## the rows outside the RRset -/

/-- The change is to the RRset: a row of it is deleted, or written over with or
added as one of the wanted values. -/
def Change.Within (P : Platform) (cfg : Config) (t : Target) (desired : List Str)
    (existing : List Dict) : Change → Prop
  | create body => ∃ value ∈ desired, recordBody P cfg t.fqdn t.rt value t.ttl = .ok body
  | update id body => some id ∈ existing.map idOf ∧
      ∃ value ∈ desired, recordBody P cfg t.fqdn t.rt value t.ttl = .ok body
  | delete id => some id ∈ existing.map idOf

/-- Only rows of the RRset have one of the ids. -/
def Confined (t : Target) (existing rows : List Dict) : Prop :=
  ∀ row ∈ rows, idOf row ∈ existing.map idOf → inRRset t.fqdn t.rt row = true

/-- The rows that are not in the RRset. -/
def outside (t : Target) (rows : List Dict) : List Dict :=
  rows.filter fun row => !inRRset t.fqdn t.rt row

/-- A change within an RRset leaves the other rows alone. -/
theorem Change.Within.made {c : Change} {rows rows' : List Dict}
    (hc : c.Within P cfg t desired existing) (hmade : c.Made rows rows')
    (hconfined : Confined t existing rows) :
    Confined t existing rows' ∧ outside t rows' = outside t rows := by
  cases c with
  | create body =>
      obtain ⟨id, -, rfl⟩ := hmade
      obtain ⟨value, -, hbody⟩ := hc
      have hin : inRRset t.fqdn t.rt (rowOf id body) = true :=
        Written.inRRset ⟨id, body, hbody, rfl⟩
      constructor
      · intro row hrow hid
        rcases List.mem_append.mp hrow with hrow | hrow
        · exact hconfined row hrow hid
        · rwa [List.mem_singleton.mp hrow]
      · simp [outside, List.filter_append, hin]
  | update id body =>
      obtain ⟨hid, value, -, hbody⟩ := hc
      have hin : inRRset t.fqdn t.rt (rowOf id body) = true :=
        Written.inRRset ⟨id, body, hbody, rfl⟩
      have hkept : ∀ row ∈ rows, inRRset t.fqdn t.rt
          (if idOf row = some id then rowOf id body else row) = inRRset t.fqdn t.rt row := by
        intro row hrow
        split
        · next heq => rw [hin, hconfined row hrow (heq ▸ hid)]
        · rfl
      rw [Change.Made] at hmade
      subst hmade
      constructor
      · intro row hrow hid'
        obtain ⟨row', hrow', rfl⟩ := List.mem_map.mp hrow
        rw [hkept row' hrow']
        by_cases heq : idOf row' = some id
        · exact hconfined row' hrow' (heq ▸ hid)
        · rw [if_neg heq] at hid'
          exact hconfined row' hrow' hid'
      · have hsame : rows.filter ((fun row => !inRRset t.fqdn t.rt row) ∘
            fun row => if idOf row = some id then rowOf id body else row) = outside t rows :=
          List.filter_congr fun row hrow => by rw [Function.comp, hkept row hrow]
        rw [outside, List.filter_map, hsame]
        refine (List.map_congr_left fun row hrow => ?_).trans (List.map_id _)
        rw [outside, List.mem_filter] at hrow
        refine if_neg fun heq => ?_
        rw [hconfined row hrow.1 (heq ▸ hid)] at hrow
        exact absurd hrow.2 (by simp)
  | delete id =>
      rw [Change.Made] at hmade
      subst hmade
      constructor
      · intro row hrow hid
        exact hconfined row (List.mem_of_mem_filter hrow) hid
      · rw [outside, outside, List.filter_filter]
        refine List.filter_congr fun row hrow => ?_
        by_cases heq : idOf row = some id
        · simp [hconfined row hrow (heq ▸ hc)]
        · simp [heq]

/-- So do changes one after the other. -/
theorem AllMade.outside {cs : List Change} {rows rows' : List Dict} (hmade : AllMade cs rows rows')
    (hcs : ∀ c ∈ cs, c.Within P cfg t desired existing) (hconfined : Confined t existing rows) :
    outside t rows' = outside t rows := by
  induction cs generalizing rows with
  | nil => rw [show rows' = rows from hmade]
  | cons c cs ih =>
      obtain ⟨mid, hc, hrest⟩ := hmade
      rw [List.forall_mem_cons] at hcs
      obtain ⟨hconfined', hsame⟩ := hcs.1.made hc hconfined
      rw [ih hrest hcs.2 hconfined', hsame]

/-! ## the changes are to the RRset -/

/-- Rows with ids of their own confine an RRset. -/
theorem confined_of_identified {rows : List Dict} (hids : Identified rows) :
    Confined t (rows.filter (inRRset t.fqdn t.rt)) rows := by
  intro row hrow hid
  obtain ⟨row', hrow', heq⟩ := List.mem_map.mp hid
  rw [List.mem_filter] at hrow'
  rw [← List.inj_on_of_nodup_map hids.2 hrow'.1 hrow heq]
  exact hrow'.2

/-- The id of a row that has one. -/
theorem some_idText {row : Dict} (h : (idOf row).isSome) : some (idText row) = idOf row := by
  obtain ⟨id, hid⟩ := Option.isSome_iff_exists.mp h
  rw [idText, hid, Option.getD_some]

/-- Deleting a row of the RRset is within it. -/
theorem within_deleteOf {row : Dict} (hids : ∀ row ∈ existing, (idOf row).isSome)
    (hrow : row ∈ existing) : (deleteOf row).Within P cfg t desired existing := by
  rw [deleteOf, Change.Within, some_idText (hids row hrow)]
  exact List.mem_map_of_mem hrow

/-- The changes of a sync are within the RRset. -/
theorem within_changes {kept : List (Str × Dict)} {stale : List Dict}
    (hids : ∀ row ∈ existing, (idOf row).isSome) (hbody : ∀ value ∈ desired, HasBody P cfg t value)
    (hsplit : splitRows P t desired existing [] = .ok (kept, stale)) :
    ∀ c ∈ changes P cfg t desired kept stale, c.Within P cfg t desired existing := by
  obtain ⟨added, hkept, hperm, -⟩ := splitRows_ok hsplit
  rw [List.nil_append] at hkept
  subst hkept
  simp only [changes, List.forall_mem_append, List.forall_mem_map]
  constructor
  · intro row hrow
    exact within_deleteOf hids (hperm.subset (List.mem_append_right _ hrow))
  · intro value hvalue
    unfold writeOf
    cases hl : kept.lookup value with
    | none => exact ⟨value, hvalue, hbody value hvalue⟩
    | some row =>
        have hrow : row ∈ existing := hperm.subset
          (List.mem_append_left _ (List.mem_map_of_mem (mem_of_lookup_eq_some hl)))
        refine ⟨?_, value, hvalue, hbody value hvalue⟩
        rw [some_idText (hids row hrow)]
        exact List.mem_map_of_mem hrow

/-- So are those of an alias. -/
theorem within_cnameChanges {value : Str} (hids : ∀ row ∈ existing, (idOf row).isSome)
    (hbody : HasBody P cfg t value) :
    ∀ c ∈ cnameChanges P cfg t value existing, c.Within P cfg t [value] existing := by
  cases existing with
  | nil =>
      intro c hc
      rw [List.mem_singleton.mp hc]
      exact ⟨value, List.mem_cons_self, hbody⟩
  | cons row rows =>
      have hrow : (idOf row).isSome := hids row List.mem_cons_self
      simp only [cnameChanges, List.forall_mem_cons, List.forall_mem_map]
      constructor
      · refine ⟨?_, value, List.mem_cons_self, hbody⟩
        rw [some_idText hrow]
        exact List.mem_cons_self
      · exact fun row' hrow' => within_deleteOf hids (List.mem_cons_of_mem _ hrow')

/-! ## rows that cannot be read -/

/-- The rows are split if each of them has a value, and what reading one of them
raises is raised otherwise. -/
theorem splitRows_of_read (P : Platform) (t : Target) (desired : List Str) (existing : List Dict)
    (kept : List (Str × Dict)) :
    match existing.mapM (canonicalFromRow P t.rt) with
    | .ok _ => ∃ kept' stale, splitRows P t desired existing kept = .ok (kept', stale)
    | .error e => splitRows P t desired existing kept = .error e := by
  induction existing generalizing kept with
  | nil => exact ⟨kept, [], rfl⟩
  | cons row existing ih =>
      rw [List.mapM_cons]
      simp only [splitRows]
      cases canonicalFromRow P t.rt row with
      | error e => rfl
      | ok content =>
          simp only [ok_bind]
          have hkeep := ih (kept ++ [(content, row)])
          have hstale := ih kept
          cases hread : existing.mapM (canonicalFromRow P t.rt) with
          | error e =>
              rw [hread] at hkeep hstale
              dsimp only [error_bind] at hkeep hstale ⊢
              split
              · exact hkeep
              · rw [hstale]
                rfl
          | ok values =>
              rw [hread] at hkeep hstale
              dsimp only [ok_bind] at hkeep hstale ⊢
              change ∃ kept' stale, _ = _
              by_cases hwanted : content ∈ desired ∧ content ∉ kept.map Prod.fst
              · simpa only [if_pos hwanted] using hkeep
              · obtain ⟨kept', stale, hsplit⟩ := hstale
                simp only [if_neg hwanted, hsplit]
                exact ⟨kept', row :: stale, rfl⟩

/-! ## convergence -/

variable {σ : Type} {h : Handler httpSig σ} {rows : σ → List Dict} {s : σ}

/-- The call is a change of the RRset. -/
def Touches (P : Platform) (cfg : Config) (t : Target) (desired : List Str)
    (existing : List Dict) (o : HttpOp) : Prop :=
  ∃ c : Change, c.Within P cfg t desired existing ∧ o = c.op t.zoneId

/-- A run that ends well, calls nothing but the API on the RRset, and leaves
there what is wanted. -/
def Converges (P : Platform) (cfg : Config) (t : Target) (desired : List Str)
    (h : Handler httpSig σ) (rows : σ → List Dict) (s : σ) : Prop :=
  let existing := (rows s).filter (inRRset t.fqdn t.rt)
  let code := syncRecords P cfg t desired existing
  ∃ s', code.run h s = (.ok (), s') ∧ Synced P cfg t desired (rows s') ∧
    outside t (rows s') = outside t (rows s) ∧
    ∀ c ∈ code.calls h s, Touches P cfg t desired existing c.1

/-- A normal value has a body. -/
theorem hasBody_of_normal (hnormal : normalizeRecordValues P.ucd t.rt values = .ok desired) :
    ∀ value ∈ desired, HasBody P cfg t value := by
  intro value hvalue
  obtain ⟨raw, -, hraw⟩ := mem_of_mapM_eq_ok (normalizeRecordValues_ok hnormal).1 hvalue
  obtain ⟨body, hbody⟩ : ∃ body, recordBody P cfg t.fqdn t.rt value t.ttl = .ok body :=
    recordBody_of_normal P hraw
  rw [HasBody, bodyOf, hbody]
  rfl

/-- Code that is nothing but changes of the RRset converges. -/
theorem converges_of_eq (hk : Keeps P h t.zoneId rows) (hids : Identified (rows s))
    (hsingle : t.rt = .cname → ∃ value, desired = [value]) {cs : List Change}
    (heq : syncRecords P cfg t desired ((rows s).filter (inRRset t.fqdn t.rt)) =
      performAll P t.zoneId cs)
    (hcs : ∀ c ∈ cs, c.Within P cfg t desired ((rows s).filter (inRRset t.fqdn t.rt)))
    (hall : ∀ c ∈ (syncRecords P cfg t desired ((rows s).filter (inRRset t.fqdn t.rt))).calls h s,
      Succeeds P h c) :
    Converges P cfg t desired h rows s := by
  rw [heq] at hall
  obtain ⟨s', hrun, hmade, hcalls⟩ := run_performAll hk.makes hall
  rw [← heq] at hrun
  refine ⟨s', hrun, run_syncRecords_ok hk hids hsingle hrun,
    hmade.outside hcs (confined_of_identified hids), fun c hc => ?_⟩
  rw [heq] at hc
  have hmem := List.mem_map_of_mem (f := Prod.fst) hc
  rw [hcalls] at hmem
  obtain ⟨change, hchange, hop⟩ := List.mem_map.mp hmem
  exact ⟨change, hcs change hchange, hop.symm⟩

/-- Replacing an RRset with all calls answered with success leaves there a row
for each wanted value, nothing else, and the other rows as they were; unless a
row that is there has no value, and then it raises what reading that row raises
before any call. -/
theorem syncRecords_converges (hk : Keeps P h t.zoneId rows) (hids : Identified (rows s))
    (hnormal : normalizeRecordValues P.ucd t.rt values = .ok desired)
    (hall : ∀ c ∈ (syncRecords P cfg t desired ((rows s).filter (inRRset t.fqdn t.rt))).calls h s,
      Succeeds P h c) :
    Converges P cfg t desired h rows s ∨
      t.rt ≠ .cname ∧ ∃ e,
        ((rows s).filter (inRRset t.fqdn t.rt)).mapM (canonicalFromRow P t.rt) = .error e ∧
        (syncRecords P cfg t desired ((rows s).filter (inRRset t.fqdn t.rt))).run h s =
          (.error e, s) ∧
        (syncRecords P cfg t desired ((rows s).filter (inRRset t.fqdn t.rt))).calls h s = [] := by
  have hbody : ∀ value ∈ desired, HasBody P cfg t value := hasBody_of_normal hnormal
  have hsingle := (normalizeRecordValues_ok hnormal).2
  have hsome := (hids.filter (inRRset t.fqdn t.rt)).1
  by_cases hcname : t.rt = .cname
  · obtain ⟨value, rfl⟩ := hsingle hcname
    have hvalue := hbody value List.mem_cons_self
    exact .inl (converges_of_eq hk hids hsingle (syncRecords_cname_eq hcname hsome hvalue)
      (within_cnameChanges hsome hvalue) hall)
  · have hsplit := splitRows_of_read P t desired ((rows s).filter (inRRset t.fqdn t.rt)) []
    cases hread : ((rows s).filter (inRRset t.fqdn t.rt)).mapM (canonicalFromRow P t.rt) with
    | ok read =>
        rw [hread] at hsplit
        obtain ⟨kept, stale, hsplit⟩ := hsplit
        exact .inl (converges_of_eq hk hids hsingle (syncRecords_eq hcname hsome hbody hsplit)
          (within_changes hsome hbody hsplit) hall)
    | error e =>
        rw [hread] at hsplit
        have hraises : syncRecords P cfg t desired ((rows s).filter (inRRset t.fqdn t.rt)) =
            throw e := by
          unfold syncRecords
          rw [if_neg hcname, hsplit]
          rfl
        rw [hraises]
        exact .inr ⟨hcname, e, rfl, rfl, rfl⟩

/-- Replacing an RRset converges exactly if the code reads no row that is there,
which is so for a CNAME, or each of these rows has a value. -/
theorem syncRecords_converges_iff (hk : Keeps P h t.zoneId rows) (hids : Identified (rows s))
    (hnormal : normalizeRecordValues P.ucd t.rt values = .ok desired)
    (hall : ∀ c ∈ (syncRecords P cfg t desired ((rows s).filter (inRRset t.fqdn t.rt))).calls h s,
      Succeeds P h c) :
    Converges P cfg t desired h rows s ↔
      t.rt = .cname ∨ ∀ row ∈ (rows s).filter (inRRset t.fqdn t.rt),
        ∃ value, canonicalFromRow P t.rt row = .ok value := by
  rw [← exists_mapM_eq_ok_iff]
  rcases syncRecords_converges hk hids hnormal hall with
    hconverges | ⟨hcname, e, hread, hraises, -⟩
  · refine iff_of_true hconverges (or_iff_not_imp_left.mpr fun hcname => ?_)
    obtain ⟨s', hrun, -⟩ := hconverges
    have hsplit := splitRows_of_read P t desired ((rows s).filter (inRRset t.fqdn t.rt)) []
    cases hread : ((rows s).filter (inRRset t.fqdn t.rt)).mapM (canonicalFromRow P t.rt) with
    | ok read => exact ⟨read, rfl⟩
    | error e =>
        rw [hread] at hsplit
        unfold syncRecords at hrun
        rw [if_neg hcname, hsplit] at hrun
        obtain ⟨herror, -⟩ := Prod.mk.inj hrun
        contradiction
  · refine iff_of_false ?_ ?_
    · rintro ⟨s', hrun, -⟩
      exact absurd (congrArg Prod.fst (hraises.symm.trans hrun)) (by simp)
    · rintro (h | ⟨read, h⟩)
      · exact hcname h
      · exact absurd (hread.symm.trans h) (by simp)

end

/-! ### a text and a null MX -/

/-- The RRset of a type at `www.example.com`. -/
def wwwTarget (rt : RecordType) : Target := ⟨lit "z1", lit "www.example.com", rt, 300⟩

/-- A row of the RRset. -/
def wwwRow (id : Str) (rt : RecordType) (data : Dict) : Dict :=
  rowOf id ([(lit "type", .str rt.text), (lit "name", .str (lit "www.example.com")),
    (lit "ttl", .int 300)] ++ data)

/-- One text. -/
def wwwText : List Dict := [wwwRow (lit "r1") .txt [(lit "content", .str (lit "\"one\""))]]

/-- Two texts. -/
def wwwTexts : List Dict :=
  [wwwRow (lit "r1") .txt [(lit "content", .str (lit "\"one\""))],
    wwwRow (lit "r2") .txt [(lit "content", .str (lit "\"two\""))]]

/-- The mark of a name that takes no mail. -/
def nullMx : List Dict :=
  [wwwRow (lit "r1") .mx [(lit "content", .str (lit ".")), (lit "priority", .int 0)]]

def unproxied : Config := ⟨some (lit "z1"), false⟩

/-- One row has an id of its own. -/
theorem identified_wwwRow (id : Str) (rt : RecordType) (data : Dict) :
    Identified [wwwRow id rt data] :=
  ⟨by simp [wwwRow], List.nodup_singleton _⟩

/-- The texts have ids of their own. -/
theorem identified_wwwTexts : Identified wwwTexts := by
  refine ⟨by simp [wwwTexts, wwwRow], ?_⟩
  have hids : wwwTexts.map idOf = [some (lit "r1"), some (lit "r2")] := rfl
  rw [hids]
  decide

/-- Of two texts one is kept, one goes and a third comes. -/
theorem syncRecords_converges_text :
    Converges .plain unproxied (wwwTarget .txt) [lit "two", lit "three"] keeper id wwwTexts := by
  have hk : Keeps .plain keeper (wwwTarget .txt).zoneId id := keeper_keeps .plain
  have hnormal : normalizeRecordValues Platform.plain.ucd (wwwTarget .txt).rt
      [lit "two", lit "three"] = .ok [lit "two", lit "three"] := by decide
  refine (syncRecords_converges_iff hk identified_wwwTexts hnormal (by decide)).mpr (.inr ?_)
  rw [← exists_mapM_eq_ok_iff]
  exact ⟨[lit "one", lit "two"], by decide⟩

/-- A null MX is not replaced: it has no value that the code can read. -/
theorem nullMx_not_replaced :
    (normalizeRecordValues Platform.plain.ucd .mx [lit "10 mx.example.com"] =
        .ok [lit "10 mx.example.com"] ∧ Identified nullMx) ∧
      ¬Converges .plain unproxied (wwwTarget .mx) [lit "10 mx.example.com"] keeper id nullMx := by
  refine ⟨⟨by decide, identified_wwwRow ..⟩, ?_⟩
  rintro ⟨s', hrun, -⟩
  have hok := congrArg Prod.fst hrun
  dsimp only at hok
  exact absurd hok (by decide)

end ApiToDns.Cloudflare
