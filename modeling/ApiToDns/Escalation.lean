import ApiToDns.Admins

/-!
# Escalation

What accounts that are no global admins can make of each other: no account
gains a role that `account.update` may not grant, or loses a sensitive one,
and global admins are left alone (`no_escalation`).
-/

namespace ApiToDns

open Py

/-! ## roles of an account -/

/-- The roles that an account has in effect. -/
def rolesOf (row : Row User) : List Str := effectiveRoles (parseRoles row.val.roles)

/-- A role that account administrators may hand out. -/
def Grantable (r : Str) : Prop := r ∈ accountAdminGrantableRoles ∨ r ∈ mandatoryRoles

instance (r : Str) : Decidable (Grantable r) := inferInstanceAs (Decidable (_ ∨ _))

/-- The second account, a later state of the first one, has gained nothing
that only a global admin may grant, and lost nothing that only a global admin
may remove. -/
structure NoWorse (row row' : Row User) : Prop where
  gained : ∀ r ∈ rolesOf row', r ∉ rolesOf row → Grantable r
  kept : ∀ r ∈ sensitiveRoles, r ∈ rolesOf row → r ∈ rolesOf row'

/-- An account without any role that only a global admin may grant. -/
def Harmless (row : Row User) : Prop := ∀ r ∈ rolesOf row, Grantable r

/-- Being no worse is reflexive. -/
theorem NoWorse.refl (row : Row User) : NoWorse row row where
  gained _ h hn := absurd h hn
  kept _ _ h := h

/-- Being no worse is transitive. -/
theorem NoWorse.trans {row row' row'' : Row User} (h : NoWorse row row') (h' : NoWorse row' row'') :
    NoWorse row row'' where
  gained r hr hn := by
    by_cases hmid : r ∈ rolesOf row'
    · exact h.gained r hmid hn
    · exact h'.gained r hr hmid
  kept r hr hrow := h'.kept r hr (h.kept r hr hrow)

/-- An account that is no worse than a harmless one is harmless. -/
theorem Harmless.of_noWorse {row row' : Row User} (h : Harmless row) (h' : NoWorse row row') :
    Harmless row' := by
  intro r hr
  by_cases hmid : r ∈ rolesOf row
  · exact h r hmid
  · exact h'.gained r hr hmid

/-- An account with the same roles is no worse. -/
theorem NoWorse.of_roles {row row' : Row User} (h : row'.val.roles = row.val.roles) :
    NoWorse row row' := by
  have hroles : rolesOf row' = rolesOf row := by rw [rolesOf, rolesOf, h]
  constructor
  · intro r hr hn
    rw [hroles] at hr
    exact absurd hr hn
  · intro r _ hr
    rw [hroles]
    exact hr

/-! ## assignments -/

/-- Normal roles have the admin role if the given ones do. -/
theorem globalAdmin_mem_normalizeSelectedRoles {roles : List Str} :
    roleGlobalAdmin ∈ normalizeSelectedRoles roles ↔ roleGlobalAdmin ∈ roles := by
  have hall : roleGlobalAdmin ∈ allRoles := by decide
  have hmandatory : roleGlobalAdmin ∉ mandatoryRoles := by decide
  have hrequired : ∀ d ∈ roleDependencies, d.2 ≠ roleGlobalAdmin := by decide
  unfold normalizeSelectedRoles
  dsimp only
  split
  · next h =>
      rw [mem_sortedSet]
      exact iff_of_true hall (List.mem_of_mem_filter h)
  · next h =>
      rw [mem_sortedSet]
      refine iff_of_false (fun hmem => ?_) fun hmem => h (List.mem_filter.mpr ⟨hmem, by simpa using hall⟩)
      rcases List.mem_append.mp hmem with hsel | hdep
      · exact (List.mem_append.mp hsel).elim h hmandatory
      · obtain ⟨d, hd, heq⟩ := List.mem_map.mp hdep
        exact hrequired d (List.mem_of_mem_filter hd) heq

/-- The roles of a selection without the global admin. -/
theorem mem_normalizeSelectedRoles {roles : List Str} {r : Str} (h : roleGlobalAdmin ∉ roles) :
    r ∈ normalizeSelectedRoles roles ↔
      r ∈ roles ∧ r ∈ allRoles ∨ r ∈ mandatoryRoles ∨
        ∃ d ∈ roleDependencies, d.1 ∈ roles ∧ d.2 = r := by
  have hknown : ∀ d ∈ roleDependencies, d.1 ∈ allRoles ∧ d.1 ∉ mandatoryRoles := by decide
  unfold normalizeSelectedRoles
  dsimp only
  rw [if_neg fun hmem => h (List.mem_of_mem_filter hmem), mem_sortedSet, List.mem_append,
    List.mem_append, or_assoc]
  refine or_congr (by simp) (or_congr Iff.rfl ?_)
  constructor
  · intro hmem
    obtain ⟨d, hd, heq⟩ := List.mem_map.mp hmem
    obtain ⟨hdep, hsel⟩ := List.mem_filter.mp hd
    rw [decide_eq_true_eq, List.mem_append] at hsel
    have hrole := hsel.resolve_right (hknown d hdep).2
    exact ⟨d, hdep, List.mem_of_mem_filter hrole, heq⟩
  · intro hmem
    obtain ⟨d, hdep, hrole, heq⟩ := hmem
    refine List.mem_map.mpr ⟨d, List.mem_filter.mpr ⟨hdep, ?_⟩, heq⟩
    simp [hrole, (hknown d hdep).1]

/-- Normal roles are known ones. -/
theorem normalizeSelectedRoles_subset {roles : List Str} {r : Str}
    (hr : r ∈ normalizeSelectedRoles roles) : r ∈ allRoles := by
  by_cases h : roleGlobalAdmin ∈ roles
  · have hall : roleGlobalAdmin ∈ allRoles := by decide
    unfold normalizeSelectedRoles at hr
    dsimp only at hr
    rw [if_pos (List.mem_filter.mpr ⟨h, by simpa using hall⟩), mem_sortedSet] at hr
    exact hr
  · rcases (mem_normalizeSelectedRoles h).mp hr with hsel | hmandatory | hdep
    · exact hsel.2
    · exact mandatory_subset r hmandatory
    · obtain ⟨d, hd, -, heq⟩ := hdep
      have hknown : ∀ d ∈ roleDependencies, d.2 ∈ allRoles := by decide
      rw [← heq]
      exact hknown d hd

/-- Normalising twice selects the same roles. -/
theorem mem_normalizeSelectedRoles_twice {roles : List Str} {r : Str}
    (h : roleGlobalAdmin ∉ roles) :
    r ∈ normalizeSelectedRoles (normalizeSelectedRoles roles) ↔ r ∈ normalizeSelectedRoles roles := by
  have hn : roleGlobalAdmin ∉ normalizeSelectedRoles roles := by
    rwa [globalAdmin_mem_normalizeSelectedRoles]
  have hknown : ∀ d ∈ roleDependencies, d.1 ∉ mandatoryRoles ∧
      ∀ d' ∈ roleDependencies, d'.2 ≠ d.1 := by decide
  rw [mem_normalizeSelectedRoles hn]
  constructor
  · intro hr
    rcases hr with hsel | hmandatory | hdep
    · exact hsel.1
    · exact (mem_normalizeSelectedRoles h).mpr (.inr (.inl hmandatory))
    · obtain ⟨d, hd, hrole, heq⟩ := hdep
      refine (mem_normalizeSelectedRoles h).mpr (.inr (.inr ⟨d, hd, ?_, heq⟩))
      -- a role with a dependency is selected by itself
      rcases (mem_normalizeSelectedRoles h).mp hrole with hsel | hmandatory | hdep
      · exact hsel.1
      · exact absurd hmandatory (hknown d hd).1
      · obtain ⟨d', hd', -, heq'⟩ := hdep
        exact absurd heq' ((hknown d hd).2 d' hd')
  · intro hr
    exact .inl ⟨hr, normalizeSelectedRoles_subset hr⟩

/-- An assignment that passes the check of an account that is no global admin
adds grantable roles and removes no sensitive ones. -/
theorem assigned_of_validate {db : Db} {user : Str} {roles previous : List Str}
    (h : validateRoleAssignment db user (normalizeSelectedRoles roles) previous = none)
    (hactor : userIsGlobalAdmin db user = false) :
    (∀ r ∈ normalizeSelectedRoles (normalizeSelectedRoles roles), r ∉ previous → Grantable r) ∧
      ∀ r ∈ previous, r ∈ sensitiveRoles → r ∈ normalizeSelectedRoles (normalizeSelectedRoles roles) := by
  unfold validateRoleAssignment at h
  dsimp only at h
  rw [hactor] at h
  simp only [Bool.false_eq_true, if_false] at h
  split at h
  · contradiction
  · next hgranted =>
      split at h
      · contradiction
      · next hremoved =>
          rw [not_not, sortedSet_eq_nil_iff, List.filter_eq_nil_iff] at hgranted hremoved
          constructor
          · intro r hr hn
            have hg := hgranted r (List.mem_filter.mpr ⟨hr, by simpa using hn⟩)
            simp only [decide_eq_true_eq, not_and, not_not] at hg
            by_cases hgrant : r ∈ accountAdminGrantableRoles
            · exact .inl hgrant
            · exact .inr (hg hgrant)
          · intro r hr hsensitive
            have hrem := hremoved r hr
            simp only [decide_eq_true_eq, not_and] at hrem
            by_contra hn
            exact hrem hn hsensitive

/-- The roles that are in effect once a selection without the global admin is
stored. -/
theorem mem_rolesOf_stored {id : Nat} {u : User} {selected : List Str} {r : Str}
    (h : roleGlobalAdmin ∉ selected) (hroles : u.roles = serializeRoles selected) :
    r ∈ rolesOf ⟨id, u⟩ ↔ r ∈ selected ∧ r ∈ allRoles ∨ r ∈ mandatoryRoles := by
  have hstored : ∀ r, r ∈ parseRoles u.roles ↔ r ∈ selected ∧ r ∈ allRoles ∨ r ∈ mandatoryRoles := by
    intro r
    rw [hroles, mem_parse_serialize]
    simp [h, and_comm]
  have hadmin : roleGlobalAdmin ∉ parseRoles u.roles := by
    rw [hstored]
    simp only [h, false_and, false_or]
    decide
  unfold rolesOf effectiveRoles
  rw [if_neg hadmin, List.mem_append, hstored]
  simp

section Assigned

variable {db : Db} {user : Str} {roles : List Str}
  (hactor : userIsGlobalAdmin db user = false)

include hactor

/-- An account that is created has no role that is not grantable. -/
theorem harmless_of_created {u : User} {id : Nat}
    (h : validateRoleAssignment db user (normalizeSelectedRoles roles) [] = none)
    (hroles : u.roles = serializeRoles (normalizeSelectedRoles roles)) : Harmless ⟨id, u⟩ := by
  obtain ⟨hgained, -⟩ := assigned_of_validate h hactor
  have hadmin : roleGlobalAdmin ∉ roles := by
    intro hmem
    have hga := hgained roleGlobalAdmin (by
      rwa [globalAdmin_mem_normalizeSelectedRoles, globalAdmin_mem_normalizeSelectedRoles]) (by simp)
    exact absurd hga (by decide)
  intro r hr
  rw [mem_rolesOf_stored (by rwa [globalAdmin_mem_normalizeSelectedRoles]) hroles] at hr
  rcases hr with hsel | hmandatory
  · exact hgained r ((mem_normalizeSelectedRoles_twice hadmin).mpr hsel.1) (by simp)
  · exact .inr hmandatory

/-- An account whose roles are updated is no worse off. -/
theorem noWorse_of_rolesUpdated {target : Row User} {u : User}
    (htarget : targetIsGlobalAdmin target.val = false)
    (h : validateRoleAssignment db user (normalizeSelectedRoles roles)
      (parseRoles target.val.roles) = none)
    (hroles : u.roles = serializeRoles (normalizeSelectedRoles roles)) :
    NoWorse target ⟨target.id, u⟩ := by
  obtain ⟨hgained, hkept⟩ := assigned_of_validate h hactor
  have hprevious : roleGlobalAdmin ∉ parseRoles target.val.roles := by
    rw [← targetIsGlobalAdmin_iff, htarget]
    simp
  have hadmin : roleGlobalAdmin ∉ roles := by
    intro hmem
    have hga := hgained roleGlobalAdmin (by
      rwa [globalAdmin_mem_normalizeSelectedRoles, globalAdmin_mem_normalizeSelectedRoles]) hprevious
    exact absurd hga (by decide)
  have hstored : ∀ r, r ∈ rolesOf ⟨target.id, u⟩ ↔
      r ∈ normalizeSelectedRoles roles ∧ r ∈ allRoles ∨ r ∈ mandatoryRoles := fun r =>
    mem_rolesOf_stored (by rwa [globalAdmin_mem_normalizeSelectedRoles]) hroles
  have hold : rolesOf target = parseRoles target.val.roles ++ mandatoryRoles := by
    rw [rolesOf, effectiveRoles, if_neg hprevious]
  constructor
  · intro r hr hn
    rw [hold, List.mem_append, not_or] at hn
    rcases (hstored r).mp hr with hsel | hmandatory
    · exact hgained r ((mem_normalizeSelectedRoles_twice hadmin).mpr hsel.1) hn.1
    · exact .inr hmandatory
  · intro r hsensitive hr
    have hnot : ∀ r ∈ sensitiveRoles, r ∉ mandatoryRoles := by decide
    rw [hold, List.mem_append] at hr
    have hselected := (mem_normalizeSelectedRoles_twice hadmin).mp
      (hkept r (hr.resolve_right (hnot r hsensitive)) hsensitive)
    exact (hstored r).mpr (.inl ⟨hselected, normalizeSelectedRoles_subset hselected⟩)

end Assigned

/-! ## one request -/

/-- What becomes of the accounts in the hands of others than global admins. -/
structure Contained (before after : Table User) : Prop where
  rows : ∀ row' ∈ after.rows,
    (∃ row ∈ before.rows, row.id = row'.id ∧ NoWorse row row') ∨
      (∀ row ∈ before.rows, row.id ≠ row'.id) ∧ Harmless row'
  admins : ∀ row ∈ before.rows, targetIsGlobalAdmin row.val = true → row ∈ after.rows

/-- Accounts that stay as they are are contained. -/
theorem Contained.refl (users : Table User) : Contained users users where
  rows row h := .inl ⟨row, h, rfl, .refl row⟩
  admins _ h _ := h

/-- Changing an account that is no global admin. -/
theorem contained_changeUser {users : Table User} {target : Row User} {f : User → User}
    {h : ∀ u, (f u).username = u.username} (hmem : target ∈ users.rows)
    (hadmin : targetIsGlobalAdmin target.val = false)
    (hworse : NoWorse target ⟨target.id, f target.val⟩) :
    Contained users (changeUser users target.id f h) := by
  constructor
  · intro row' hrow'
    obtain ⟨row, hrow, heq⟩ := mem_changeUser.mp hrow'
    refine .inl ⟨row, hrow, by rw [← heq], ?_⟩
    rw [← heq]
    by_cases hid : row.id = target.id
    · rw [if_pos hid, users.eq_of_id hrow hmem hid]
      exact hworse
    · rw [if_neg hid]
      exact .refl row
  · intro row hrow hga
    refine mem_changeUser_of_ne hrow fun hid => ?_
    rw [users.eq_of_id hrow hmem hid, hadmin] at hga
    contradiction

/-- A request of an account that is no global admin. -/
theorem contained_of_effect {db : Db} {user : Str} {change : AccountChange}
    (h : Effect db user change) (hactor : userIsGlobalAdmin db user = false) :
    Contained db.users change.users := by
  have hmanaged : ∀ {target}, Manages db user target → targetIsGlobalAdmin target.val = false := by
    intro target hmanages
    by_contra hga
    rw [Bool.not_eq_false] at hga
    rw [hmanages.guard hga] at hactor
    contradiction
  cases h with
  | passwordChanged htarget =>
      dsimp only
      refine contained_changeUser (username_of_byKey htarget).1 ?_ ?_
      · rw [← userIsGlobalAdmin_of_byKey htarget, hactor]
      · exact .of_roles rfl
  | @created row roles message users hinsert hassigned hroles hversion hstrip =>
      obtain ⟨-, hrows⟩ := Table.insert_eq_some_iff.mp hinsert
      constructor
      · intro row' hrow'
        rw [hrows, List.mem_append, List.mem_singleton] at hrow'
        cases hrow' with
        | inl hold => exact .inl ⟨row', hold, rfl, .refl row'⟩
        | inr hnew =>
            rw [hnew]
            refine .inr ⟨fun old hold => ?_, harmless_of_created hactor hassigned hroles⟩
            exact Nat.ne_of_lt (db.users.lt_nextId hold)
      · intro row' hrow' _
        rw [hrows]
        exact List.mem_append_left _ hrow'
  | disabled hmanages _ =>
      dsimp only
      refine contained_changeUser hmanages.mem (hmanaged hmanages) ?_
      exact .of_roles rfl
  | enabled hmanages =>
      dsimp only
      refine contained_changeUser hmanages.mem (hmanaged hmanages) ?_
      exact .of_roles rfl
  | @deleted target message hmanages hdisabled =>
      constructor
      · intro row' hrow'
        exact .inl ⟨row', (Table.mem_delete.mp hrow').1, rfl, .refl row'⟩
      · intro row hrow hga
        refine Table.mem_delete.mpr ⟨hrow, ?_⟩
        by_contra hid
        rw [db.users.eq_of_id hrow hmanages.mem (by simpa using hid), hmanaged hmanages] at hga
        contradiction
  | passwordReset hmanages =>
      dsimp only
      refine contained_changeUser hmanages.mem (hmanaged hmanages) ?_
      exact .of_roles rfl
  | rolesUpdated hmanages _ hassigned =>
      dsimp only
      refine contained_changeUser hmanages.mem (hmanaged hmanages) ?_
      exact noWorse_of_rolesUpdated hactor (hmanaged hmanages) hassigned rfl

/-! ## runs -/

/-- A request as it is sent, with what the hashing does to its passwords. -/
structure Submission where
  passwords : Passwords
  cookie : Option Cookie
  request : UserRequest

section Runs

variable (U : Ucd)

/-- The database after a request. -/
def Submission.apply (db : Db) (s : Submission) : Db := afterRequest U s.passwords db s.cookie s.request

/-- The database after each request of a run, from the start on. -/
def visited (db : Db) : List Submission → List Db
  | [] => [db]
  | s :: rest => db :: visited (s.apply U db) rest

/-- The database after a run. -/
def afterAll (db : Db) (run : List Submission) : Db := run.foldl (Submission.apply U) db

/-- No request of the run is sent in the session of a global admin. -/
def WithoutAdmins (db : Db) : List Submission → Prop
  | [] => True
  | s :: rest =>
      (∀ session, loadCurrentUser db s.cookie = .ok session →
        userIsGlobalAdmin db session.user = false) ∧
      WithoutAdmins (s.apply U db) rest

/-- The account has been there all along. -/
def StillThere (db : Db) (run : List Submission) (id : Nat) : Prop :=
  ∀ db' ∈ visited U db run, ∃ row ∈ db'.users.rows, row.id = id

instance decidableForallOk {e : Except ε α} {p : α → Prop} [DecidablePred p] :
    Decidable (∀ a, e = .ok a → p a) :=
  match e with
  | .error _ => isTrue fun _ h => nomatch h
  | .ok a => decidable_of_iff (p a) (by simp)

instance decidableWithoutAdmins : (db : Db) → (run : List Submission) →
    Decidable (WithoutAdmins U db run)
  | _, [] => isTrue trivial
  | db, s :: rest =>
      have := decidableWithoutAdmins (s.apply U db) rest
      inferInstanceAs (Decidable (_ ∧ _))

variable {U}

/-- A submission without a global admin is contained. -/
theorem contained_apply {db : Db} {s : Submission}
    (h : ∀ session, loadCurrentUser db s.cookie = .ok session →
      userIsGlobalAdmin db session.user = false) : Contained db.users (s.apply U db).users := by
  unfold Submission.apply afterRequest
  cases hchange : changeOf U s.passwords db s.cookie s.request with
  | none => exact .refl db.users
  | some change =>
      obtain ⟨session, hsession, heffect⟩ := effect_of_changeOf hchange
      exact contained_of_effect heffect (h session hsession)

/-- In a run without global admins, an account that is still there has gained
grantable roles only and lost no sensitive one, an account made on the way has
grantable roles only, and the global admins are as they were. -/
theorem no_escalation {db : Db} {run : List Submission} (h : WithoutAdmins U db run) :
    (∀ row' ∈ (afterAll U db run).users.rows, StillThere U db run row'.id →
        ∀ row ∈ db.users.rows, row.id = row'.id →
          (∀ r ∈ rolesOf row', r ∉ rolesOf row → Grantable r) ∧
            ∀ r ∈ sensitiveRoles, r ∈ rolesOf row → r ∈ rolesOf row') ∧
      (∀ row' ∈ (afterAll U db run).users.rows, ¬StillThere U db run row'.id →
        ∀ r ∈ rolesOf row', Grantable r) ∧
      ∀ row ∈ db.users.rows, targetIsGlobalAdmin row.val = true →
        row ∈ (afterAll U db run).users.rows := by
  induction run generalizing db with
  | nil =>
      refine ⟨fun row' hrow' _ row hrow hid => ?_, fun row' hrow' hn => ?_, fun row hrow _ => hrow⟩
      · rw [db.users.eq_of_id hrow hrow' hid]
        exact ⟨(NoWorse.refl row').gained, (NoWorse.refl row').kept⟩
      · refine absurd ?_ hn
        intro db' hdb'
        rw [List.mem_singleton.mp hdb']
        exact ⟨row', hrow', rfl⟩
  | cons s rest ih =>
      obtain ⟨hactor, hrest⟩ := h
      have hstep := contained_apply (U := U) hactor
      obtain ⟨hstays, hmade, hadmins⟩ := ih hrest
      have hthere : ∀ id, StillThere U db (s :: rest) id ↔
          (∃ row ∈ db.users.rows, row.id = id) ∧ StillThere U (s.apply U db) rest id := by
        intro id
        exact List.forall_mem_cons
      have hfirst : s.apply U db ∈ visited U (s.apply U db) rest := by
        cases rest <;> exact List.mem_cons_self
      refine ⟨fun row' hrow' hstill row hrow hid => ?_, fun row' hrow' hn => ?_, ?_⟩
      · obtain ⟨-, hstill⟩ := (hthere row'.id).mp hstill
        obtain ⟨mid, hmid, hmidId⟩ := hstill _ hfirst
        have hlater := hstays row' hrow' hstill mid hmid hmidId
        rcases hstep.rows mid hmid with hold | hnew
        · obtain ⟨old, hold, holdId, hworse⟩ := hold
          have heq : old = row := db.users.eq_of_id hold hrow (by rw [holdId, hmidId, hid])
          rw [heq] at hworse
          have htrans := hworse.trans ⟨hlater.1, hlater.2⟩
          exact ⟨htrans.gained, htrans.kept⟩
        · exact absurd (hid.trans hmidId.symm) (hnew.1 row hrow)
      · by_cases hstill : StillThere U (s.apply U db) rest row'.id
        · obtain ⟨mid, hmid, hmidId⟩ := hstill _ hfirst
          have hlater := hstays row' hrow' hstill mid hmid hmidId
          rcases hstep.rows mid hmid with hold | hnew
          · obtain ⟨old, hold, holdId, -⟩ := hold
            exact absurd ((hthere row'.id).mpr ⟨⟨old, hold, holdId.trans hmidId⟩, hstill⟩) hn
          · exact hnew.2.of_noWorse ⟨hlater.1, hlater.2⟩
        · exact hmade row' hrow' hstill
      · intro row hrow hga
        exact hadmins row (hstep.admins row hrow hga) hga

end Runs

/-- The admin `root`, `alice` who manages accounts, and `bob`. -/
def officeDb : Db :=
  { Db.empty with
    users := .ofList
      [⟨lit "root", [], serializeRoles [roleGlobalAdmin], false, 0⟩,
        ⟨lit "alice", [], serializeRoles [roleAccountUpdate], false, 0⟩,
        ⟨lit "bob", [], serializeRoles [], false, 0⟩] }

/-- Requests of `alice`: a new account, `bob` a global admin, `root` disabled. -/
def aliceRun : List Submission :=
  [.create (lit "carol") (lit "pw") [roleDnsZonesUpdate], .updateRoles 3 [roleGlobalAdmin],
    .disable 1].map (⟨plainPasswords, some ⟨lit "alice", 0⟩, ·⟩)

theorem no_escalation_alice :
    WithoutAdmins .ascii officeDb aliceRun ∧
      ((∀ row' ∈ (afterAll .ascii officeDb aliceRun).users.rows,
          StillThere .ascii officeDb aliceRun row'.id →
          ∀ row ∈ officeDb.users.rows, row.id = row'.id →
            (∀ r ∈ rolesOf row', r ∉ rolesOf row → Grantable r) ∧
              ∀ r ∈ sensitiveRoles, r ∈ rolesOf row → r ∈ rolesOf row') ∧
        (∀ row' ∈ (afterAll .ascii officeDb aliceRun).users.rows,
          ¬StillThere .ascii officeDb aliceRun row'.id → ∀ r ∈ rolesOf row', Grantable r) ∧
        ∀ row ∈ officeDb.users.rows, targetIsGlobalAdmin row.val = true →
          row ∈ (afterAll .ascii officeDb aliceRun).users.rows) :=
  have h : WithoutAdmins .ascii officeDb aliceRun := by decide
  ⟨h, no_escalation h⟩

end ApiToDns
