import ApiToDns.Accounts
import ApiToDns.Backup.Boot

/-!
# Admins

There is always a way in: an enabled global admin is kept by every request,
restore and startup (`hasAdmin_of_run`).
-/

namespace ApiToDns

open Py Backup

/-! ## events -/

/-- `_migrate_normalize_empty_user_roles`; SQLite's `TRIM` cuts spaces only. -/
def normalizeEmptyUserRoles (users : Table User) : Table User :=
  users.update
    (fun row =>
      if row.val.roles.all (· = ' ') then { row.val with roles := roleDnsZonesRead } else row.val)
    fun row => by split <;> rfl

/-- What `_startup_init` does to the accounts, with `ADMIN_USER` and
`ADMIN_PASSWORD` empty if they are not set. -/
def startupUsers (pw : Passwords) (adminUser adminPassword : Str) (users : Table User) : Table User :=
  let users := normalizeEmptyUserRoles users
  if adminUser = [] ∨ adminPassword = [] then users
  else
    let row : User :=
      { username := adminUser, passwordHash := pw.hash adminPassword
        roles := serializeRoles (allRoles ++ [roleGlobalAdmin]), disabled := false
        sessionVersion := 0 }
    (users.insert row).getD users

/-- What can happen to the accounts. -/
inductive AccountEvent where
  | request (pw : Passwords) (cookie : Option Cookie) (req : UserRequest)
  /-- a restore, whether it returns or raises -/
  | restore (m : Moment) (payload : Dict) (categories : List Str)
  | startup (pw : Passwords) (adminUser adminPassword : Str)
  /-- everything that leaves the accounts alone -/
  | elsewhere (host : Host)

variable (P : Platform)

/-- The installation after an event. -/
def AccountEvent.apply (host : Host) : AccountEvent → Host
  | .request pw cookie req => { host with db := afterRequest P.ucd pw host.db cookie req }
  | .restore m payload categories => (restorePayload P m payload categories host).2
  | .startup pw adminUser adminPassword =>
      match nextEncryptionKey P host with
      | none => host
      | some key =>
          { host with
            db := { host.db with users := startupUsers pw adminUser adminPassword host.db.users }
            processKey := key }
  | .elsewhere other => { other with db := { other.db with users := host.db.users } }

/-- The installation after a run of events. -/
def runAccounts (host : Host) (events : List AccountEvent) : Host :=
  events.foldl (AccountEvent.apply P) host

/-! ## the way in -/

/-- There is an enabled global admin. -/
def HasAdmin (users : Table User) : Prop :=
  ∃ row ∈ users.rows, row.val.disabled = false ∧ targetIsGlobalAdmin row.val = true

variable {P}

/-- An account that is changed in neither of the two stays an admin. -/
theorem hasAdmin_changeUser {users : Table User} {id : Nat} {f : User → User}
    {h : ∀ u, (f u).username = u.username} (hadmin : HasAdmin users)
    (hdisabled : ∀ u, u.disabled = false → (f u).disabled = false)
    (hroles : ∀ u, (f u).roles = u.roles) : HasAdmin (changeUser users id f h) := by
  obtain ⟨row, hrow, henabled, hga⟩ := hadmin
  refine ⟨_, mem_changeUser.mpr ⟨row, hrow, rfl⟩, ?_⟩
  by_cases hid : row.id = id
  · simp only [hid, if_true]
    exact ⟨hdisabled _ henabled, by rw [targetIsGlobalAdmin, hroles]; exact hga⟩
  · simp only [hid, if_false]
    exact ⟨henabled, hga⟩

/-- Changing another account than the actor's keeps an admin, if an admin's
account is changed by an admin only. -/
theorem hasAdmin_changeOther {db : Db} {user : Str} {actor target : Row User} {f : User → User}
    {h : ∀ u, (f u).username = u.username} (hadmin : HasAdmin db.users)
    (hactor : db.users.byKey user = some actor) (henabled : actor.val.disabled = false)
    (hmanages : Manages db user target) (hother : target.val.username ≠ user) :
    HasAdmin (changeUser db.users target.id f h) := by
  obtain ⟨row, hrow, hrowEnabled, hga⟩ := hadmin
  obtain ⟨hmem, hname⟩ := username_of_byKey hactor
  by_cases hid : row.id = target.id
  · -- the actor is an admin, too
    have heq : row = target := db.users.eq_of_id hrow hmanages.mem hid
    rw [heq] at hga
    have hactorGa := hmanages.guard hga
    rw [userIsGlobalAdmin_of_byKey hactor] at hactorGa
    refine ⟨actor, mem_changeUser_of_ne hmem fun hsame => hother ?_, henabled, hactorGa⟩
    rw [← db.users.eq_of_id hmem hmanages.mem hsame, hname]
  · exact ⟨row, mem_changeUser_of_ne hrow hid, hrowEnabled, hga⟩

/-- A new account takes no admin away. -/
theorem hasAdmin_insert {users after : Table User} {v : User} (hadmin : HasAdmin users)
    (h : users.insert v = some after) : HasAdmin after := by
  obtain ⟨row, hrow, hrest⟩ := hadmin
  refine ⟨row, ?_, hrest⟩
  rw [(Table.insert_eq_some_iff.mp h).2]
  exact List.mem_append_left _ hrow

/-- A request keeps an admin. -/
theorem hasAdmin_request {U : Ucd} {pw : Passwords} {db : Db} {cookie : Option Cookie}
    {request : UserRequest} (hadmin : HasAdmin db.users) :
    HasAdmin (afterRequest U pw db cookie request).users := by
  unfold afterRequest
  cases hchange : changeOf U pw db cookie request with
  | none => exact hadmin
  | some change =>
      obtain ⟨session, hsession, heffect⟩ := effect_of_changeOf hchange
      obtain ⟨_, actor, -, -, -, hactor, henabled, -⟩ := loadCurrentUser_eq_ok hsession
      cases heffect with
      | passwordChanged _ => exact hasAdmin_changeUser hadmin (fun _ h => h) fun _ => rfl
      | created hinsert => exact hasAdmin_insert hadmin hinsert
      | disabled hmanages hother =>
          exact hasAdmin_changeOther hadmin hactor henabled hmanages hother
      | enabled _ => exact hasAdmin_changeUser hadmin (fun _ _ => rfl) fun _ => rfl
      | deleted _ hdisabled =>
          obtain ⟨row, hrow, hrest⟩ := hadmin
          refine ⟨row, Table.mem_delete.mpr ⟨hrow, ?_⟩, hrest⟩
          rename_i target _ hmanages
          by_contra hid
          have heq := db.users.eq_of_id hrow hmanages.mem (by simpa using hid)
          rw [heq, hdisabled] at hrest
          exact absurd hrest.1 (by simp)
      | passwordReset _ => exact hasAdmin_changeUser hadmin (fun _ h => h) fun _ => rfl
      | rolesUpdated hmanages hother _ =>
          exact hasAdmin_changeOther hadmin hactor henabled hmanages hother

/-- New session versions keep an admin. -/
theorem hasAdmin_freshSessionVersions {m : Moment} {users : Table User} (hadmin : HasAdmin users) :
    HasAdmin (freshSessionVersions m users) := by
  obtain ⟨row, hrow, hrest⟩ := hadmin
  exact ⟨_, Table.mem_update.mpr ⟨row, hrow, rfl⟩, hrest⟩

/-- The accounts of a restore have an admin. -/
theorem hasAdmin_usersAfter {m : Moment} {key : Str} {cats : List Category} {payload : Dict}
    {db : Db} {users : Table User} (hadmin : HasAdmin db.users)
    (hvalid : validateRestoreRecords P key cats payload = .ok ())
    (h : usersAfter P m cats payload db = .ok users) : HasAdmin users := by
  unfold usersAfter at h
  split at h
  · next hcat =>
      obtain ⟨vs, hvs, hins⟩ := (restoreUsers_eq_ok_iff P m).mp h
      obtain ⟨item, hitem, roles, hadminItem⟩ := adminItem_of_checked hvalid hcat
      obtain ⟨i, hi⟩ := List.mem_iff_getElem?.mp hitem
      have hzip : (item, i) ∈ (itemsOf payload .users).zipIdx :=
        List.mem_zipIdx_iff_getElem?.mpr hi
      obtain ⟨user, huser, hbuild⟩ := exists_of_mapM_eq_ok hvs hzip
      obtain ⟨row, hrow, hval⟩ := (Table.exists_val_insertAll_iff hins).mpr (.inr huser)
      exact ⟨row, hrow, by rw [hval]; exact userOf_adminItem hadminItem hbuild⟩
  · rw [← Except.ok.inj h]
    exact hadmin

/-- A restore keeps an admin. -/
theorem hasAdmin_restore {m : Moment} {payload : Dict} {categories : List Str} {host : Host}
    (hadmin : HasAdmin host.db.users) :
    HasAdmin (restorePayload P m payload categories host).2.db.users := by
  generalize hr : restorePayload P m payload categories host = r
  rcases restored_or_same P m r.1 r.2 hr with hsame | hnew
  · rw [hsame.2]
    exact hadmin
  · obtain ⟨db, hrestored⟩ := hnew
    have husers := ((restoreDatabase_eq_ok_iff P m _ _ _ _ _).mp hrestored.database).2.1
    have hdb := hasAdmin_usersAfter hadmin hrestored.valid husers
    cases hrestored.files.users with
    | inl hsame =>
        rw [hsame]
        exact hdb
    | inr hfresh =>
        rw [hfresh.2.2]
        exact hasAdmin_freshSessionVersions hdb

/-- Roles of an admin are no blank text. -/
theorem not_blank_of_admin {u : User} (h : targetIsGlobalAdmin u = true) :
    u.roles.all (· = ' ') = false := by
  rw [targetIsGlobalAdmin_iff] at h
  by_contra hblank
  rw [Bool.not_eq_false, List.all_eq_true] at hblank
  have hcomma : ∀ s ∈ [u.roles], ',' ∉ s := by
    simp only [List.mem_singleton, forall_eq]
    intro hc
    exact absurd (hblank ',' hc) (by decide)
  have hsplit : u.roles.splitOn ',' = [u.roles] := by
    simpa using List.splitOn_intercalate ',' hcomma (by simp)
  have hstrip : strip u.roles = [] := strip_eq_nil fun c hc => by
    rw [show c = ' ' by simpa using hblank c hc]
    decide
  rw [parseRoles, hsplit] at h
  simp [hstrip] at h

/-- A startup keeps an admin. -/
theorem hasAdmin_startup {pw : Passwords} {adminUser adminPassword : Str} {users : Table User}
    (hadmin : HasAdmin users) : HasAdmin (startupUsers pw adminUser adminPassword users) := by
  have hnormalized : HasAdmin (normalizeEmptyUserRoles users) := by
    obtain ⟨row, hrow, henabled, hga⟩ := hadmin
    refine ⟨_, Table.mem_update.mpr ⟨row, hrow, rfl⟩, ?_⟩
    simp only [not_blank_of_admin hga, Bool.false_eq_true, if_false]
    exact ⟨henabled, hga⟩
  unfold startupUsers
  dsimp only
  split
  · exact hnormalized
  · cases hinsert : (normalizeEmptyUserRoles users).insert
        { username := adminUser, passwordHash := pw.hash adminPassword
          roles := serializeRoles (allRoles ++ [roleGlobalAdmin]), disabled := false
          sessionVersion := 0 } with
    | none => exact hnormalized
    | some after => exact hasAdmin_insert hnormalized hinsert

/-- Every event keeps an admin. -/
theorem hasAdmin_apply {host : Host} (event : AccountEvent) (hadmin : HasAdmin host.db.users) :
    HasAdmin (event.apply P host).db.users := by
  cases event with
  | request pw cookie req => exact hasAdmin_request hadmin
  | restore m payload categories => exact hasAdmin_restore hadmin
  | startup pw adminUser adminPassword =>
      unfold AccountEvent.apply
      dsimp only
      split
      · exact hadmin
      · exact hasAdmin_startup hadmin
  | elsewhere other => exact hadmin

/-- From an installation with an enabled global admin no run leads to one
without. -/
theorem hasAdmin_of_run {host : Host} (events : List AccountEvent)
    (hadmin : HasAdmin host.db.users) : HasAdmin (runAccounts P host events).db.users := by
  induction events generalizing host with
  | nil => exact hadmin
  | cons event events ih => exact ih (hasAdmin_apply event hadmin)

instance (users : Table User) : Decidable (HasAdmin users) :=
  inferInstanceAs (Decidable (∃ row ∈ users.rows, _))

/-- Passwords that are stored as they are. -/
def plainPasswords : Passwords := ⟨id, fun password hash => .ok (password = hash)⟩

/-- An installation with the admin `root` and the account `bob`. -/
def rootHost : Host :=
  { newHost with
    db :=
      { Db.empty with
        users := .ofList
          [⟨lit "root", lit "secret", serializeRoles [roleGlobalAdmin], false, 0⟩,
            ⟨lit "bob", lit "bobs", serializeRoles [], false, 0⟩] } }

/-- The admin tries to disable both accounts. -/
theorem hasAdmin_disableAll :
    HasAdmin (runAccounts .plain rootHost
      [.request plainPasswords (some ⟨lit "root", 0⟩) (.disable 2),
        .request plainPasswords (some ⟨lit "root", 0⟩) (.disable 1),
        .startup plainPasswords [] []]).db.users :=
  hasAdmin_of_run _ (by decide)

end ApiToDns
