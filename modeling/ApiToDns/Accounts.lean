import ApiToDns.Users

/-!
# Accounts

What a request can do to the accounts, one constructor of `Effect` for each
handler (`effect_of_changeOf`).
-/

namespace ApiToDns

open Py

/-! ## tables of accounts -/

/-- The accounts after one of them is changed. -/
theorem mem_changeUser {users : Table User} {id : Nat} {f : User → User}
    {h : ∀ u, (f u).username = u.username} {row : Row User} :
    row ∈ (changeUser users id f h).rows ↔
      ∃ old ∈ users.rows, ⟨old.id, if old.id = id then f old.val else old.val⟩ = row :=
  Table.mem_update

/-- Other accounts stay as they are. -/
theorem mem_changeUser_of_ne {users : Table User} {id : Nat} {f : User → User}
    {h : ∀ u, (f u).username = u.username} {row : Row User} (hrow : row ∈ users.rows)
    (hid : row.id ≠ id) : row ∈ (changeUser users id f h).rows :=
  mem_changeUser.mpr ⟨row, hrow, by rw [if_neg hid]⟩

/-- An account is found by its name. -/
theorem username_of_byKey {users : Table User} {name : Str} {row : Row User}
    (h : users.byKey name = some row) : row ∈ users.rows ∧ row.val.username = name := by
  obtain ⟨hmem, hkey⟩ := Table.byKey_eq_some_iff.mp h
  exact ⟨hmem, Option.some.inj hkey⟩

/-- Each account is found by its name. -/
theorem byKey_of_username {users : Table User} {row : Row User} (h : row ∈ users.rows) :
    users.byKey row.val.username = some row :=
  Table.byKey_eq_some_iff.mpr ⟨h, rfl⟩

/-- Whether the account of a name is a global admin. -/
theorem userIsGlobalAdmin_of_byKey {db : Db} {user : Str} {row : Row User}
    (h : db.users.byKey user = some row) : userIsGlobalAdmin db user = targetIsGlobalAdmin row.val := by
  rw [userIsGlobalAdmin, getUserRoles, h]
  rfl

/-! ## sessions -/

/-- A session belongs to an enabled account. -/
theorem loadCurrentUser_eq_ok {db : Db} {cookie : Option Cookie} {session : Session}
    (h : loadCurrentUser db cookie = .ok session) :
    ∃ c row, cookie = some c ∧ session.user = strip c.username ∧ session.version = c.version ∧
      db.users.byKey session.user = some row ∧ row.val.disabled = false ∧
      row.val.sessionVersion = session.version := by
  unfold loadCurrentUser at h
  dsimp only at h
  split at h
  · contradiction
  · next c =>
      unfold verifySessionCookie at h
      dsimp only at h
      by_cases hblank : strip c.username = []
      · rw [if_pos hblank] at h
        contradiction
      · rw [if_neg hblank] at h
        dsimp only at h
        split at h
        · contradiction
        · next row hrow =>
            split at h
            · contradiction
            · next hok =>
                have hsession := Except.ok.inj h
                rw [← hsession]
                rw [not_or, Bool.not_eq_true, ne_eq, not_not] at hok
                exact ⟨c, row, rfl, rfl, rfl, hrow, hok.1, hok.2.symm⟩

/-- A request that is let through has a session. -/
theorem authorize_eq_ok {db : Db} {cookie : Option Cookie} {request : UserRequest}
    {session : Session} (h : authorize db cookie request = .ok session) :
    loadCurrentUser db cookie = .ok session := by
  unfold authorize at h
  obtain ⟨session', hsession, h⟩ := bind_eq_ok h
  split at h
  · rw [hsession]
    exact h
  · obtain ⟨-, -, h⟩ := bind_eq_ok h
    rw [hsession]
    exact h

/-! ## what a request can do -/

/-- The signed-in user may manage the account. -/
structure Manages (db : Db) (user : Str) (target : Row User) : Prop where
  mem : target ∈ db.users.rows
  guard : targetIsGlobalAdmin target.val = true → userIsGlobalAdmin db user = true

/-- A request acts on an account that the user manages. -/
theorem manages_of_targetOf {db : Db} {user : Str} {userId : Int} {target : Row User}
    (h : targetOf db user userId = .ok target) : Manages db user target := by
  unfold targetOf at h
  split at h
  · contradiction
  · next row hrow =>
      split at h
      · contradiction
      · next hguard =>
          rw [← Except.ok.inj h]
          refine ⟨(Table.get?_eq_some_iff.mp hrow).1, fun hga => ?_⟩
          unfold globalAdminGuardMessage at hguard
          by_contra hn
          simp [hga, hn] at hguard

/-- What a request of `user` that goes through has done. -/
inductive Effect (db : Db) (user : Str) : AccountChange → Prop
  | passwordChanged {target : Row User} {hash message : Str}
      (htarget : db.users.byKey user = some target) :
      Effect db user
        { event := .passwordChanged, target := user, message
          users := changeUser db.users target.id
            (fun u => bumpSessionVersion { u with passwordHash := hash }) fun _ => rfl
          version := some (target.val.sessionVersion + 1) }
  | created {row : User} {roles : List Str} {message : Str} {users : Table User}
      (hinsert : db.users.insert row = some users)
      (hassigned : validateRoleAssignment db user (normalizeSelectedRoles roles) [] = none)
      (hroles : row.roles = serializeRoles (normalizeSelectedRoles roles))
      (hversion : row.sessionVersion = 0) (hstrip : strip row.username = row.username) :
      Effect db user { event := .created, target := row.username, message, users }
  | disabled {target : Row User} {message : Str} (hmanages : Manages db user target)
      (hother : target.val.username ≠ user) :
      Effect db user
        { event := .disabled, target := target.val.username, message
          users := changeUser db.users target.id
            (fun u => bumpSessionVersion { u with disabled := true }) fun _ => rfl }
  | enabled {target : Row User} {message : Str} (hmanages : Manages db user target) :
      Effect db user
        { event := .enabled, target := target.val.username, message
          users := changeUser db.users target.id (fun u => { u with disabled := false })
            fun _ => rfl }
  | deleted {target : Row User} {message : Str} (hmanages : Manages db user target)
      (hdisabled : target.val.disabled = true) :
      Effect db user
        { event := .deleted, target := target.val.username, message
          users := db.users.delete fun row => row.id = target.id }
  | passwordReset {target : Row User} {hash message : Str} (hmanages : Manages db user target) :
      Effect db user
        { event := .passwordReset, target := target.val.username, message
          users := changeUser db.users target.id
            (fun u => bumpSessionVersion { u with passwordHash := hash }) fun _ => rfl }
  | rolesUpdated {target : Row User} {roles : List Str} {message : Str}
      (hmanages : Manages db user target) (hother : target.val.username ≠ user)
      (hassigned : validateRoleAssignment db user (normalizeSelectedRoles roles)
        (parseRoles target.val.roles) = none) :
      Effect db user
        { event := .rolesUpdated, target := target.val.username, message
          users := changeUser db.users target.id
            (fun u => bumpSessionVersion
              { u with roles := serializeRoles (normalizeSelectedRoles roles) }) fun _ => rfl }

section Effects

variable {U : Ucd} {pw : Passwords} {db : Db} {user : Str}

/-- What a change of the own password does. -/
theorem effect_of_selfPassword {current new confirm : Str} {change : AccountChange}
    (h : settingsSelfPasswordChange pw db user current new confirm = .ok change) :
    Effect db user change := by
  unfold settingsSelfPasswordChange at h
  split at h
  · contradiction
  · split at h
    · contradiction
    · split at h
      · contradiction
      · next target htarget =>
          split at h
          · contradiction
          · contradiction
          · rw [← Except.ok.inj h]
            exact .passwordChanged htarget

/-- What the creation of an account does. -/
theorem effect_of_create {username password : Str} {roles : List Str} {change : AccountChange}
    (h : settingsUserCreate U pw db user username password roles = .ok change) :
    Effect db user change := by
  unfold settingsUserCreate at h
  dsimp only at h
  split at h
  · contradiction
  · split at h
    · contradiction
    · split at h
      · contradiction
      · next hassigned =>
          split at h
          · contradiction
          · next users husers =>
              rw [← Except.ok.inj h]
              exact .created husers hassigned rfl rfl (strip_strip username)

/-- What disabling an account does. -/
theorem effect_of_disable {userId : Int} {change : AccountChange}
    (h : settingsUserDisable U db user userId = .ok change) : Effect db user change := by
  unfold settingsUserDisable at h
  obtain ⟨target, htarget, h⟩ := bind_eq_ok h
  dsimp only at h
  split at h
  · contradiction
  · split at h
    · contradiction
    · split at h
      · contradiction
      · next hother =>
          rw [← Except.ok.inj h]
          exact .disabled (manages_of_targetOf htarget) hother

/-- What enabling an account does. -/
theorem effect_of_enable {userId : Int} {change : AccountChange}
    (h : settingsUserEnable U db user userId = .ok change) : Effect db user change := by
  unfold settingsUserEnable at h
  obtain ⟨target, htarget, h⟩ := bind_eq_ok h
  dsimp only at h
  split at h
  · contradiction
  · rw [← Except.ok.inj h]
    exact .enabled (manages_of_targetOf htarget)

/-- What deleting an account does. -/
theorem effect_of_delete {userId : Int} {change : AccountChange}
    (h : settingsUserDelete U db user userId = .ok change) : Effect db user change := by
  unfold settingsUserDelete at h
  obtain ⟨target, htarget, h⟩ := bind_eq_ok h
  dsimp only at h
  split at h
  · contradiction
  · split at h
    · contradiction
    · split at h
      · contradiction
      · next hdisabled =>
          rw [← Except.ok.inj h]
          exact .deleted (manages_of_targetOf htarget) (by simpa using hdisabled)

/-- What resetting a password does. -/
theorem effect_of_resetPassword {userId : Int} {password confirm : Str} {change : AccountChange}
    (h : settingsUserResetPassword U pw db user userId password confirm = .ok change) :
    Effect db user change := by
  unfold settingsUserResetPassword at h
  split at h
  · contradiction
  · split at h
    · contradiction
    · obtain ⟨target, htarget, h⟩ := bind_eq_ok h
      dsimp only at h
      split at h
      · contradiction
      · rw [← Except.ok.inj h]
        exact .passwordReset (manages_of_targetOf htarget)

/-- What a change of roles does. -/
theorem effect_of_updateRoles {userId : Int} {roles : List Str} {change : AccountChange}
    (h : settingsUserUpdateRoles U db user userId roles = .ok change) : Effect db user change := by
  unfold settingsUserUpdateRoles at h
  obtain ⟨target, htarget, h⟩ := bind_eq_ok h
  dsimp only at h
  split at h
  · contradiction
  · next hother =>
      split at h
      · contradiction
      · next hassigned =>
          split at h
          · contradiction
          · rw [← Except.ok.inj h]
            exact .rolesUpdated (manages_of_targetOf htarget) hother hassigned

/-- What a request that is let through does. -/
theorem effect_of_handleRequest {request : UserRequest} {change : AccountChange}
    (h : handleRequest U pw db user request = .ok change) : Effect db user change := by
  cases request with
  | selfPassword current new confirm => exact effect_of_selfPassword h
  | create username password roles => exact effect_of_create h
  | disable userId => exact effect_of_disable h
  | enable userId => exact effect_of_enable h
  | delete userId => exact effect_of_delete h
  | resetPassword userId password confirm => exact effect_of_resetPassword h
  | updateRoles userId roles => exact effect_of_updateRoles h

/-- A request changes the accounts in the session of an enabled account, in
one of seven ways. -/
theorem effect_of_changeOf {cookie : Option Cookie} {request : UserRequest} {change : AccountChange}
    (h : changeOf U pw db cookie request = some change) :
    ∃ session, loadCurrentUser db cookie = .ok session ∧ Effect db session.user change := by
  unfold changeOf at h
  split at h
  · contradiction
  · next session hsession =>
      exact ⟨session, authorize_eq_ok hsession,
        effect_of_handleRequest (toOption_eq_some_iff.mp h)⟩

end Effects

end ApiToDns
