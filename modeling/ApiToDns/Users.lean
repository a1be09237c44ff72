import ApiToDns.Rbac

/-!
# Users

Sessions (`auth.py`, `routes/auth_pages.py`) and the handlers that manage
accounts (`routes/settings_users.py`).

A handler either answers with a page that says why not, or makes one
`AccountChange`: a new table of accounts, with the activity event that records it.
-/

namespace ApiToDns

open Py

/-! ## sessions -/

/-- The payload of a signed session cookie that has not expired. -/
structure Cookie where
  username : Str
  version : Int
deriving DecidableEq, Repr

/-- What a request knows of the session it comes with. -/
structure Session where
  user : Str
  version : Int
  roles : List Str
deriving DecidableEq, Repr

/-- `verify_session_cookie`; `none` for a `BadSignature`. -/
def verifySessionCookie (cookie : Cookie) : Option (Str × Int) :=
  let username := strip cookie.username
  if username = [] then none else some (username, cookie.version)

/-- `load_current_user`. -/
def loadCurrentUser (db : Db) (cookie : Option Cookie) : Except HttpError Session :=
  let refusal : HttpError := ⟨401, .text (lit "Invalid or expired session")⟩
  match cookie with
  | none => .error ⟨401, .text (lit "Authentication required")⟩
  | some cookie =>
      match verifySessionCookie cookie with
      | none => .error refusal
      | some (username, version) =>
          match db.users.byKey username with
          | none => .error refusal
          | some row =>
              if row.val.disabled ∨ version ≠ row.val.sessionVersion then .error refusal
              else .ok ⟨username, version, effectiveRoles (parseRoles row.val.roles)⟩

/-- `require_role`. -/
def requireRole (role : Str) (session : Session) : Except HttpError Unit :=
  if rolesSatisfy session.roles role then .ok ()
  else .error ⟨403, .text (lit "You do not have permission to access this resource.")⟩

/-- What passlib does in a request; a `hash` is salted, and `verify` may not
know the format of a stored hash. -/
structure Passwords where
  hash : Str → Str
  verify : Str → Str → Except Exc Bool

/-- `POST /login`: the cookie of a login that succeeds. -/
def login (pw : Passwords) (db : Db) (username password : Str) : Option Cookie :=
  match db.users.byKey username with
  | none => none
  | some row =>
      if row.val.disabled then none
      else
        match pw.verify password row.val.passwordHash with
        | .ok true => some ⟨username, row.val.sessionVersion⟩
        | _ => none

/-! ## changes -/

/-- The activity events of account management. -/
inductive UserEvent where
  | passwordChanged
  | created
  | disabled
  | enabled
  | deleted
  | passwordReset
  | rolesUpdated
deriving DecidableEq, Repr

/-- What a handler that goes through does. -/
structure AccountChange where
  event : UserEvent
  target : Str
  message : Str
  users : Table User
  /-- the session version of the cookie that is set, if it is a new one -/
  version : Option Int := none

/-- The answer to a request. -/
inductive UserAnswer where
  /-- the settings page, with a message of kind `error` or not -/
  | page (message : Str) (error : Bool)
  /-- the page with the form for a new account filled in again -/
  | form (authFormError username : Str) (selectedRoles : List Str)
  | http (e : HttpError)
  /-- an exception that nothing handles -/
  | raised (exc : Exc)
deriving DecidableEq, Repr

/-- A page that says why not. -/
def refuse (message : Str) : Except UserAnswer α := .error (.page message true)

/-- `bump_session_version`. -/
def bumpSessionVersion (user : User) : User := { user with sessionVersion := user.sessionVersion + 1 }

/-- The accounts with the one of the rowid `id` changed. -/
def changeUser (users : Table User) (id : Nat) (f : User → User)
    (h : ∀ u, (f u).username = u.username) : Table User :=
  users.update (fun row => if row.id = id then f row.val else row.val) fun row => by
    show some _ = some _
    by_cases hid : row.id = id
    · rw [if_pos hid, h]
    · rw [if_neg hid]

/-! ## handlers -/

section Handlers

variable (U : Ucd) (pw : Passwords) (db : Db) (user : Str)

/-- The account a request is about, if the signed-in user may manage it. -/
def targetOf (userId : Int) : Except UserAnswer (Row User) :=
  -- no row has the id 0 or a negative one
  match db.users.get? userId.toNat with
  | none => refuse (lit "User not found.")
  | some target =>
      match globalAdminGuardMessage db user target.val with
      | some message => refuse message
      | none => .ok target

/-- `POST /settings/account/password`. -/
def settingsSelfPasswordChange (currentPassword newPassword confirmPassword : Str) :
    Except UserAnswer AccountChange :=
  if newPassword = [] then refuse (lit "A new password is required.")
  else if newPassword ≠ confirmPassword then
    refuse (lit "New password and confirmation do not match.")
  else
    match db.users.byKey user with
    | none => refuse (lit "Current password is incorrect.")
    | some target =>
        match pw.verify currentPassword target.val.passwordHash with
        | .error exc => .error (.raised exc)
        | .ok false => refuse (lit "Current password is incorrect.")
        | .ok true =>
            .ok { event := .passwordChanged, target := user, message := lit "Password changed."
                  users := changeUser db.users target.id
                    (fun u => bumpSessionVersion { u with passwordHash := pw.hash newPassword })
                    fun _ => rfl
                  version := some (target.val.sessionVersion + 1) }

/-- `POST /settings/users`. -/
def settingsUserCreate (username password : Str) (roles : List Str) : Except UserAnswer AccountChange :=
  let normalized := strip username
  let selectedRoles := normalizeSelectedRoles roles
  if normalized = [] then .error (.form (lit "Username is required.") username selectedRoles)
  else if password = [] then
    .error (.form (lit "Password is required.") normalized selectedRoles)
  else
    match validateRoleAssignment db user selectedRoles [] with
    | some assignmentError => .error (.form assignmentError normalized selectedRoles)
    | none =>
        let row : User :=
          { username := normalized, passwordHash := pw.hash password
            roles := serializeRoles selectedRoles, disabled := false, sessionVersion := 0 }
        match db.users.insert row with
        | none =>
            .error (.form (lit "A user named " ++ U.repr normalized ++ lit " already exists.")
              normalized selectedRoles)
        | some users =>
            .ok { event := .created, target := normalized
                  message := lit "User " ++ U.repr normalized ++ lit " created.", users }

/-- `POST /settings/users/{user_id}/disable`. -/
def settingsUserDisable (userId : Int) : Except UserAnswer AccountChange := do
  let target ← targetOf db user userId
  let username := target.val.username
  if target.val.disabled then
    refuse (lit "User " ++ U.repr username ++ lit " is already disabled.")
  else if (db.users.rows.filter fun row => row.val.disabled = false).length ≤ 1 then
    refuse (lit "At least one enabled user account must remain.")
  else if username = user then
    refuse (lit "You cannot disable the user you are signed in as.")
  else
    .ok { event := .disabled, target := username
          message := lit "User " ++ U.repr username ++ lit " disabled."
          users := changeUser db.users target.id
            (fun u => bumpSessionVersion { u with disabled := true }) fun _ => rfl }

/-- `POST /settings/users/{user_id}/enable`. -/
def settingsUserEnable (userId : Int) : Except UserAnswer AccountChange := do
  let target ← targetOf db user userId
  let username := target.val.username
  if target.val.disabled = false then
    refuse (lit "User " ++ U.repr username ++ lit " is already enabled.")
  else
    .ok { event := .enabled, target := username
          message := lit "User " ++ U.repr username ++ lit " enabled."
          users := changeUser db.users target.id (fun u => { u with disabled := false })
            fun _ => rfl }

/-- `POST /settings/users/{user_id}/delete`. -/
def settingsUserDelete (userId : Int) : Except UserAnswer AccountChange := do
  let target ← targetOf db user userId
  let username := target.val.username
  if db.users.rows.length ≤ 1 then refuse (lit "At least one user account must remain.")
  else if username = user then
    refuse (lit "You cannot delete the user you are signed in as.")
  else if target.val.disabled = false then
    refuse (lit "Disable the user account before deleting it.")
  else
    .ok { event := .deleted, target := username
          message := lit "User " ++ U.repr username ++ lit " deleted."
          users := db.users.delete fun row => row.id = target.id }

/-- `POST /settings/users/{user_id}/password`. -/
def settingsUserResetPassword (userId : Int) (password confirmPassword : Str) :
    Except UserAnswer AccountChange :=
  if password = [] ∨ confirmPassword = [] then refuse (lit "A new password is required.")
  else if password ≠ confirmPassword then
    refuse (lit "New password and confirmation do not match.")
  else do
    let target ← targetOf db user userId
    let username := target.val.username
    if target.val.disabled then
      refuse (lit "Enable the user account before resetting its password.")
    else
      .ok { event := .passwordReset, target := username
            message := lit "Password reset for " ++ U.repr username ++ ['.']
            users := changeUser db.users target.id
              (fun u => bumpSessionVersion { u with passwordHash := pw.hash password })
              fun _ => rfl }

/-- `POST /settings/users/{user_id}/roles`. -/
def settingsUserUpdateRoles (userId : Int) (roles : List Str) : Except UserAnswer AccountChange := do
  let selected := normalizeSelectedRoles roles
  let target ← targetOf db user userId
  let username := target.val.username
  if username = user then
    refuse (lit "You cannot edit roles for the user you are signed in as.")
  else
    match validateRoleAssignment db user selected (parseRoles target.val.roles) with
    | some assignmentError => refuse assignmentError
    | none =>
        if target.val.disabled then
          refuse (lit "Enable the user account before editing its roles.")
        else
          .ok { event := .rolesUpdated, target := username
                message := lit "Roles updated for " ++ U.repr username ++ ['.']
                users := changeUser db.users target.id
                  (fun u => bumpSessionVersion { u with roles := serializeRoles selected })
                  fun _ => rfl }

end Handlers

/-! ## requests -/

/-- A request that manages accounts. -/
inductive UserRequest where
  | selfPassword (currentPassword newPassword confirmPassword : Str)
  | create (username password : Str) (roles : List Str)
  | disable (userId : Int)
  | enable (userId : Int)
  | delete (userId : Int)
  | resetPassword (userId : Int) (password confirmPassword : Str)
  | updateRoles (userId : Int) (roles : List Str)
deriving DecidableEq, Repr

/-- The role that a request needs. -/
def UserRequest.role : UserRequest → Option Str
  | .selfPassword .. => none
  | .resetPassword .. => some roleAccountResetPassword
  | _ => some roleAccountUpdate

section Requests

variable (U : Ucd) (pw : Passwords) (db : Db)

/-- The handler of a request. -/
def handleRequest (user : Str) : UserRequest → Except UserAnswer AccountChange
  | .selfPassword currentPassword newPassword confirmPassword =>
      settingsSelfPasswordChange pw db user currentPassword newPassword confirmPassword
  | .create username password roles => settingsUserCreate U pw db user username password roles
  | .disable userId => settingsUserDisable U db user userId
  | .enable userId => settingsUserEnable U db user userId
  | .delete userId => settingsUserDelete U db user userId
  | .resetPassword userId password confirmPassword =>
      settingsUserResetPassword U pw db user userId password confirmPassword
  | .updateRoles userId roles => settingsUserUpdateRoles U db user userId roles

/-- The session a request is served in, with the role it needs. -/
def authorize (cookie : Option Cookie) (request : UserRequest) : Except HttpError Session := do
  let session ← loadCurrentUser db cookie
  match request.role with
  | none => .ok session
  | some role =>
      requireRole role session
      .ok session

/-- The change that a request makes, if it goes through. -/
def changeOf (cookie : Option Cookie) (request : UserRequest) : Option AccountChange :=
  match authorize db cookie request with
  | .error _ => none
  | .ok session => (handleRequest U pw db session.user request).toOption

/-- The answer to a request, and the session cookie that
`refresh_session_cookie` sets on it. -/
def answerRequest (cookie : Option Cookie) (request : UserRequest) :
    UserAnswer × Option Cookie :=
  match authorize db cookie request with
  | .error e => (.http e, none)
  | .ok session =>
      match handleRequest U pw db session.user request with
      | .error (.raised exc) => (.raised exc, none)
      | .error answer => (answer, some ⟨session.user, session.version⟩)
      | .ok change =>
          (.page change.message false,
            some ⟨session.user, change.version.getD session.version⟩)

/-- The database after a request. -/
def afterRequest (cookie : Option Cookie) (request : UserRequest) : Db :=
  match changeOf U pw db cookie request with
  | none => db
  | some change => { db with users := change.users }

end Requests

end ApiToDns
