import ApiToDns.Admins

/-!
# Sessions

Runs of logins, requests, restores and startups, with the session cookies that
were issued on the way.  A cookie holds a username and a session version, so
it comes back to life once the account of that name has that version again.
The handlers only ever raise the version of an account, and a restore draws a
new one, but a new account starts at 0 whatever was issued under its name.

* `revoked_refused` — revoked cookies stay dead in a run that gives no account a
  version under which a cookie was issued in its name before.
* `revoked_accepted` — a deleted account that is made again takes its old
  cookie.
-/

namespace ApiToDns

open Py Backup

/-! ## runs -/

/-- A login, another page that is visited in a session, or something that may
change the accounts. -/
inductive SessionEvent where
  | login (pw : Passwords) (username password : Str)
  | browse (cookie : Option Cookie)
  | account (event : AccountEvent)

/-- An installation, the cookies issued so far, and those of them that were
issued to an account before it was changed in a way that ends its sessions. -/
structure SessionState where
  host : Host
  issued : List Cookie
  revoked : List Cookie

/-- The events that end the sessions of their target. -/
def UserEvent.revokes : UserEvent → Bool
  | .created => false
  | .enabled => false
  | _ => true

/-- The cookie that `refresh_session_cookie` sets on a page. -/
def refreshed (db : Db) (cookie : Option Cookie) : Option Cookie :=
  (loadCurrentUser db cookie).toOption.map fun session => ⟨session.user, session.version⟩

section Steps

variable (P : Platform)

/-- A restore commits a new table of accounts. -/
def replacesUsers (m : Moment) (payload : Dict) (categories : List Str) (host : Host) : Bool :=
  let cats := normalizeCategories categories
  .users ∈ cats && (validateRestoreRecords P host.processKey cats payload).toOption.isSome &&
    (restoreDatabase P m host.processKey (archiveKey P cats payload) cats payload
      host.db).toOption.isSome

/-- The cookies of accounts whose sessions the event ends. -/
def AccountEvent.ended (host : Host) (issued : List Cookie) : AccountEvent → List Cookie
  | .request pw cookie req =>
      match changeOf P.ucd pw host.db cookie req with
      | none => []
      | some change =>
          if change.event.revokes then issued.filter (·.username = change.target) else []
  | .restore m payload categories => if replacesUsers P m payload categories host then issued else []
  | _ => []

/-- The cookie that is set by the answer; a restore runs in the background. -/
def AccountEvent.cookie (host : Host) : AccountEvent → Option Cookie
  | .request pw cookie req => (answerRequest P.ucd pw host.db cookie req).2
  | _ => none

def SessionEvent.apply (s : SessionState) : SessionEvent → SessionState
  | .login pw username password =>
      { s with issued := s.issued ++ (ApiToDns.login pw s.host.db username password).toList }
  | .browse cookie => { s with issued := s.issued ++ (refreshed s.host.db cookie).toList }
  | .account event =>
      { host := event.apply P s.host
        issued := s.issued ++ (event.cookie P s.host).toList
        revoked := s.revoked ++ event.ended P s.host s.issued }

/-- The states of a run, from the first on. -/
def sessionStates (s : SessionState) : List SessionEvent → List SessionState
  | [] => [s]
  | event :: rest => s :: sessionStates (event.apply P s) rest

/-! ## when cookies stay dead -/

/-- No cookie has been issued under the name with the version. -/
def Unissued (issued : List Cookie) (username : Str) (version : Int) : Prop :=
  ∀ c ∈ issued, c.username = username → c.version ≠ version

instance (issued : List Cookie) (username : Str) (version : Int) :
    Decidable (Unissued issued username version) :=
  inferInstanceAs (Decidable (∀ c ∈ issued, _))

/-- The version that a change gives its target, if it gives it a new one. -/
def AccountChange.newVersion (users : Table User) (change : AccountChange) : Option Int :=
  match change.event with
  | .created => some 0
  | .enabled | .deleted => none
  | _ => (users.byKey change.target).map fun row => row.val.sessionVersion + 1

/-- The event leaves old cookies dead: a version that an account is given has not
been issued under its name, the versions that a restore draws are fresh, and nobody
signs in under a name that the session check would strip. -/
def SessionEvent.Proper (s : SessionState) : SessionEvent → Prop
  | .login pw username password =>
      ApiToDns.login pw s.host.db username password ≠ none → strip username = username
  | .browse _ => True
  | .account (.request pw cookie req) =>
      ∀ change ∈ changeOf P.ucd pw s.host.db cookie req,
        ∀ version ∈ change.newVersion s.host.db.users, Unissued s.issued change.target version
  | .account (.restore m _ _) => ∀ i, ∀ c ∈ s.issued, c.version ≠ m.draw i
  | .account (.startup _ adminUser adminPassword) =>
      nextEncryptionKey P s.host ≠ none → adminUser ≠ [] → adminPassword ≠ [] →
        (∀ row ∈ s.host.db.users.rows, row.val.username ≠ adminUser) →
          Unissued s.issued adminUser 0
  | .account (.elsewhere _) => True

/-- Every event of the run is proper. -/
def ProperRun (s : SessionState) : List SessionEvent → Prop
  | [] => True
  | event :: rest => event.Proper P s ∧ ProperRun (event.apply P s) rest

/-! ## accounts in a step -/

/-- Where the version of an account comes from, the cookies `ended` being those of
the issued ones that the step has to end. -/
inductive VersionFrom (before : Table User) (issued ended : List Cookie) (u : User) : Prop
  | set (h : Unissued issued u.username u.sessionVersion)
  | kept {row : Row User} (hrow : row ∈ before.rows) (hname : row.val.username = u.username)
      (hversion : u.sessionVersion = row.val.sessionVersion)
      (hended : ∀ c ∈ ended, c.username ≠ u.username)

/-- What a request makes of an account. -/
inductive RowFrom (before : Table User) (change : AccountChange) (u : User) : Prop
  | set (hname : u.username = change.target)
      (hversion : change.newVersion before = some u.sessionVersion)
  | kept {row : Row User} (hrow : row ∈ before.rows) (hname : row.val.username = u.username)
      (hversion : u.sessionVersion = row.val.sessionVersion)
      (hother : change.event.revokes = true → u.username ≠ change.target)

end Steps

/-- A name belongs to one account. -/
theorem eq_of_username {users : Table User} {row row' : Row User} (h : row ∈ users.rows)
    (h' : row' ∈ users.rows) (hname : row.val.username = row'.val.username) : row = row' := by
  have hrow := byKey_of_username h
  rw [hname, byKey_of_username h'] at hrow
  simpa using hrow.symm

/-- A change that bumps the version of its target. -/
theorem rowFrom_bump {users : Table User} {target : Row User} {change : AccountChange}
    {f : User → User} {h : ∀ u, (f u).username = u.username} {row' : Row User}
    (hmem : target ∈ users.rows) (htarget : change.target = target.val.username)
    (hnew : change.newVersion users = some (target.val.sessionVersion + 1))
    (hversion : ∀ u, (f u).sessionVersion = u.sessionVersion + 1)
    (hrow' : row' ∈ (changeUser users target.id f h).rows) : RowFrom users change row'.val := by
  obtain ⟨row, hrow, heq⟩ := mem_changeUser.mp hrow'
  rw [← heq]
  by_cases hid : row.id = target.id
  · have hsame : row = target := Table.eq_of_id users hrow hmem hid
    refine .set ?_ ?_
    · simp [hsame, h, htarget]
    · simp [hsame, hversion, hnew]
  · refine .kept hrow (by simp [hid]) (by simp [hid]) fun _ => ?_
    simp only [hid, if_false]
    intro hname
    rw [htarget] at hname
    exact hid (by rw [eq_of_username hrow hmem hname])

/-- Where an account comes from after a change. -/
theorem rowFrom_of_effect {db : Db} {user : Str} {change : AccountChange}
    (heffect : Effect db user change) {row' : Row User} (hrow' : row' ∈ change.users.rows) :
    RowFrom db.users change row'.val := by
  have hbumped : ∀ {target : Row User}, target ∈ db.users.rows →
      (db.users.byKey target.val.username).map (fun row => row.val.sessionVersion + 1) =
        some (target.val.sessionVersion + 1) := fun hmem => by
    rw [byKey_of_username hmem, Option.map_some]
  cases heffect with
  | passwordChanged htarget =>
      obtain ⟨hmem, hname⟩ := username_of_byKey htarget
      exact rowFrom_bump hmem hname.symm (hname ▸ hbumped hmem) (fun _ => rfl) hrow'
  | created hinsert _ _ hversion _ =>
      obtain ⟨-, hrows⟩ := Table.insert_eq_some_iff.mp hinsert
      dsimp only at hrow'
      rw [hrows, List.mem_append, List.mem_singleton] at hrow'
      cases hrow' with
      | inl hold => exact .kept hold rfl rfl (by simp [UserEvent.revokes])
      | inr heq =>
          rw [heq]
          exact .set rfl (by simp [AccountChange.newVersion, hversion])
  | disabled hmanages _ =>
      exact rowFrom_bump hmanages.mem rfl (hbumped hmanages.mem) (fun _ => rfl) hrow'
  | enabled hmanages =>
      obtain ⟨row, hrow, heq⟩ := mem_changeUser.mp hrow'
      rw [← heq]
      refine .kept hrow ?_ ?_ (by simp [UserEvent.revokes]) <;> split <;> rfl
  | deleted hmanages _ =>
      obtain ⟨hrow, hid⟩ := Table.mem_delete.mp hrow'
      refine .kept hrow rfl rfl fun _ hname => ?_
      rw [eq_of_username hrow hmanages.mem hname] at hid
      simp at hid
  | passwordReset hmanages =>
      exact rowFrom_bump hmanages.mem rfl (hbumped hmanages.mem) (fun _ => rfl) hrow'
  | rolesUpdated hmanages _ _ =>
      exact rowFrom_bump hmanages.mem rfl (hbumped hmanages.mem) (fun _ => rfl) hrow'

/-- Where its version comes from. -/
theorem versionFrom_of_rowFrom {before : Table User} {change : AccountChange} {u : User}
    {issued : List Cookie}
    (hnew : ∀ version ∈ change.newVersion before, Unissued issued change.target version)
    (hrow : RowFrom before change u) :
    VersionFrom before issued
      (if change.event.revokes then issued.filter (·.username = change.target) else []) u := by
  cases hrow with
  | set hname hversion => exact .set (hname ▸ hnew _ hversion)
  | kept hrow hsame hversion hother =>
      refine .kept hrow hsame hversion fun c hc hname => ?_
      by_cases hrevokes : change.event.revokes = true
      · rw [if_pos hrevokes] at hc
        exact hother hrevokes (hname.symm.trans (of_decide_eq_true (List.mem_filter.mp hc).2))
      · rw [if_neg hrevokes] at hc
        contradiction

section Account

variable {P : Platform} {host : Host} {issued : List Cookie}

/-- Accounts that are kept as they are, with nothing to end. -/
theorem versionFrom_same {before after : Table User} {row' : Row User} (h : after = before)
    (hrow' : row' ∈ after.rows) : VersionFrom before issued [] row'.val := by
  rw [h] at hrow'
  exact .kept hrow' rfl rfl fun _ hc => absurd hc List.not_mem_nil

/-- Where a version comes from after a request. -/
theorem versionFrom_request {pw : Passwords} {cookie : Option Cookie} {req : UserRequest}
    {row' : Row User}
    (hproper : ∀ change ∈ changeOf P.ucd pw host.db cookie req,
      ∀ version ∈ change.newVersion host.db.users, Unissued issued change.target version)
    (hrow' : row' ∈ (afterRequest P.ucd pw host.db cookie req).users.rows) :
    VersionFrom host.db.users issued ((AccountEvent.request pw cookie req).ended P host issued)
      row'.val := by
  rw [AccountEvent.ended]
  rw [afterRequest] at hrow'
  cases hchange : changeOf P.ucd pw host.db cookie req with
  | none =>
      simp only [hchange] at hrow' ⊢
      exact versionFrom_same rfl hrow'
  | some change =>
      simp only [hchange] at hrow' ⊢
      obtain ⟨session, -, heffect⟩ := effect_of_changeOf hchange
      exact versionFrom_of_rowFrom (hproper change hchange) (rowFrom_of_effect heffect hrow')

/-- A restored account has a version that was drawn. -/
theorem exists_draw_of_restoreUsers {m : Moment} {items : List Json} {users : Table User}
    (h : restoreUsers P m items = .ok users) {row : Row User} (hrow : row ∈ users.rows) :
    ∃ i, row.val.sessionVersion = m.draw i := by
  obtain ⟨vs, hvs, hins⟩ := (restoreUsers_eq_ok_iff P m).mp h
  have hval := (Table.exists_val_insertAll_iff hins).mp ⟨row, hrow, rfl⟩
  simp only [Table.empty, List.not_mem_nil, false_and, exists_false, false_or] at hval
  obtain ⟨item, -, hitem⟩ := mem_of_mapM_eq_ok hvs hval
  unfold userOf at hitem
  obtain ⟨_, -, hitem⟩ := bind_eq_ok hitem
  obtain ⟨_, -, hitem⟩ := bind_eq_ok hitem
  obtain ⟨_, -, hitem⟩ := bind_eq_ok hitem
  exact ⟨item.2, by rw [← Except.ok.inj hitem]⟩

/-- A restore that replaces the accounts draws new versions. -/
theorem restored_of_replacesUsers {m : Moment} {payload : Dict} {categories : List Str}
    (h : replacesUsers P m payload categories host = true) {row' : Row User}
    (hrow' : row' ∈ (restorePayload P m payload categories host).2.db.users.rows) :
    ∃ i, row'.val.sessionVersion = m.draw i := by
  unfold replacesUsers at h
  simp only [Bool.and_eq_true, decide_eq_true_eq, Option.isSome_iff_exists,
    toOption_eq_some_iff] at h
  obtain ⟨⟨hcat, ⟨⟩, hvalid⟩, db, hdb⟩ := h
  have hcats : normalizeCategories categories ≠ [] := List.ne_nil_of_mem hcat
  have hrestore : restorePayload P m payload categories host =
      restoreFiles P m (archiveKey P (normalizeCategories categories) payload)
        (normalizeCategories categories) payload { host with db := db } := by
    unfold restorePayload
    simp only [hcats, if_false, hvalid, hdb]
  have hfiles := filesEffect_restoreFiles P m (normalizeCategories categories) payload
    { host with db := db } (archiveKey P (normalizeCategories categories) payload)
  rw [hrestore, hfiles.users.resolve_right fun hn => hn.2.1 hcat] at hrow'
  have husers := ((restoreDatabase_eq_ok_iff P m _ _ _ _ _).mp hdb).2.1
  rw [usersAfter, if_pos hcat] at husers
  exact exists_draw_of_restoreUsers husers hrow'

/-- Any other restore leaves the accounts, or their versions are new. -/
theorem users_of_not_replacesUsers {m : Moment} {payload : Dict} {categories : List Str}
    (h : replacesUsers P m payload categories host = false) :
    (restorePayload P m payload categories host).2.db.users = host.db.users ∨
      (restorePayload P m payload categories host).2.db.users =
        freshSessionVersions m host.db.users := by
  generalize hr : restorePayload P m payload categories host = r
  rcases restored_or_same P m r.1 r.2 hr with hsame | hnew
  · rw [hsame.2]
    exact .inl rfl
  · obtain ⟨db, hrestored⟩ := hnew
    have hcat : .users ∉ normalizeCategories categories := by
      intro hcat
      unfold replacesUsers at h
      simp [hcat, hrestored.valid, hrestored.database, Except.toOption] at h
    have husers := ((restoreDatabase_eq_ok_iff P m _ _ _ _ _).mp hrestored.database).2.1
    rw [usersAfter, if_neg hcat] at husers
    have hdb := Except.ok.inj husers
    rw [hdb]
    exact hrestored.files.users.imp_right fun hfresh => hfresh.2.2

/-- Where a version comes from after a restore. -/
theorem versionFrom_restore {m : Moment} {payload : Dict} {categories : List Str} {row' : Row User}
    (hproper : ∀ i, ∀ c ∈ issued, c.version ≠ m.draw i)
    (hrow' : row' ∈ (restorePayload P m payload categories host).2.db.users.rows) :
    VersionFrom host.db.users issued
      ((AccountEvent.restore m payload categories).ended P host issued) row'.val := by
  have hdrawn : ∀ {ended}, (∃ i, row'.val.sessionVersion = m.draw i) →
      VersionFrom host.db.users issued ended row'.val := by
    intro ended hdraw
    obtain ⟨i, hi⟩ := hdraw
    exact .set fun c hc _ => by rw [hi]; exact hproper i c hc
  by_cases hreplaces : replacesUsers P m payload categories host = true
  · exact hdrawn (restored_of_replacesUsers hreplaces hrow')
  · rw [Bool.not_eq_true] at hreplaces
    rcases users_of_not_replacesUsers hreplaces with hsame | hfresh
    · rw [AccountEvent.ended, hreplaces]
      exact versionFrom_same hsame hrow'
    · rw [hfresh] at hrow'
      obtain ⟨row, -, heq⟩ := Table.mem_update.mp hrow'
      exact hdrawn ⟨row.id, by rw [← heq]⟩

/-- Normalizing roles keeps the accounts and their versions. -/
theorem mem_normalizeEmptyUserRoles {users : Table User} {row' : Row User}
    (h : row' ∈ (normalizeEmptyUserRoles users).rows) :
    ∃ row ∈ users.rows, row.val.username = row'.val.username ∧
      row'.val.sessionVersion = row.val.sessionVersion := by
  obtain ⟨row, hrow, heq⟩ := Table.mem_update.mp h
  refine ⟨row, hrow, ?_⟩
  rw [← heq]
  dsimp only
  split <;> exact ⟨rfl, rfl⟩

/-- No account is lost. -/
theorem key_normalizeEmptyUserRoles {users : Table User} {row : Row User} (h : row ∈ users.rows) :
    ∃ row' ∈ (normalizeEmptyUserRoles users).rows, row'.val.username = row.val.username := by
  refine ⟨_, Table.mem_update.mpr ⟨row, h, rfl⟩, ?_⟩
  dsimp only
  split <;> rfl

/-- Where a version comes from after a startup. -/
theorem versionFrom_startup {pw : Passwords} {adminUser adminPassword : Str} {users : Table User}
    {row' : Row User}
    (hproper : adminUser ≠ [] → adminPassword ≠ [] →
      (∀ row ∈ users.rows, row.val.username ≠ adminUser) → Unissued issued adminUser 0)
    (hrow' : row' ∈ (startupUsers pw adminUser adminPassword users).rows) :
    VersionFrom users issued [] row'.val := by
  have hold : ∀ {row'}, row' ∈ (normalizeEmptyUserRoles users).rows →
      VersionFrom users issued [] row'.val := by
    intro row' hrow'
    obtain ⟨row, hrow, hsame, hversion⟩ := mem_normalizeEmptyUserRoles hrow'
    exact .kept hrow hsame hversion fun _ hc => absurd hc List.not_mem_nil
  unfold startupUsers at hrow'
  dsimp only at hrow'
  split at hrow'
  · exact hold hrow'
  · next hset =>
    rw [not_or] at hset
    generalize hadmin : (User.mk adminUser _ _ false 0) = admin at hrow'
    have husername : admin.username = adminUser := by rw [← hadmin]
    have hversion : admin.sessionVersion = 0 := by rw [← hadmin]
    cases hinsert : (normalizeEmptyUserRoles users).insert admin with
    | none =>
        rw [hinsert] at hrow'
        exact hold hrow'
    | some after =>
        obtain ⟨hfree, hrows⟩ := Table.insert_eq_some_iff.mp hinsert
        rw [hinsert, Option.getD_some, hrows, List.mem_append, List.mem_singleton] at hrow'
        cases hrow' with
        | inl h => exact hold h
        | inr heq =>
            rw [heq]
            refine .set ?_
            show Unissued issued admin.username admin.sessionVersion
            rw [husername, hversion]
            refine hproper hset.1 hset.2 fun row hrow hrowName => ?_
            obtain ⟨row', hrow', hsame⟩ := key_normalizeEmptyUserRoles hrow
            refine hfree row' hrow' row'.val.username rfl ?_
            exact congrArg some (husername.trans (hsame.trans hrowName).symm)

/-- Where a version comes from after an event. -/
theorem versionFrom_apply {s : SessionState} {event : AccountEvent} {row' : Row User}
    (hproper : (SessionEvent.account event).Proper P s)
    (hrow' : row' ∈ (event.apply P s.host).db.users.rows) :
    VersionFrom s.host.db.users s.issued (event.ended P s.host s.issued) row'.val := by
  cases event with
  | request pw cookie req => exact versionFrom_request hproper hrow'
  | restore m payload categories => exact versionFrom_restore hproper hrow'
  | startup pw adminUser adminPassword =>
      unfold AccountEvent.apply at hrow'
      dsimp only at hrow'
      split at hrow'
      · exact versionFrom_same rfl hrow'
      · next key hkey => exact versionFrom_startup (hproper (by rw [hkey]; simp)) hrow'
  | elsewhere other => exact versionFrom_same rfl hrow'

end Account

/-! ## cookies in a step -/

section Cookies

variable {users after : Table User} {issued ended : List Cookie} {c : Cookie}

/-- The session check reads the name of the cookie as it is. -/
def Cookie.Plain (c : Cookie) : Prop := strip c.username = c.username

/-- No account has the name and the version of the cookie. -/
def Dead (users : Table User) (c : Cookie) : Prop :=
  ∀ row ∈ users.rows, row.val.username = c.username → c.version ≠ row.val.sessionVersion

/-- A cookie that is to be ended is dead after the step, and a dead one stays
dead. -/
theorem dead_step (hc : c ∈ issued) (hdead : c ∈ ended ∨ Dead users c)
    (hfrom : ∀ row' ∈ after.rows, VersionFrom users issued ended row'.val) : Dead after c := by
  intro row' hrow' hname
  cases hfrom row' hrow' with
  | set hunissued => exact hunissued c hc hname.symm
  | kept hrow hsame hversion hended =>
      rw [hversion]
      rcases hdead with hmem | hdead
      · exact absurd hname.symm (hended c hmem)
      · exact hdead _ hrow (hsame.trans hname)

/-- A dead cookie is not accepted. -/
theorem Dead.refused {db : Db} (h : Dead db.users c) (hplain : c.Plain) (session : Session) :
    loadCurrentUser db (some c) ≠ .ok session := by
  intro hok
  obtain ⟨c', row, heq, huser, hversion, hrow, -, hrowVersion⟩ := loadCurrentUser_eq_ok hok
  rw [← Option.some.inj heq] at huser hversion
  obtain ⟨hmem, hname⟩ := username_of_byKey hrow
  exact h row hmem (by rw [hname, huser, hplain]) (hversion.symm.trans hrowVersion.symm)

/-- The cookies of a session have the name that the session check has read. -/
theorem plain_of_session {db : Db} {cookie : Option Cookie} {session : Session}
    (h : loadCurrentUser db cookie = .ok session) (version : Int) :
    (Cookie.mk session.user version).Plain := by
  obtain ⟨c, row, -, huser, -⟩ := loadCurrentUser_eq_ok h
  show strip session.user = session.user
  rw [huser, strip_strip]

/-- The cookie of a login is plain. -/
theorem plain_of_login {pw : Passwords} {db : Db} {username password : Str}
    (h : login pw db username password = some c)
    (hstrip : login pw db username password ≠ none → strip username = username) : c.Plain := by
  have hname : c.username = username := by
    unfold login at h
    split at h
    · contradiction
    · split at h
      · contradiction
      · split at h
        · rw [← Option.some.inj h]
        · contradiction
  show strip c.username = c.username
  rw [hname]
  exact hstrip (by rw [h]; simp)

/-- So is that of a request. -/
theorem plain_of_request {U : Ucd} {pw : Passwords} {db : Db} {cookie : Option Cookie}
    {req : UserRequest} (h : (answerRequest U pw db cookie req).2 = some c) : c.Plain := by
  unfold answerRequest at h
  cases hauthorize : authorize db cookie req with
  | error e =>
      rw [hauthorize] at h
      contradiction
  | ok session =>
      have hsession := authorize_eq_ok hauthorize
      rw [hauthorize] at h
      dsimp only at h
      cases hhandle : handleRequest U pw db session.user req with
      | error answer =>
          rw [hhandle] at h
          cases answer with
          | raised exc => contradiction
          | _ =>
              rw [← Option.some.inj h]
              exact plain_of_session hsession _
      | ok change =>
          rw [hhandle] at h
          rw [← Option.some.inj h]
          exact plain_of_session hsession _

/-- So is a refreshed one. -/
theorem plain_of_refreshed {db : Db} {cookie : Option Cookie} (h : refreshed db cookie = some c) :
    c.Plain := by
  unfold refreshed at h
  obtain ⟨session, hsession, heq⟩ := Option.map_eq_some_iff.mp h
  rw [← heq]
  exact plain_of_session (toOption_eq_some_iff.mp hsession) _

end Cookies

/-! ## runs of events -/

section Runs

variable {P : Platform}

/-- What holds of the cookies of a run. -/
structure SoundState (s : SessionState) : Prop where
  issued : ∀ c ∈ s.issued, c.Plain
  revoked : ∀ c ∈ s.revoked, c ∈ s.issued ∧ Dead s.host.db.users c

/-- Only issued sessions end. -/
theorem ended_subset {event : AccountEvent} {host : Host} {issued : List Cookie} {c : Cookie}
    (h : c ∈ event.ended P host issued) : c ∈ issued := by
  unfold AccountEvent.ended at h
  split at h
  · split at h
    · contradiction
    · split at h
      · exact (List.mem_filter.mp h).1
      · contradiction
  · split at h
    · exact h
    · contradiction
  · contradiction

/-- A step that leaves the accounts alone and issues a cookie. -/
theorem SoundState.issue {s : SessionState} {new : Option Cookie} (h : SoundState s)
    (hnew : ∀ c, new = some c → c.Plain) :
    SoundState { s with issued := s.issued ++ new.toList } where
  issued c hc := by
    rcases List.mem_append.mp hc with hold | hissued
    · exact h.issued c hold
    · exact hnew c (Option.mem_toList.mp hissued)
  revoked c hc := ⟨List.mem_append_left _ (h.revoked c hc).1, (h.revoked c hc).2⟩

/-- A proper event keeps the state sound. -/
theorem SoundState.account {s : SessionState} {event : AccountEvent} (h : SoundState s)
    (hproper : (SessionEvent.account event).Proper P s) :
    SoundState ((SessionEvent.account event).apply P s) where
  issued c hc := by
    rcases List.mem_append.mp hc with hold | hissued
    · exact h.issued c hold
    · have hcookie := Option.mem_toList.mp hissued
      cases event with
      | request pw cookie req => exact plain_of_request hcookie
      | _ => contradiction
  revoked c hc := by
    have hold : c ∈ s.issued := by
      rcases List.mem_append.mp hc with hrevoked | hended
      · exact (h.revoked c hrevoked).1
      · exact ended_subset hended
    have hdead : c ∈ event.ended P s.host s.issued ∨ Dead s.host.db.users c :=
      (List.mem_append.mp hc).symm.imp_right fun hrevoked => (h.revoked c hrevoked).2
    exact ⟨List.mem_append_left _ hold,
      dead_step hold hdead fun row' hrow' => versionFrom_apply hproper hrow'⟩

/-- So does every event of a session. -/
theorem SoundState.apply {s : SessionState} {event : SessionEvent} (h : SoundState s)
    (hproper : event.Proper P s) : SoundState (event.apply P s) := by
  cases event with
  | login pw username password => exact h.issue fun c hc => plain_of_login hc hproper
  | browse cookie => exact h.issue fun c hc => plain_of_refreshed hc
  | account event => exact h.account hproper

/-- So does a run. -/
theorem SoundState.run {s : SessionState} {events : List SessionEvent} (h : SoundState s)
    (hproper : ProperRun P s events) : ∀ s' ∈ sessionStates P s events, SoundState s' := by
  induction events generalizing s with
  | nil => simpa [sessionStates] using h
  | cons event rest ih =>
      simp only [sessionStates, List.mem_cons, forall_eq_or_imp]
      exact ⟨h, ih (h.apply hproper.1) hproper.2⟩

/-- In a proper run, from an installation that has not issued any cookie, no
cookie is accepted after its account was changed in a way that ends its
sessions. -/
theorem revoked_refused {host : Host} {events : List SessionEvent}
    (hproper : ProperRun P ⟨host, [], []⟩ events) :
    ∀ s ∈ sessionStates P ⟨host, [], []⟩ events, ∀ c ∈ s.revoked, ∀ session,
      loadCurrentUser s.host.db (some c) ≠ .ok session := by
  intro s hs c hc session
  have hstart : SoundState ⟨host, [], []⟩ := ⟨by simp, by simp⟩
  have hsound := hstart.run hproper s hs
  obtain ⟨hissued, hdead⟩ := hsound.revoked c hc
  exact hdead.refused (hsound.issued c hissued) session

end Runs

/-- A request of the admin `root`. -/
def rootRequest (req : UserRequest) : SessionEvent :=
  .account (.request plainPasswords (some ⟨lit "root", 0⟩) req)

/-- `bob` signs in, is disabled and enabled again, and signs in again; he mistypes
his name meanwhile. -/
def returnRun : List SessionEvent :=
  [.login plainPasswords (lit "bob") (lit "bobs"), rootRequest (.disable 2),
    .login plainPasswords (lit " bob") (lit "bobs"), rootRequest (.enable 2),
    .login plainPasswords (lit "bob") (lit "bobs")]

instance (s : SessionState) (req : UserRequest) : Decidable ((rootRequest req).Proper .plain s) :=
  inferInstanceAs (Decidable (∀ change ∈ changeOf _ _ _ _ _, _))

/-- The run is proper. -/
theorem properRun_returnRun : ProperRun .plain ⟨rootHost, [], []⟩ returnRun := by
  have hlogin : strip (lit "bob") = lit "bob" := by decide
  refine ⟨fun _ => hlogin, by decide, fun h => absurd rfl h, by decide, fun _ => hlogin, trivial⟩

theorem revoked_refused_returnRun :
    ¬∃ s ∈ sessionStates .plain ⟨rootHost, [], []⟩ returnRun, ∃ c ∈ s.revoked, ∃ session,
      loadCurrentUser s.host.db (some c) = .ok session := by
  rintro ⟨s, hs, c, hc, session, hloaded⟩
  exact revoked_refused properRun_returnRun s hs c hc session hloaded

/-- `bob` signs in and is deleted, and a new account takes the name. -/
def revivalRun : List SessionEvent :=
  [.login plainPasswords (lit "bob") (lit "bobs"), rootRequest (.disable 2),
    rootRequest (.delete 2), rootRequest (.create (lit "bob") (lit "new") [])]

/-- The new account is open to the cookie of the deleted one. -/
theorem revoked_accepted :
    ∃ s ∈ sessionStates .plain ⟨rootHost, [], []⟩ revivalRun, ∃ c ∈ s.revoked,
      (loadCurrentUser s.host.db (some c)).toOption.isSome = true := by
  decide

end ApiToDns
