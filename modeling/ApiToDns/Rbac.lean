import ApiToDns.Exceptions
import ApiToDns.Models
import Mathlib.Data.List.Dedup
import Mathlib.Data.List.Sort

/-!
# Rbac

Roles, the text they are stored as, and what an account may assign to
another one (`rbac.py`).  A set of roles is a list of which only the members
matter.

`mem_parse_serialize` says which roles are stored for a selection.
-/

namespace ApiToDns

open Py

def roleGlobalAdmin : Str := lit "global.admin"
def roleGlobalRead : Str := lit "global.read"
def roleAccountUpdate : Str := lit "account.update"
def roleAccountResetPassword : Str := lit "account.reset_password"
def roleApiKeysRead : Str := lit "api_keys.read"
def roleApiKeysUpdate : Str := lit "api_keys.update"
def roleDnsZonesRead : Str := lit "dns_zones.read"
def roleDnsZonesUpdate : Str := lit "dns_zones.update"
def rolePluginUpdate : Str := lit "plugin.update"
def roleSystemUpdate : Str := lit "system.update"

/-- `ROLE_DEPENDENCIES`: a role and the one it requires. -/
def roleDependencies : List (Str × Str) :=
  [(roleApiKeysUpdate, roleApiKeysRead), (roleDnsZonesUpdate, roleDnsZonesRead)]

/-- `MANDATORY_ROLES`. -/
def mandatoryRoles : List Str := [roleDnsZonesRead]

/-- `ALL_ROLES`. -/
def allRoles : List Str :=
  [roleGlobalAdmin, roleGlobalRead, roleAccountUpdate, roleAccountResetPassword, roleApiKeysRead,
    roleApiKeysUpdate, roleDnsZonesRead, roleDnsZonesUpdate, rolePluginUpdate, roleSystemUpdate]

/-- `ACCOUNT_ADMIN_GRANTABLE_ROLES`: what `account.update` may assign. -/
def accountAdminGrantableRoles : List Str :=
  [roleGlobalRead, roleApiKeysRead, roleDnsZonesRead, roleDnsZonesUpdate]

/-- `SENSITIVE_ROLES`: what only a global admin may grant or remove. -/
def sensitiveRoles : List Str :=
  [roleGlobalAdmin, roleAccountUpdate, roleAccountResetPassword, roleApiKeysUpdate,
    rolePluginUpdate, roleSystemUpdate]

/-- `sorted` of a set of texts. -/
def sortedSet (s : List Str) : List Str := s.dedup.insertionSort (· ≤ ·)

/-- `parse_roles`. -/
def parseRoles (raw : Str) : List Str := ((raw.splitOn ',').map strip).filter (· ≠ [])

/-- The roles among `roles` that exist, all of them for a global admin. -/
def knownRoles (roles : List Str) : List Str :=
  let cleaned := roles.filter (· ∈ allRoles)
  if roleGlobalAdmin ∈ cleaned then allRoles else cleaned

/-- `serialize_roles`. -/
def serializeRoles (roles : List Str) : Str :=
  join [','] (sortedSet (knownRoles roles ++ mandatoryRoles))

/-- `normalize_selected_roles`. -/
def normalizeSelectedRoles (roles : List Str) : List Str :=
  let selected := roles.filter (· ∈ allRoles)
  if roleGlobalAdmin ∈ selected then sortedSet allRoles
  else
    let selected := selected ++ mandatoryRoles
    sortedSet (selected ++ (roleDependencies.filter fun d => d.1 ∈ selected).map Prod.snd)

/-- `effective_roles`. -/
def effectiveRoles (stored : List Str) : List Str :=
  if roleGlobalAdmin ∈ stored then allRoles else stored ++ mandatoryRoles

/-- `get_user_roles`. -/
def getUserRoles (db : Db) (username : Str) : List Str :=
  match db.users.byKey username with
  | some row => effectiveRoles (parseRoles row.val.roles)
  | none => []

/-- `roles_satisfy`. -/
def rolesSatisfy (roles : List Str) (role : Str) : Bool :=
  roleGlobalAdmin ∈ roles || role ∈ roles ||
    (roleGlobalRead ∈ roles && role ∈ [roleApiKeysRead, roleDnsZonesRead])

/-- `user_is_global_admin`. -/
def userIsGlobalAdmin (db : Db) (username : Str) : Bool := roleGlobalAdmin ∈ getUserRoles db username

/-- `target_is_global_admin`. -/
def targetIsGlobalAdmin (target : User) : Bool :=
  roleGlobalAdmin ∈ effectiveRoles (parseRoles target.roles)

/-- `global_admin_guard_message`. -/
def globalAdminGuardMessage (db : Db) (actor : Str) (target : User) : Option Str :=
  if targetIsGlobalAdmin target && !userIsGlobalAdmin db actor then
    some (lit "Only a global admin can manage another global admin account.")
  else none

/-- `validate_role_assignment`. -/
def validateRoleAssignment (db : Db) (actor : Str) (selectedRoles previous : List Str) :
    Option Str :=
  let selected := normalizeSelectedRoles selectedRoles
  if userIsGlobalAdmin db actor then none
  else
    let newlySelected := selected.filter (· ∉ previous)
    let disallowed := sortedSet (newlySelected.filter fun role =>
      role ∉ accountAdminGrantableRoles ∧ role ∉ mandatoryRoles)
    if disallowed ≠ [] then
      some (lit "Only a global admin can grant sensitive roles: " ++ join (lit ", ") disallowed ++
        ['.'])
    else
      let removedSensitive := sortedSet (previous.filter fun role =>
        role ∉ selected ∧ role ∈ sensitiveRoles)
      if removedSensitive ≠ [] then
        some (lit "Only a global admin can remove sensitive roles: " ++
          join (lit ", ") removedSensitive ++ ['.'])
      else none

/-! ## the stored text -/

/-- Sorting adds and drops no role. -/
@[simp] theorem mem_sortedSet {s : List Str} {r : Str} : r ∈ sortedSet s ↔ r ∈ s := by
  simp [sortedSet]

/-- Only an empty set is sorted to nothing. -/
theorem sortedSet_eq_nil_iff {s : List Str} : sortedSet s = [] ↔ s = [] := by
  constructor
  · intro h
    rw [List.eq_nil_iff_forall_not_mem]
    intro r hr
    have := mem_sortedSet.mpr hr
    rw [h] at this
    contradiction
  · intro h
    rw [h]
    rfl

/-- Every role is a word without blanks and commas. -/
theorem role_text : ∀ r ∈ allRoles, ',' ∉ r ∧ strip r = r ∧ r ≠ [] := by decide

/-- The mandatory roles are known. -/
theorem mandatory_subset : ∀ r ∈ mandatoryRoles, r ∈ allRoles := by decide

/-- The known roles, or all of them for a global admin. -/
theorem mem_knownRoles {roles : List Str} {r : Str} :
    r ∈ knownRoles roles ↔ r ∈ allRoles ∧ (r ∈ roles ∨ roleGlobalAdmin ∈ roles) := by
  have hga : roleGlobalAdmin ∈ allRoles := by decide
  unfold knownRoles
  simp only [List.mem_filter, hga, decide_true, and_true]
  split
  · next h => simp [h]
  · next h => simp [h, and_comm]

/-- The roles that are read back from the text stored for a selection. -/
theorem mem_parse_serialize {roles : List Str} {r : Str} :
    r ∈ parseRoles (serializeRoles roles) ↔
      r ∈ allRoles ∧ (r ∈ roles ∨ roleGlobalAdmin ∈ roles) ∨ r ∈ mandatoryRoles := by
  have hall : ∀ s ∈ sortedSet (knownRoles roles ++ mandatoryRoles), s ∈ allRoles := by
    intro s hs
    rw [mem_sortedSet, List.mem_append] at hs
    cases hs with
    | inl hs => exact (mem_knownRoles.mp hs).1
    | inr hs => exact mandatory_subset s hs
  have hne : sortedSet (knownRoles roles ++ mandatoryRoles) ≠ [] := by
    rw [ne_eq, sortedSet_eq_nil_iff]
    simp [mandatoryRoles]
  have hsplit : (serializeRoles roles).splitOn ',' =
      sortedSet (knownRoles roles ++ mandatoryRoles) :=
    List.splitOn_intercalate ',' (fun s hs => (role_text s (hall s hs)).1) hne
  rw [parseRoles, hsplit, List.mem_filter, List.mem_map, ← mem_knownRoles, ← List.mem_append,
    ← mem_sortedSet]
  constructor
  · intro h
    obtain ⟨s, hs, hr⟩ := h.1
    rw [(role_text s (hall s hs)).2.1] at hr
    rw [← hr]
    exact hs
  · intro h
    exact ⟨⟨r, h, (role_text r (hall r h)).2.1⟩, by simpa using (role_text r (hall r h)).2.2⟩

/-! ## effective roles -/

/-- Effective roles have the admin role if the stored ones do. -/
theorem globalAdmin_mem_effectiveRoles {stored : List Str} :
    roleGlobalAdmin ∈ effectiveRoles stored ↔ roleGlobalAdmin ∈ stored := by
  have hall : roleGlobalAdmin ∈ allRoles := by decide
  have hmandatory : roleGlobalAdmin ∉ mandatoryRoles := by decide
  unfold effectiveRoles
  split
  · next h => simp [h, hall]
  · next h => simp [h, hmandatory]

/-- A global admin has the role. -/
theorem targetIsGlobalAdmin_iff {u : User} :
    targetIsGlobalAdmin u = true ↔ roleGlobalAdmin ∈ parseRoles u.roles := by
  rw [targetIsGlobalAdmin, decide_eq_true_eq, globalAdmin_mem_effectiveRoles]

end ApiToDns
