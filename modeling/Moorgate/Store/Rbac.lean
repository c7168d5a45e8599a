import Mathlib.Data.List.Sort
import Moorgate.Store.Users

/-!
# Roles and permissions: `store/rbac.go`

A user has the permissions of their roles: `UserPermissions` joins `user_roles` with
`role_permissions`. The foreign keys make a write fail that names a user, a role or
a permission that does not exist.
-/

namespace Moorgate.Store

open Framework Models

structure Role where
  id : UUID
  (name description : String)
  isBuiltin : Bool
deriving DecidableEq

structure RolePermission where
  roleID : UUID
  permission : String
deriving DecidableEq

structure UserRole where
  (userID roleID : UUID)
deriving DecidableEq

/-- The tables; `permissions` are the keys of the table of permissions. -/
structure Rbac where
  roles : Table Role.id
  permissions : List String
  rolePermissions : List RolePermission
  userRoles : List UserRole

section

variable (b : Rbac)

/-- `id` is what `gen_random_uuid()` yields. `none` when it or the name is taken. -/
def createRole (id : UUID) (name description : String) : Option Rbac :=
  if b.roles.rows.any fun r => decide (r.name = name) then none
  else (b.roles.insert ⟨id, name, description, false⟩).map fun roles => { b with roles }

/-- With the rows that refer to the role. -/
def deleteRole (id : UUID) : Rbac :=
  if b.roles.rows.any fun r => decide (r.id = id) && !r.isBuiltin then
    { b with
      roles := b.roles.delete fun r => decide (r.id = id)
      rolePermissions := b.rolePermissions.filter fun p => decide (p.roleID ≠ id)
      userRoles := b.userRoles.filter fun r => decide (r.roleID ≠ id) }
  else b

def rolePermissions (roleID : UUID) : List String :=
  ((b.rolePermissions.filter fun p => decide (p.roleID = roleID)).map
    RolePermission.permission).insertionSort (· ≤ ·)

/-- The transaction: `none` when a key or the role does not exist. -/
def setRolePermissions (roleID : UUID) (keys : List String) : Option Rbac :=
  if keys.all fun k => decide (k ∈ b.permissions) && (b.roles.lookup roleID).isSome then
    some { b with
      rolePermissions := (b.rolePermissions.filter fun p => decide (p.roleID ≠ roleID)) ++
        keys.dedup.map (RolePermission.mk roleID) }
  else none

/-- `INSERT INTO user_roles … ON CONFLICT DO NOTHING`; `none` when the user or the role
does not exist. -/
def assignRole (users : Users) (userID roleID : UUID) : Option Rbac :=
  if ⟨userID, roleID⟩ ∈ b.userRoles then some b
  else if (users.lookup userID).isSome ∧ (b.roles.lookup roleID).isSome then
    some { b with userRoles := b.userRoles ++ [⟨userID, roleID⟩] }
  else none

def roleByName (name : String) : Option Role := b.roles.rows.find? fun r => decide (r.name = name)

def assignRoleByName (users : Users) (userID : UUID) (name : String) : Option Rbac :=
  match roleByName b name with
  | none => some b
  | some r => assignRole b users userID r.id

def roleName (roleID : UUID) : String := ((b.roles.lookup roleID).map Role.name).getD ""

def removeRole (userID roleID : UUID) : Rbac :=
  { b with userRoles := b.userRoles.filter fun r => decide (r ≠ ⟨userID, roleID⟩) }

def removeRoleByName (userID : UUID) (name : String) : Rbac :=
  match roleByName b name with
  | none => b
  | some r => removeRole b userID r.id

def userPermissions (userID : UUID) : List String :=
  ((b.userRoles.filter fun r => decide (r.userID = userID)).flatMap fun r =>
    (b.rolePermissions.filter fun p => decide (p.roleID = r.roleID)).map
      RolePermission.permission).dedup

/-- What `ON DELETE CASCADE` takes with a user. -/
def Rbac.forgetUser (userID : UUID) : Rbac :=
  { b with userRoles := b.userRoles.filter fun r => decide (r.userID ≠ userID) }

end

/-! ## Who has which permission -/

section

variable {b b' : Rbac} {userID roleID : UUID} {perm : String}

theorem mem_rolePermissions :
    perm ∈ rolePermissions b roleID ↔ ⟨roleID, perm⟩ ∈ b.rolePermissions := by
  unfold rolePermissions
  rw [List.mem_insertionSort, List.mem_map]
  constructor
  · rintro ⟨p, hp, rfl⟩
    obtain ⟨hmem, hrole⟩ := List.mem_filter.mp hp
    rwa [← of_decide_eq_true hrole]
  · intro h
    exact ⟨_, List.mem_filter.mpr ⟨h, decide_eq_true rfl⟩, rfl⟩

theorem mem_userPermissions :
    perm ∈ userPermissions b userID ↔ ∃ roleID, ⟨userID, roleID⟩ ∈ b.userRoles ∧
      ⟨roleID, perm⟩ ∈ b.rolePermissions := by
  unfold userPermissions
  rw [List.mem_dedup, List.mem_flatMap]
  constructor
  · rintro ⟨r, hr, hperm⟩
    obtain ⟨hmem, huser⟩ := List.mem_filter.mp hr
    obtain ⟨p, hp, rfl⟩ := List.mem_map.mp hperm
    obtain ⟨hpmem, hrole⟩ := List.mem_filter.mp hp
    refine ⟨r.roleID, ?_, ?_⟩
    · rwa [← of_decide_eq_true huser]
    · rwa [← of_decide_eq_true hrole]
  · rintro ⟨roleID, hrole, hp⟩
    refine ⟨⟨userID, roleID⟩, List.mem_filter.mpr ⟨hrole, decide_eq_true rfl⟩, ?_⟩
    exact List.mem_map.mpr ⟨_, List.mem_filter.mpr ⟨hp, decide_eq_true rfl⟩, rfl⟩

theorem userPermissions_subset (hroles : b'.userRoles ⊆ b.userRoles)
    (hperms : b'.rolePermissions ⊆ b.rolePermissions) (h : perm ∈ userPermissions b' userID) :
    perm ∈ userPermissions b userID := by
  obtain ⟨roleID, hrole, hperm⟩ := mem_userPermissions.mp h
  exact mem_userPermissions.mpr ⟨roleID, hroles hrole, hperms hperm⟩

theorem mem_userPermissions_assignRole {users : Users} {other : UUID}
    (h : assignRole b users userID roleID = some b') : perm ∈ userPermissions b' other ↔
      perm ∈ userPermissions b other ∨ (other = userID ∧ ⟨roleID, perm⟩ ∈ b.rolePermissions) := by
  have hrows : (∀ row, row ∈ b'.userRoles ↔ row ∈ b.userRoles ∨ row = ⟨userID, roleID⟩) ∧
      b'.rolePermissions = b.rolePermissions := by
    unfold assignRole at h
    split at h
    · rename_i hmem
      cases h
      refine ⟨fun row => ⟨.inl, ?_⟩, rfl⟩
      rintro (hrow | rfl)
      · exact hrow
      · exact hmem
    · split at h
      · cases h
        exact ⟨fun row => by rw [List.mem_append, List.mem_singleton], rfl⟩
      · cases h
  obtain ⟨hroles, hperms⟩ := hrows
  rw [mem_userPermissions, mem_userPermissions, hperms]
  constructor
  · rintro ⟨role, hrole, hperm⟩
    rcases (hroles _).mp hrole with hold | hnew
    · exact .inl ⟨role, hold, hperm⟩
    · cases hnew
      exact .inr ⟨rfl, hperm⟩
  · rintro (⟨role, hrole, hperm⟩ | ⟨rfl, hperm⟩)
    · exact ⟨role, (hroles _).mpr (.inl hrole), hperm⟩
    · exact ⟨roleID, (hroles _).mpr (.inr rfl), hperm⟩

end

end Moorgate.Store
