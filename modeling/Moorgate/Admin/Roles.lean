import Moorgate.Admin.Guards
import Moorgate.Store.Rbac

/-!
# Handing out roles: `admin/roles.go`, `admin/users.go`

One who is no super administrator shall not hand out a permission they do not hold. `assignRole`
drops the error of its read of the role's permissions: it checks the rows that came before the
error, so a role can be assigned whose permissions nobody has looked at.
-/

namespace Moorgate.Admin

open Framework Models Auth Store

structure Directory where
  users : Users
  rbac : Rbac

/-- Which statements fail. `rolePermissions` is the number of rows that are read before
the error. -/
structure RoleFaults where
  rolePermissions : Option ℕ
  (roleName getUser countSupers setSuper write : Bool)

namespace RoleFaults

variable (f : RoleFaults)

/-- `perms, _ := RolePermissions(…)`. -/
def readPermissions (perms : List String) : List String :=
  match f.rolePermissions with
  | none => perms
  | some n => perms.take n

/-- `name, _ := RoleName(…)`. -/
def readName (name : String) : String := if f.roleName then "" else name

def written (d : Directory) (rbac : Option Rbac) (failure success : Answer) : Directory × Answer :=
  match rbac with
  | some rbac => if f.write then (d, failure) else ({ d with rbac }, success)
  | none => (d, failure)

end RoleFaults

inductive RoleRequest where
  | assignRole (userID roleID : Option UUID)
  | removeRole (userID roleID : Option UUID)
  | createRole (body : Option (String × String))
  | deleteRole (id : Option UUID)
  | setRolePermissions (id : Option UUID) (body : Option (List String))

section

variable (f : RoleFaults) (actor : Principal) (d : Directory)

def assignRole (userID roleID : UUID) : Directory × Answer :=
  let failure : Answer := .error 500 "could not assign role"
  match guardGrantable actor (f.readPermissions (rolePermissions d.rbac roleID)) with
  | some refusal => (d, refusal)
  | none =>
    if f.readName (roleName d.rbac roleID) = superAdminRoleName then
      if !actor.isSuperAdmin then (d, errSuperOnly)
      else if f.setSuper then (d, failure)
      else
        let d := { d with users := setSuperAdmin userID true d.users }
        f.written d (Store.assignRole d.rbac d.users userID roleID) failure (.done 200 "assigned")
    else f.written d (Store.assignRole d.rbac d.users userID roleID) failure (.done 200 "assigned")

def removeRole (userID roleID : UUID) : Directory × Answer :=
  let failure : Answer := .error 500 "could not remove role"
  if f.readName (roleName d.rbac roleID) = superAdminRoleName then
    if !actor.isSuperAdmin then (d, errSuperOnly)
    else
      match guardLastSuper "demote" (if f.getUser then none else getUserByID d.users userID)
          (if f.countSupers then none else some (countActiveSuperAdmins d.users)) with
      | some refusal => (d, refusal)
      | none =>
        if f.setSuper then (d, failure)
        else f.written { d with users := setSuperAdmin userID false d.users }
          (Store.removeRole d.rbac userID roleID) failure (.done 200 "removed")
  else f.written d (Store.removeRole d.rbac userID roleID) failure (.done 200 "removed")

/-- `id` is that of the new role. -/
def createRole (id : UUID) (body : Option (String × String)) : Directory × Answer :=
  match body with
  | none => (d, .error 400 "name is required")
  | some (name, description) =>
    if name = "" then (d, .error 400 "name is required")
    else f.written d (Store.createRole d.rbac id name description)
      (.error 500 "could not create role") (.done 201 name)

def deleteRole (id : UUID) : Directory × Answer :=
  f.written d (Store.deleteRole d.rbac id) (.error 500 "could not delete role")
    (.done 200 "deleted")

def setRolePermissions (id : UUID) (body : Option (List String)) : Directory × Answer :=
  match body with
  | none => (d, .error 400 "invalid request body")
  | some perms =>
    match guardGrantable actor perms with
    | some refusal => (d, refusal)
    | none =>
      f.written d (Store.setRolePermissions d.rbac id perms)
        (.error 500 "could not set permissions") (.done 200 "updated")

/-- `newID` is what `gen_random_uuid()` yields; `none` as an id is one that does not
parse. -/
def handleRole (newID : UUID) : RoleRequest → Directory × Answer
  | .assignRole (some userID) (some roleID) => assignRole f actor d userID roleID
  | .assignRole _ _ => (d, .error 400 "invalid id")
  | .removeRole (some userID) (some roleID) => removeRole f actor d userID roleID
  | .removeRole _ _ => (d, .error 400 "invalid id")
  | .createRole body => createRole f d newID body
  | .deleteRole (some id) => deleteRole f d id
  | .deleteRole none => (d, .error 400 "invalid role id")
  | .setRolePermissions (some id) body => setRolePermissions f actor d id body
  | .setRolePermissions none _ => (d, .error 400 "invalid role id")

end

/-- The actor holds what users have gained, and no one became or ceased to be a super
administrator. -/
structure NoEscalation (actor : Principal) (d d' : Directory) : Prop where
  permissions : ∀ userID perm, perm ∈ userPermissions d'.rbac userID →
    perm ∉ userPermissions d.rbac userID → actor.has perm
  flags : ∀ id, (getUserByID d'.users id).map UserRow.isSuperAdmin =
    (getUserByID d.users id).map UserRow.isSuperAdmin

/-- The read of the permissions fails after rows that the actor holds, the name that is read is
not the one of super administrators, the user and the role exist, the insert succeeds, and
the role has a permission that the user does not have and the actor does not hold. -/
def AssignsUnread (f : RoleFaults) (actor : Principal) (d : Directory) : RoleRequest → Prop
  | .assignRole (some userID) (some roleID) =>
    (∃ n ∈ f.rolePermissions, ∀ perm ∈ (rolePermissions d.rbac roleID).take n, actor.has perm) ∧
      (f.roleName ∨ roleName d.rbac roleID ≠ superAdminRoleName) ∧
      (d.users.lookup userID).isSome ∧ (d.rbac.roles.lookup roleID).isSome ∧ f.write = false ∧
      ∃ perm ∈ rolePermissions d.rbac roleID,
        perm ∉ userPermissions d.rbac userID ∧ actor.has perm = false
  | _ => False

section

variable {f : RoleFaults} {actor : Principal} {d d' : Directory}

theorem NoEscalation.refl : NoEscalation actor d d :=
  ⟨fun _ _ h hnot => absurd h hnot, fun _ => rfl⟩

theorem NoEscalation.of_subset {rbac : Rbac} (hroles : rbac.userRoles ⊆ d.rbac.userRoles)
    (hperms : rbac.rolePermissions ⊆ d.rbac.rolePermissions) :
    NoEscalation actor d { d with rbac } :=
  ⟨fun _ _ h hnot => absurd (userPermissions_subset hroles hperms h) hnot, fun _ => rfl⟩

theorem NoEscalation.written {rbac : Option Rbac} {failure success : Answer}
    (h : ∀ b ∈ rbac, f.write = false → NoEscalation actor d { d with rbac := b }) :
    NoEscalation actor d (f.written d rbac failure success).1 := by
  unfold RoleFaults.written
  split
  · rename_i b
    split
    · exact .refl
    · next hwrite => exact h b rfl (Bool.eq_false_iff.mpr hwrite)
  · exact .refl

theorem removeRole_noEscalation (hactor : actor.isSuperAdmin = false) (userID roleID : UUID) :
    NoEscalation actor d (removeRole f actor d userID roleID).1 := by
  unfold removeRole
  split
  · rw [hactor]
    exact .refl
  · refine .written ?_
    rintro b ⟨⟩ -
    exact .of_subset (List.filter_subset_self _) (List.Subset.refl _)

theorem createRole_noEscalation (id : UUID) (body : Option (String × String)) :
    NoEscalation actor d (createRole f d id body).1 := by
  unfold createRole
  split
  · exact .refl
  split
  · exact .refl
  refine .written ?_
  intro b hb _
  unfold Store.createRole at hb
  split at hb
  · cases hb
  · obtain ⟨roles, -, rfl⟩ := Option.map_eq_some_iff.mp hb
    exact .of_subset (List.Subset.refl _) (List.Subset.refl _)

theorem deleteRole_noEscalation (id : UUID) : NoEscalation actor d (deleteRole f d id).1 := by
  refine .written ?_
  rintro b ⟨⟩ -
  unfold Store.deleteRole
  split
  · exact .of_subset (List.filter_subset_self _) (List.filter_subset_self _)
  · exact .refl

theorem setRolePermissions_noEscalation (id : UUID) (body : Option (List String)) :
    NoEscalation actor d (setRolePermissions f actor d id body).1 := by
  unfold setRolePermissions
  split
  · exact .refl
  split
  · exact .refl
  rename_i hguard
  refine .written ?_
  intro b hb _
  unfold Store.setRolePermissions at hb
  split at hb
  · cases hb
    refine ⟨?_, fun _ => rfl⟩
    intro userID perm h hnot
    obtain ⟨roleID, hrole, hperm⟩ := mem_userPermissions.mp h
    rcases List.mem_append.mp hperm with hold | hnew
    · have hhad : perm ∈ userPermissions d.rbac userID :=
        mem_userPermissions.mpr ⟨roleID, hrole, (List.mem_filter.mp hold).1⟩
      exact absurd hhad hnot
    · -- the guard has seen every key of the request
      obtain ⟨key, hkey, ⟨⟩⟩ := List.mem_map.mp hnew
      exact guardGrantable_eq_none.mp hguard perm (List.mem_dedup.mp hkey)
  · cases hb

variable {userID roleID : UUID}

/-- A role whose permissions were not all read is assigned, and gives the user one that the actor
does not hold. -/
theorem assignRole_escalates
    (h : AssignsUnread f actor d (.assignRole (some userID) (some roleID))) :
    ¬ NoEscalation actor d (assignRole f actor d userID roleID).1 := by
  obtain ⟨⟨n, hn, hheld⟩, hname, huser, hrole, hwrite, perm, hperm, hnot, hlacks⟩ := h
  have hnew : ⟨userID, roleID⟩ ∉ d.rbac.userRoles := fun hmem =>
    hnot (mem_userPermissions.mpr ⟨roleID, hmem, mem_rolePermissions.mp hperm⟩)
  obtain ⟨b, hassign⟩ : ∃ b, Store.assignRole d.rbac d.users userID roleID = some b :=
    ⟨_, by rw [Store.assignRole, if_neg hnew, if_pos ⟨huser, hrole⟩]⟩
  have hguard : guardGrantable actor (f.readPermissions (rolePermissions d.rbac roleID)) =
      none := by
    rw [guardGrantable_eq_none, RoleFaults.readPermissions, hn]
    exact hheld
  have hread : f.readName (roleName d.rbac roleID) ≠ superAdminRoleName := by
    unfold RoleFaults.readName
    split
    · decide
    · next hok => exact hname.resolve_left hok
  have hdone : (assignRole f actor d userID roleID).1 = { d with rbac := b } := by
    simp [assignRole, hguard, hread, RoleFaults.written, hassign, hwrite]
  intro hno
  have hgained : perm ∈ userPermissions b userID :=
    (mem_userPermissions_assignRole hassign).mpr (.inr ⟨rfl, mem_rolePermissions.mp hperm⟩)
  rw [hdone] at hno
  exact Bool.eq_false_iff.mp hlacks (hno.permissions userID perm hgained hnot)

theorem assignRole_noEscalation (hactor : actor.isSuperAdmin = false)
    (h : ¬ AssignsUnread f actor d (.assignRole (some userID) (some roleID))) :
    NoEscalation actor d (assignRole f actor d userID roleID).1 := by
  fun_cases assignRole f actor d userID roleID with
  | case1 | case2 => exact .refl
  | case3 _ _ _ hsuper | case4 _ _ _ hsuper => exact absurd (by rw [hactor]; rfl) hsuper
  | case5 _ hguard hname =>
    refine .written fun b hassign hwrite => ⟨fun other perm hperm hnot => ?_, fun _ => rfl⟩
    rcases (mem_userPermissions_assignRole hassign).mp hperm with hold | ⟨rfl, hperm⟩
    · exact absurd hold hnot
    have hsees := guardGrantable_eq_none.mp hguard
    have hrole := mem_rolePermissions.mpr hperm
    by_contra hlacks
    unfold Store.assignRole at hassign
    split at hassign
    · next hmem => exact hnot (mem_userPermissions.mpr ⟨roleID, hmem, hperm⟩)
    obtain ⟨⟨huser, hexists⟩, -⟩ := Option.ite_none_right_eq_some.mp hassign
    refine h ⟨?_, ?_, huser, hexists, hwrite, perm, hrole, hnot, Bool.eq_false_iff.mpr hlacks⟩
    · -- had the read succeeded, the guard would have seen the permission
      unfold RoleFaults.readPermissions at hsees
      cases hn : f.rolePermissions with
      | none =>
        rw [hn] at hsees
        exact absurd (hsees perm hrole) hlacks
      | some n =>
        rw [hn] at hsees
        exact ⟨n, rfl, hsees⟩
    · by_contra hnone
      rw [not_or, not_not] at hnone
      simp [RoleFaults.readName, hnone] at hname

end

/-- The handlers give away what the actor holds, except where `assignRole` could not
read what the role permits. -/
theorem noEscalation_iff {actor : Principal} (hactor : actor.isSuperAdmin = false) (f : RoleFaults)
    (d : Directory) (newID : UUID) (q : RoleRequest) :
    NoEscalation actor d (handleRole f actor d newID q).1 ↔ ¬ AssignsUnread f actor d q := by
  fun_cases handleRole f actor d newID q with
  | case1 userID roleID =>
    exact ⟨fun hno h => assignRole_escalates h hno, assignRole_noEscalation hactor⟩
  | case3 userID roleID =>
    exact ⟨fun _ => id, fun _ => removeRole_noEscalation hactor userID roleID⟩
  | case5 body => exact ⟨fun _ => id, fun _ => createRole_noEscalation newID body⟩
  | case6 id => exact ⟨fun _ h => h, fun _ => deleteRole_noEscalation id⟩
  | case8 id body => exact ⟨fun _ h => h, fun _ => setRolePermissions_noEscalation id body⟩
  | case2 userID roleID hnone =>
    refine ⟨fun _ => ?_, fun _ => .refl⟩
    unfold AssignsUnread
    split
    · next u r heq =>
      cases heq
      exact (hnone u r rfl rfl).elim
    · exact id
  | _ => exact ⟨fun _ h => h, fun _ => .refl⟩

/-- User 1 may edit roles and users, role 7 may do everything. -/
def roleEditor : Principal :=
  ⟨.ofNat 1, .nil, "editor", false, ["Role.Edit", "User.Edit"], false, .nil⟩

def plainUser (n : ℕ) : UserRow := ⟨.ofNat n, "", none, "", false, false, false, "local", 0, none⟩

def editors : Directory where
  users := .single (plainUser 1)
  rbac :=
    { roles := ⟨[⟨.ofNat 5, "Editor", "", false⟩, ⟨.ofNat 7, "Everything", "", false⟩], by decide⟩
      permissions := ["Admin.All", "Role.Edit", "User.Edit"]
      rolePermissions := [⟨.ofNat 5, "Role.Edit"⟩, ⟨.ofNat 5, "User.Edit"⟩, ⟨.ofNat 7, "Admin.All"⟩]
      userRoles := [⟨.ofNat 1, .ofNat 5⟩] }

def noFaults : RoleFaults := ⟨none, false, false, false, false, false⟩

def assignEverything : RoleRequest := .assignRole (some (.ofNat 1)) (some (.ofNat 7))

theorem noEscalation_iff_refused :
    (handleRole noFaults roleEditor editors .nil assignEverything).2 =
        .error 403 "you cannot grant a permission you do not hold: Admin.All" ∧
      NoEscalation roleEditor editors
        (handleRole noFaults roleEditor editors .nil assignEverything).1 :=
  ⟨by decide +kernel, (noEscalation_iff rfl noFaults editors .nil assignEverything).mpr nofun⟩

/-- When the permissions cannot be read, user 1 assigns themselves the role. -/
theorem assignRole_unread_escalates :
    (handleRole { noFaults with rolePermissions := some 0 } roleEditor editors .nil
      assignEverything).2 =
        .done 200 "assigned" ∧
      "Admin.All" ∈ userPermissions
        (handleRole { noFaults with rolePermissions := some 0 } roleEditor editors .nil
          assignEverything).1.rbac
        (.ofNat 1) ∧
      "Admin.All" ∉ userPermissions editors.rbac (.ofNat 1) ∧ roleEditor.has "Admin.All" = false ∧
      ¬ NoEscalation roleEditor editors
        (handleRole { noFaults with rolePermissions := some 0 } roleEditor editors .nil
          assignEverything).1 := by
  refine ⟨by decide +kernel, ?gained, ?new, ?lacks, fun hno =>
    Bool.eq_false_iff.mp ?lacks (hno.permissions _ _ ?gained ?new)⟩
  all_goals decide +kernel

end Moorgate.Admin
