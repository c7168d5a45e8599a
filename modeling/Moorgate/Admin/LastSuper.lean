import Moorgate.Admin.Roles
import Moorgate.Scim.Users

/-!
# The last super administrator: `admin/users.go`, `admin/admin.go`, `scim/users.go`

`guardLastSuper` reads the account, counts the enabled super administrators and refuses when there
is only one. The write that follows is a statement of its own and looks at neither: two
administrators who disable each other are both let pass. So is a request whose read fails, and SCIM
has no guard at all.
-/

namespace Moorgate.Admin

open Framework Models Store Scim

/-! ## Writes -/

inductive AccountWrite where
  | update (id : UUID) (rq : UpdateUserParams)
  | delete (id : UUID)
  | setDisabled (id : UUID) (disabled : Bool)
  | setSuperAdmin (id : UUID) (super : Bool)

namespace AccountWrite

def id : AccountWrite → UUID
  | .update id _ | .delete id | .setDisabled id _ | .setSuperAdmin id _ => id

/-- The account is no enabled super administrator afterwards. -/
def takes : AccountWrite → Bool
  | .update _ rq => rq.isDisabled
  | .delete _ => true
  | .setDisabled _ disabled => disabled
  | .setSuperAdmin _ super => !super

def apply (ci : String → String) (d : Directory) : AccountWrite → Option Directory
  | .update id rq => (Store.updateUser ci id rq d.users).map fun users => { d with users }
  | .delete id => some ⟨Store.deleteUser id d.users, d.rbac.forgetUser id⟩
  | .setDisabled id disabled => some { d with users := Store.setDisabled id disabled d.users }
  | .setSuperAdmin id super => some { d with users := Store.setSuperAdmin id super d.users }

def takesSuper (w : AccountWrite) (users : Users) : Bool :=
  w.takes && users.rows.any fun u => decide (u.id = w.id) && u.activeSuper

end AccountWrite

/-! ## Requests -/

inductive Sequel where
  | answer (a : Answer)
  | syncRole (userID : UUID) (super : Bool)
  | removeRole (userID roleID : UUID)
  | showing (u : UserRow)

/-- The write of a request. With a verb `guardLastSuper` comes before it. -/
structure Job where
  write : AccountWrite
  verb : Option String
  failure : Answer
  sequel : Sequel

inductive ScimBody where
  | replace (body : Option ScimUser)
  | patch (body : Option (List PatchOp))
  | delete

/-- Where a request stands: before `GetUserByID` of `guardSuperTarget`, before `RoleName`,
before the two reads of `guardLastSuper`, before the write and what follows it, or
before `GetUserByID` of a SCIM handler. -/
inductive SuperPc where
  | superTarget (id : UUID) (next : Except Answer Job)
  | namingRole (actorSuper : Bool) (userID roleID : UUID)
  | lastTarget (verb : String) (j : Job)
  | counting (verb : String) (j : Job)
  | writing (j : Job)
  | finishing (q : Sequel)
  | lookup (id : UUID) (body : ScimBody)
  | returned (a : Answer)

/-- An id is `none` when it does not parse, a body when it is no JSON. -/
inductive SuperRequest where
  | update (actorSuper : Bool) (id : Option UUID) (body : Option UpdateUserParams)
  | delete (actorSuper : Bool) (id : Option UUID)
  | disable (actorSuper : Bool) (id : Option UUID) (disabled : Bool)
  | setSuperAdmin (actorSuper : Bool) (id : Option UUID) (body : Option Bool)
  | removeRole (actorSuper : Bool) (userID roleID : Option UUID)
  | scim (id : Option UUID) (body : ScimBody)

section

variable (id : UUID)

def updateJob : Option UpdateUserParams → Except Answer Job
  | none => .error (.error 400 "invalid request body")
  | some rq => .ok
      { write := .update id rq
        verb := if rq.isDisabled then some "disable" else none
        failure := .error 500 "could not update user"
        sequel := .answer (.done 200 "updated") }

def deleteJob : Job where
  write := .delete id
  verb := some "delete"
  failure := .error 500 "could not delete user"
  sequel := .answer (.done 200 "deleted")

def disableJob (disabled : Bool) : Job where
  write := .setDisabled id disabled
  verb := if disabled then some "disable" else none
  failure := .error 500 "could not update user"
  sequel := .answer (.done 200 "updated")

def setSuperAdminJob : Option Bool → Except Answer Job
  | none => .error (.error 400 "invalid request body")
  | some super => .ok
      { write := .setSuperAdmin id super
        verb := if super then none else some "demote"
        failure := .error 500 "could not update user"
        sequel := .syncRole id super }

def demoteJob (roleID : UUID) : Job where
  write := .setSuperAdmin id false
  verb := some "demote"
  failure := .error 500 "could not remove role"
  sequel := .removeRole id roleID

def scimJob (u : UserRow) : ScimBody → Except Answer Job
  | .replace none | .patch none => .error (.error 400 "invalid request body")
  | .replace (some scim) => .ok
      { write := .update u.id scim.params
        verb := none
        failure := .error 500 "could not update user"
        sequel := .showing u }
  | .patch (some ops) => .ok
      { write := .update u.id (patched u ops).params
        verb := none
        failure := .error 500 "could not update user"
        sequel := .showing u }
  | .delete => .ok
      { write := .setDisabled u.id true
        verb := none
        failure := .error 500 "could not deprovision user"
        sequel := .answer (.done 204 "") }

end

def Job.start (j : Job) : SuperPc :=
  match j.verb with
  | none => .writing j
  | some verb => .lastTarget verb j

def resume : Except Answer Job → SuperPc
  | .error a => .returned a
  | .ok j => j.start

/-- A super administrator passes `guardSuperTarget` without a read. -/
def guarded (actorSuper : Bool) (id : UUID) (next : Except Answer Job) : SuperPc :=
  if actorSuper then resume next else .superTarget id next

def startSuper : SuperRequest → SuperPc
  | .update actorSuper (some id) body => guarded actorSuper id (updateJob id body)
  | .delete actorSuper (some id) => guarded actorSuper id (.ok (deleteJob id))
  | .disable actorSuper (some id) disabled => guarded actorSuper id (.ok (disableJob id disabled))
  | .setSuperAdmin actorSuper (some id) body =>
    if actorSuper then resume (setSuperAdminJob id body) else .returned errSuperOnly
  | .update _ none _ | .delete _ none | .disable _ none _ | .setSuperAdmin _ none _ =>
    .returned (.error 400 "invalid user id")
  | .removeRole actorSuper (some userID) (some roleID) => .namingRole actorSuper userID roleID
  | .removeRole _ _ _ => .returned (.error 400 "invalid id")
  | .scim (some id) body => .lookup id body
  | .scim none _ => .returned (.error 404 "user not found")

/-! ## Statements -/

def Sequel.start : Sequel → SuperPc
  | .answer a => .returned a
  | q => .finishing q

section

variable (ci : String → String) (ok : Bool) (d : Directory)

def readUser (id : UUID) : Option UserRow := if ok then getUserByID d.users id else none

def readCount : Option ℕ := if ok then some (countActiveSuperAdmins d.users) else none

/-- The role follows the flag, and an error is dropped. -/
def syncedRoles (userID : UUID) (super : Bool) : Rbac :=
  if !ok then d.rbac
  else if super then (assignRoleByName d.rbac d.users userID superAdminRoleName).getD d.rbac
  else removeRoleByName d.rbac userID superAdminRoleName

def Sequel.run : Sequel → Directory × Answer
  | .answer a => (d, a)
  | .syncRole userID super =>
    ({ d with rbac := syncedRoles ok d userID super }, .done 200 "updated")
  | .removeRole userID roleID =>
    if ok then ({ d with rbac := Store.removeRole d.rbac userID roleID }, .done 200 "removed")
    else (d, .error 500 "could not remove role")
  | .showing u => (d, .resource 200 ((readUser ok d u.id).getD u))

def roleNamed (actorSuper : Bool) (userID roleID : UUID) (name : String) : SuperPc :=
  if name = superAdminRoleName then
    if actorSuper then (demoteJob userID roleID).start else .returned errSuperOnly
  else .finishing (.removeRole userID roleID)

def superAct : SuperPc → Option (Directory × SuperPc)
  | .superTarget id next =>
    match guardSuperTarget false (readUser ok d id) with
    | some a => some (d, .returned a)
    | none => some (d, resume next)
  | .namingRole actorSuper userID roleID =>
    some (d, roleNamed actorSuper userID roleID (if ok then roleName d.rbac roleID else ""))
  | .lastTarget verb j =>
    if uncounted (readUser ok d j.write.id) then some (d, .writing j)
      else some (d, .counting verb j)
  | .counting verb j =>
    match lastSuper verb (readCount ok d) with
    | some a => some (d, .returned a)
    | none => some (d, .writing j)
  | .writing j =>
    match if ok then j.write.apply ci d else none with
    | none => some (d, .returned j.failure)
    | some d' => some (d', j.sequel.start)
  | .finishing q => some ((q.run ok d).1, .returned (q.run ok d).2)
  | .lookup id body =>
    match readUser ok d id with
    | none => some (d, .returned (.error 404 "user not found"))
    | some u => some (d, resume (scimJob u body))
  | .returned _ => none

end

abbrev SuperPool := Pool Directory SuperPc
abbrev SuperMove := Move SuperRequest Bool

def superStep (ci : String → String) : SuperPool → SuperMove → Option SuperPool :=
  poolStep startSuper fun ok d pc => superAct ci ok d pc

/-! ## Administrators -/

/-- An account has `is_super_admin` and is not disabled. -/
def HasSuper (users : Users) : Prop := ∃ u ∈ users.rows, u.activeSuper

/-- One other than `id` has. -/
def OtherSuper (users : Users) (id : UUID) : Prop := ∃ u ∈ users.rows, u.id ≠ id ∧ u.activeSuper

instance (users : Users) : Decidable (HasSuper users) :=
  inferInstanceAs (Decidable (∃ u ∈ users.rows, u.activeSuper))

namespace SuperPc

/-- The request reads for `guardLastSuper`. -/
def guarding : SuperPc → Bool
  | .lastTarget .. | .counting .. => true
  | _ => false

def job : SuperPc → Option Job
  | .writing j => some j
  | _ => none

/-- The write that `guardLastSuper` has let pass and that is not done yet. -/
def cleared : SuperPc → Option AccountWrite
  | .writing j => if j.verb.isSome then some j.write else none
  | _ => none

end SuperPc

/-- The reads of `guardLastSuper` succeed. When an enabled super administrator is taken
away, no other request stands between its guard and its write, and if there was no
guard there are two of them. -/
def Undisturbed (s : SuperPool) : SuperMove → Prop
  | .begin _ => True
  | .advance c ok => ∀ pc ∈ s.call c,
      (pc.guarding → ok) ∧
        ∀ j ∈ pc.job, ok → j.write.takesSuper s.store.users →
          (∀ pc' ∈ s.calls.eraseIdx c, pc'.cleared.isNone) ∧
            (j.verb = none → 2 ≤ countActiveSuperAdmins s.store.users)

instance (s : SuperPool) (m : SuperMove) : Decidable (Undisturbed s m) := by
  unfold Undisturbed
  split <;> infer_instance

/-! ## What a write leaves -/

section

variable {ci : String → String} {d d' : Directory} {w : AccountWrite} {users : Users} {u : UserRow}
  {id : UUID}

section

variable (h : w.apply ci d = some d')

include h

theorem mem_apply_of_ne (hu : u ∈ d.users.rows) (hne : u.id ≠ w.id) :
    u ∈ d'.users.rows := by
  cases w with
  | update id rq =>
    obtain ⟨users, hupdate, rfl⟩ := Option.map_eq_some_iff.mp h
    show u ∈ users.rows
    rw [updateUser_eq_some hupdate]
    exact mem_updateRow_of_ne (UserRow.edit rq) (fun _ => rfl) hu hne
  | delete id =>
    cases h
    exact Table.mem_delete.mpr ⟨hu, decide_eq_false hne⟩
  | setDisabled id disabled =>
    cases h
    exact mem_updateRow_of_ne (UserRow.withDisabled disabled) (fun _ => rfl) hu hne
  | setSuperAdmin id super =>
    cases h
    exact mem_updateRow_of_ne (UserRow.withSuper super) (fun _ => rfl) hu hne

theorem exists_mem_apply_of_not_takes (htakes : w.takes = false)
    (hu : u ∈ d.users.rows) (hid : u.id = w.id) (hsuper : u.activeSuper) :
    ∃ v ∈ d'.users.rows, v.id = u.id ∧ v.activeSuper := by
  obtain ⟨hflag, henabled⟩ : u.isSuperAdmin ∧ (!u.isDisabled) := Bool.and_eq_true_iff.mp hsuper
  cases w with
  | update id rq =>
    obtain ⟨users, hupdate, rfl⟩ := Option.map_eq_some_iff.mp h
    have hon : rq.isDisabled = false := htakes
    refine ⟨u.edit rq, ?_, rfl, ?_⟩
    · show u.edit rq ∈ users.rows
      rw [updateUser_eq_some hupdate]
      exact mem_updateRow_self (UserRow.edit rq) (fun _ => rfl) hu hid
    · show (u.isSuperAdmin && !rq.isDisabled)
      rw [hflag, hon]
      rfl
  | delete id => cases htakes
  | setDisabled id disabled =>
    cases h
    have hon : disabled = false := htakes
    refine ⟨u.withDisabled disabled, mem_updateRow_self (UserRow.withDisabled disabled)
      (fun _ => rfl) hu hid, rfl, ?_⟩
    show (u.isSuperAdmin && !disabled)
    rw [hflag, hon]
    rfl
  | setSuperAdmin id super =>
    cases h
    have hup : super := by simpa [AccountWrite.takes] using htakes
    refine ⟨u.withSuper super, mem_updateRow_self (UserRow.withSuper super)
      (fun _ => rfl) hu hid, rfl, ?_⟩
    show (super && !u.isDisabled)
    rw [hup, henabled]
    rfl

theorem exists_mem_apply (htakes : w.takesSuper d.users = false)
    (hu : u ∈ d.users.rows) (hsuper : u.activeSuper) :
    ∃ v ∈ d'.users.rows, v.id = u.id ∧ v.activeSuper := by
  by_cases hid : u.id = w.id
  · refine exists_mem_apply_of_not_takes h ?_ hu hid hsuper
    by_contra hw
    rw [Bool.not_eq_false] at hw
    have htaken : w.takesSuper d.users := by
      unfold AccountWrite.takesSuper
      rw [hw, Bool.true_and, List.any_eq_true]
      refine ⟨u, hu, ?_⟩
      rw [decide_eq_true hid, hsuper]
      rfl
    rw [htakes] at htaken
    cases htaken
  · exact ⟨u, mem_apply_of_ne h hu hid, rfl, hsuper⟩

theorem HasSuper.apply (hs : HasSuper d.users)
    (htakes : w.takesSuper d.users = false) : HasSuper d'.users := by
  obtain ⟨u, hu, hsuper⟩ := hs
  obtain ⟨v, hv, -, hvsuper⟩ := exists_mem_apply h htakes hu hsuper
  exact ⟨v, hv, hvsuper⟩

theorem OtherSuper.apply (hs : OtherSuper d.users id)
    (htakes : w.takesSuper d.users = false) : OtherSuper d'.users id := by
  obtain ⟨u, hu, hne, hsuper⟩ := hs
  obtain ⟨v, hv, hid, hvsuper⟩ := exists_mem_apply h htakes hu hsuper
  exact ⟨v, hv, by rwa [hid], hvsuper⟩

theorem OtherSuper.hasSuper_apply (hs : OtherSuper d.users w.id) :
    HasSuper d'.users := by
  obtain ⟨u, hu, hne, hsuper⟩ := hs
  exact ⟨u, mem_apply_of_ne h hu hne, hsuper⟩

end

end

/-! ## What the guard has seen -/

section

variable {users : Users} {id : UUID}

theorem otherSuper_of_uncounted (hs : HasSuper users) (h : uncounted (getUserByID users id)) :
    OtherSuper users id := by
  obtain ⟨u, hu, hsuper⟩ := hs
  refine ⟨u, hu, ?_, hsuper⟩
  intro hid
  have hrow : getUserByID users id = some u := Table.lookup_eq_some.mpr ⟨hu, hid⟩
  unfold uncounted at h
  rw [hrow, Option.any_some, hsuper] at h
  cases h

theorem otherSuper_of_two_le (h : 2 ≤ countActiveSuperAdmins users) : OtherSuper users id := by
  by_contra hnone
  have hall : ∀ k ∈ (users.select UserRow.activeSuper).map UserRow.id, k = id := by
    intro k hk
    obtain ⟨u, hu, rfl⟩ := List.mem_map.mp hk
    obtain ⟨hmem, hsuper⟩ := Table.mem_select.mp hu
    by_contra hne
    exact hnone ⟨u, hmem, hne, hsuper⟩
  have hnodup : ((users.select UserRow.activeSuper).map UserRow.id).Nodup :=
    users.nodup.sublist (List.filter_sublist.map UserRow.id)
  rw [List.eq_replicate_of_mem hall, List.nodup_replicate, List.length_map] at hnodup
  unfold countActiveSuperAdmins at h
  omega

theorem two_le_of_lastSuper {verb : String} {n : ℕ} (h : lastSuper verb (some n) = none) :
    2 ≤ n := by
  unfold lastSuper at h
  split at h
  · cases h
  · rename_i hn
    rw [Option.any_some, decide_eq_true_iff] at hn
    omega

end

/-! ## Runs -/

section

variable {ci : String → String} {ok : Bool} {d d' : Directory} {pc pc' : SuperPc} {s s' : SuperPool}
  {m : SuperMove}

theorem cleared_start (j : Job) : j.start.cleared = none := by
  unfold Job.start
  split
  · rename_i hverb
    show (if j.verb.isSome then some j.write else none) = none
    rw [hverb]
    rfl
  · rfl

theorem cleared_resume (next : Except Answer Job) : (resume next).cleared = none := by
  cases next with
  | error a => rfl
  | ok j => exact cleared_start j

theorem cleared_roleNamed (actorSuper : Bool) (userID roleID : UUID) (name : String) :
    (roleNamed actorSuper userID roleID name).cleared = none := by
  unfold roleNamed
  split
  · split
    · exact cleared_start _
    · rfl
  · rfl

theorem cleared_guarded (actorSuper : Bool) (id : UUID) (next : Except Answer Job) :
    (guarded actorSuper id next).cleared = none := by
  unfold guarded
  split
  · exact cleared_resume next
  · rfl

theorem cleared_startSuper (r : SuperRequest) : (startSuper r).cleared = none := by
  unfold startSuper
  split
  · exact cleared_guarded _ _ _
  · exact cleared_guarded _ _ _
  · exact cleared_guarded _ _ _
  · split
    · exact cleared_resume _
    · rfl
  all_goals rfl

theorem cleared_sequel (q : Sequel) : q.start.cleared = none := by
  cases q with
  | answer a | syncRole userID super | removeRole userID roleID | showing u => rfl

theorem users_run (q : Sequel) : (q.run ok d).1.users = d.users := by
  cases q with
  | answer a | syncRole userID super | showing u => rfl
  | removeRole userID roleID =>
    cases ok with
    | true | false => rfl

/-- There is an administrator, and for each write that a guard has let pass there is one
other than its account. -/
structure AdminInv (s : SuperPool) : Prop where
  super : HasSuper s.store.users
  others : ∀ {c pc w}, s.call c = some pc → pc.cleared = some w → OtherSuper s.store.users w.id

theorem adminInv_enter (hi : AdminInv s) (hpc : pc.cleared = none) : AdminInv (s.enter pc) := by
  refine ⟨hi.super, ?_⟩
  intro c q w hq hw
  rcases Pool.call_enter hq with hold | ⟨-, rfl⟩
  · exact hi.others hold hw
  · rw [hpc] at hw
    cases hw

theorem adminInv_put {k : ℕ} (hi : AdminInv s) (husers : d.users = s.store.users)
    (hpc : ∀ w, pc.cleared = some w → OtherSuper s.store.users w.id) : AdminInv (s.put k d pc) := by
  constructor
  · show HasSuper d.users
    rw [husers]
    exact hi.super
  · intro c q w hq hw
    show OtherSuper d.users w.id
    rw [husers]
    rcases Pool.call_put hq with ⟨-, rfl⟩ | ⟨-, hold⟩
    · exact hpc w hw
    · exact hi.others hold hw

/-- The write of a request whose guard, if any, has seen another administrator. -/
theorem adminInv_write {k : ℕ} {j : Job} (hi : AdminInv s) (hk : s.call k = some (.writing j))
    (hcalm : Undisturbed s (.advance k true)) (happly : j.write.apply ci s.store = some d)
    (hpc : pc.cleared = none) : AdminInv (s.put k d pc) := by
  by_cases htakes : j.write.takesSuper s.store.users
  · obtain ⟨halone, hcount⟩ := (hcalm _ hk).2 j rfl rfl htakes
    constructor
    · have hother : OtherSuper s.store.users j.write.id := by
        cases hverb : j.verb with
        | none => exact otherSuper_of_two_le (hcount hverb)
        | some verb =>
          refine hi.others hk ?_
          show (if j.verb.isSome then some j.write else none) = some j.write
          rw [hverb]
          rfl
      exact hother.hasSuper_apply happly
    · intro c q w hq hw
      rcases Pool.call_put hq with ⟨-, rfl⟩ | ⟨hne, hold⟩
      · rw [hpc] at hw
        cases hw
      · have hnone := halone q (List.mem_eraseIdx_iff_getElem?.mpr ⟨c, hne, hold⟩)
        rw [hw] at hnone
        cases hnone
  · rw [Bool.not_eq_true] at htakes
    constructor
    · exact hi.super.apply happly htakes
    intro c q w hq hw
    rcases Pool.call_put hq with ⟨-, rfl⟩ | ⟨-, hold⟩
    · rw [hpc] at hw
      cases hw
    · exact (hi.others hold hw).apply happly htakes

theorem adminInv_step (hi : AdminInv s) (hcalm : Undisturbed s m) (h : superStep ci s m = some s') :
    AdminInv s' := by
  rcases poolStep_cases h with ⟨r, rfl, rfl⟩ | ⟨k, ok, pc, d, pc', rfl, hk, hact, rfl⟩
  · exact adminInv_enter hi (cleared_startSuper r)
  have hquiet {d pc} (husers : d.users = s.store.users) (hpc : pc.cleared = none) :
      AdminInv (s.put k d pc) := by
    refine adminInv_put hi husers fun w hw => ?_
    rw [hpc] at hw
    cases hw
  have hpass {j : Job} (hother : OtherSuper s.store.users j.write.id) :
      AdminInv (s.put k s.store (.writing j)) := by
    refine adminInv_put hi rfl fun w hw => ?_
    obtain ⟨-, ⟨⟩⟩ := Option.ite_none_right_eq_some.mp hw
    exact hother
  -- a guard lets the request pass, or it is the write, or the accounts are left alone
  revert hact
  fun_cases superAct ci ok s.store pc with
  | case4 verb j huncounted =>
    rintro ⟨⟩
    obtain rfl := (hcalm _ hk).1 rfl
    exact hpass (otherSuper_of_uncounted hi.super huncounted)
  | case7 verb j hlast =>
    rintro ⟨⟩
    obtain rfl := (hcalm _ hk).1 rfl
    exact hpass (otherSuper_of_two_le (two_le_of_lastSuper hlast))
  | case9 j d hwrite =>
    rintro ⟨⟩
    obtain ⟨rfl, happly⟩ := Option.ite_none_right_eq_some.mp hwrite
    exact adminInv_write hi hk hcalm happly (cleared_sequel _)
  | case2 | case12 =>
    rintro ⟨⟩
    exact hquiet rfl (cleared_resume _)
  | case3 =>
    rintro ⟨⟩
    exact hquiet rfl (cleared_roleNamed _ _ _ _)
  | case10 q =>
    rintro ⟨⟩
    exact hquiet (users_run q) rfl
  | case13 => rintro ⟨⟩
  | _ =>
    rintro ⟨⟩
    exact hquiet rfl rfl

end

/-- Whatever the requests, there is an administrator as long as what a guard has seen is
not disturbed. -/
theorem always_administrator (ci : String → String) {d : Directory} (hd : HasSuper d.users)
    {ms : List SuperMove} (hcalm : Guarded (superStep ci) Undisturbed ⟨d, []⟩ ms) {s : SuperPool}
    (h : exec (superStep ci) ⟨d, []⟩ ms = some s) : HasSuper s.store.users := by
  have hstart : AdminInv ⟨d, []⟩ := by
    refine ⟨hd, ?_⟩
    intro c pc w hpc _
    cases hpc
  exact (exec_invariant adminInv_step hcalm h hstart).super

def SuperPc.answer : SuperPc → Option Answer
  | .returned a => some a
  | _ => none

/-- What the requests are answered, and whether there is an administrator. -/
def superView (s : SuperPool) : List (Option Answer) × Bool :=
  (s.calls.map SuperPc.answer, decide (HasSuper s.store.users))

def supers (ns : List ℕ) : List UserRow := ns.map fun n => { plainUser n with isSuperAdmin := true }

def twoSupers : Directory := ⟨⟨supers [1, 2], by decide +kernel⟩, ⟨.empty, [], [], []⟩⟩

def oneSuper : Directory := ⟨⟨supers [1], by decide +kernel⟩, ⟨.empty, [], [], []⟩⟩

def disabling (n : ℕ) : SuperMove := .begin (.disable true (some (.ofNat n)) true)

/-- The account 2 is disabled, then it is tried with the account 1. -/
def inTurn : List SuperMove :=
  [disabling 2, .advance 0 true, .advance 0 true, .advance 0 true, disabling 1, .advance 1 true,
    .advance 1 true]

theorem always_administrator_in_turn : ∃ s, exec (superStep id) ⟨twoSupers, []⟩ inTurn = some s ∧
      s.calls.map SuperPc.answer = [some (.done 200 "updated"), some (.error 400
        "cannot disable the last active super administrator — promote another account first")] ∧
      HasSuper s.store.users := by
  exact exists_of_view (fun s => s.calls.map SuperPc.answer) _ (by decide +kernel) fun s hs hview =>
    ⟨hview, always_administrator id (by decide +kernel) (by decide +kernel) hs⟩

/-- Both guards have counted two before either write. -/
def atOnce : List SuperMove :=
  [disabling 2, disabling 1, .advance 0 true, .advance 0 true, .advance 1 true, .advance 1 true,
    .advance 0 true, .advance 1 true]

/-- Two administrators are disabled at once; and SCIM deletes the only one. Every
statement succeeds. -/
theorem last_administrators_disabled : HasSuper twoSupers.users ∧
      (exec (superStep id) ⟨twoSupers, []⟩ atOnce).map superView =
        some ([some (.done 200 "updated"), some (.done 200 "updated")], false) ∧
        HasSuper oneSuper.users ∧
      (exec (superStep id) ⟨oneSuper, []⟩
          [.begin (.scim (some (.ofNat 1)) .delete), .advance 0 true, .advance 0 true]).map
            superView =
        some ([some (.done 204 "")], false) := by
  refine ⟨?_, ?_, ?_, ?_⟩
  all_goals decide +kernel

end Moorgate.Admin
