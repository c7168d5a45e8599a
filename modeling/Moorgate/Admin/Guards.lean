import Moorgate.Auth.Timeouts
import Moorgate.Store.Users

/-!
# The guards of the administration: `admin/admin.go`, `Principal.Has`

A guard answers the request in place of its handler, or lets it pass. It decides on
what the store has returned, `none` being an error or a missing row, and both let a
request pass.
-/

namespace Moorgate.Auth

def Principal.has (p : Principal) (perm : String) : Bool :=
  p.isSuperAdmin || decide ("Admin.All" ∈ p.permissions) || decide (perm ∈ p.permissions)

end Moorgate.Auth

namespace Moorgate.Admin

open Auth Store

/-- `resource` is an account as SCIM shows it, `executed` what an action of the assistant
returns. -/
inductive Answer where
  | error (status : ℕ) (message : String)
  | done (status : ℕ) (text : String)
  | resource (status : ℕ) (u : UserRow)
  | executed (result : Except String String)
deriving DecidableEq

def guardGrantable (p : Principal) (perms : List String) : Option Answer :=
  (perms.find? fun perm => !p.has perm).map fun perm =>
    .error 403 ("you cannot grant a permission you do not hold: " ++ perm)

def guardSuperTarget (actorSuper : Bool) (target : Option UserRow) : Option Answer :=
  if !actorSuper && target.any UserRow.isSuperAdmin then
    some (.error 403 "only a super administrator may modify a super-administrator account")
  else none

/-- `guardLastSuper` counts only when this is false. -/
def uncounted (target : Option UserRow) : Bool := !target.any UserRow.activeSuper

/-- What `guardLastSuper` makes of the count. -/
def lastSuper (verb : String) (n : Option ℕ) : Option Answer :=
  if n.any fun n => decide (n ≤ 1) then
    some (.error 400 ("cannot " ++ verb ++
      " the last active super administrator — promote another account first"))
  else none

def guardLastSuper (verb : String) (target : Option UserRow) (n : Option ℕ) : Option Answer :=
  if uncounted target then none else lastSuper verb n

def superAdminRoleName : String := "Super Administrator"

def errSuperOnly : Answer :=
  .error 403 "only a super administrator may grant or revoke super-administrator status"

theorem guardGrantable_eq_none {p : Principal} {perms : List String} :
    guardGrantable p perms = none ↔ ∀ perm ∈ perms, p.has perm := by
  unfold guardGrantable
  simp

end Moorgate.Admin
