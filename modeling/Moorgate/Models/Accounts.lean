import Moorgate.Models.Ids

/-!
# Accounts

The columns of `users` that the session code looks at, and the permissions its roles add up to.
-/

namespace Moorgate.Models

/-- `models.User`, the fields the session code reads. -/
structure User where
  id : UUID
  username : String
  tenantId : UUID
  (isSuperAdmin isDisabled mustChangePw : Bool)
deriving DecidableEq

/-- The account tables. `none` is the error a query returns, which for a user
is the missing row. -/
structure Accounts where
  getUserByID : UUID → Option User
  userPermissions : UUID → Option (List String)

end Moorgate.Models
