import Moorgate.Framework.Base.Table
import Moorgate.Models.Ids

/-!
# Accounts: `store/users.go`

Every function is one SQL statement or one transaction. `username` and `email` are of type
`CITEXT`: two values are the same when `ci` makes them the same.
-/

namespace Moorgate.Store

open Framework Models

/-- A row of `users`. -/
structure UserRow where
  id : UUID
  username : String
  email : Option String
  displayName : String
  (isSuperAdmin isDisabled mustChangePw : Bool)
  authSource : String
  failedLogins : ℕ
  lockedUntil : Option Instant
deriving DecidableEq

abbrev Users := Table UserRow.id

structure CreateUserParams where
  (username email displayName : String)
  (isSuperAdmin mustChangePw : Bool)
  authSource : String

structure UpdateUserParams where
  (email displayName : String)
  isDisabled : Bool

section

variable (ci : String → String)

def getUserByID (t : Users) (id : UUID) : Option UserRow := t.lookup id

def getUserByUsername (t : Users) (username : String) : Option UserRow :=
  t.rows.find? fun u => decide (ci u.username = ci username)

/-- A row other than `id` has the address, so the `UNIQUE` constraint refuses it. -/
def emailTaken (t : Users) (id : UUID) (email : String) : Bool :=
  (nullIf email).any fun e => t.rows.any fun u =>
    decide (u.id ≠ id) && u.email.any fun e' => decide (ci e' = ci e)

/-- `id` is what `gen_random_uuid()` yields. `none` when it, the name or the address is
taken. -/
def createUser (id : UUID) (p : CreateUserParams) (t : Users) : Option (UserRow × Users) :=
  let u : UserRow :=
    { id, username := p.username, email := nullIf p.email, displayName := p.displayName
      isSuperAdmin := p.isSuperAdmin, isDisabled := false, mustChangePw := p.mustChangePw
      authSource := if p.authSource = "" then "local" else p.authSource
      failedLogins := 0, lockedUntil := none }
  if (getUserByUsername ci t p.username).isSome ∨ emailTaken ci t id p.email then none
  else (t.insert u).map fun t' => (u, t')

def updateRow (id : UUID) (f : UserRow → UserRow) (hf : ∀ u, (f u).id = u.id) (t : Users) : Users :=
  t.update (fun u => decide (u.id = id)) f hf

def UserRow.edit (p : UpdateUserParams) (u : UserRow) : UserRow :=
  { u with email := nullIf p.email, displayName := p.displayName, isDisabled := p.isDisabled }

/-- `none` when another account has the address. -/
def updateUser (id : UUID) (p : UpdateUserParams) (t : Users) : Option Users :=
  if (getUserByID t id).isSome ∧ emailTaken ci t id p.email then none
  else some (updateRow id (UserRow.edit p) (fun _ => rfl) t)

def deleteUser (id : UUID) (t : Users) : Users := t.delete fun u => decide (u.id = id)

def UserRow.withDisabled (disabled : Bool) (u : UserRow) : UserRow :=
  { u with isDisabled := disabled }

def setDisabled (id : UUID) (disabled : Bool) : Users → Users :=
  updateRow id (UserRow.withDisabled disabled) fun _ => rfl

def UserRow.withSuper (super : Bool) (u : UserRow) : UserRow := { u with isSuperAdmin := super }

def setSuperAdmin (id : UUID) (super : Bool) : Users → Users :=
  updateRow id (UserRow.withSuper super) fun _ => rfl

def UserRow.activeSuper (u : UserRow) : Bool := u.isSuperAdmin && !u.isDisabled

def countActiveSuperAdmins (t : Users) : ℕ := (t.select UserRow.activeSuper).length

/-! ### Login bookkeeping -/

/-- The account is locked when the threshold is reached, and again with every failure
after that. -/
def UserRow.fail (now : Instant) (maxFailed : ℕ) (lockFor : Duration) (u : UserRow) : UserRow :=
  { u with
    failedLogins := u.failedLogins + 1
    lockedUntil := if maxFailed ≤ u.failedLogins + 1 then some (now + lockFor) else u.lockedUntil }

def recordLoginFailure (now : Instant) (id : UUID) (maxFailed : ℕ) (lockFor : Duration) :
    Users → Users :=
  updateRow id (UserRow.fail now maxFailed lockFor) fun _ => rfl

def UserRow.changedPw (u : UserRow) : UserRow := { u with mustChangePw := false }

/-- The part of `SetPasswordHash` that is in this table. -/
def clearMustChangePw (id : UUID) : Users → Users := updateRow id UserRow.changedPw fun _ => rfl

end

/-! ## What the statements leave -/

section

variable {ci : String → String} {id : UUID} {t t' : Users} {u : UserRow}

variable (f : UserRow → UserRow)

theorem mem_updateRow (hf : ∀ u, (f u).id = u.id) (h : u ∈ (updateRow id f hf t).rows) :
    ∃ v ∈ t.rows, u.id = v.id ∧ (u = v ∨ (v.id = id ∧ u = f v)) := by
  obtain ⟨v, hv, rfl⟩ := Table.mem_update.mp h
  refine ⟨v, hv, ?_⟩
  by_cases hid : v.id = id
  · rw [if_pos (decide_eq_true hid)]
    exact ⟨hf v, .inr ⟨hid, rfl⟩⟩
  · rw [if_neg (by simpa using hid)]
    exact ⟨rfl, .inl rfl⟩

theorem mem_updateRow_self (hf : ∀ u, (f u).id = u.id) (h : u ∈ t.rows) (hid : u.id = id) :
    f u ∈ (updateRow id f hf t).rows :=
  Table.mem_update_of_pos h (decide_eq_true hid)

theorem mem_updateRow_of_ne (hf : ∀ u, (f u).id = u.id) (h : u ∈ t.rows) (hid : u.id ≠ id) :
    u ∈ (updateRow id f hf t).rows :=
  Table.mem_update_of_neg h (decide_eq_false hid)

theorem exists_mem_updateRow (hf : ∀ u, (f u).id = u.id) {k : UUID}
    (h : ∃ u ∈ t.rows, u.id = k) : ∃ u ∈ (updateRow id f hf t).rows, u.id = k := by
  obtain ⟨u, hu, rfl⟩ := h
  by_cases hid : u.id = id
  · exact ⟨f u, mem_updateRow_self f hf hu hid, hf u⟩
  · exact ⟨u, mem_updateRow_of_ne f hf hu hid, rfl⟩

theorem updateUser_eq_some {p : UpdateUserParams} (h : updateUser ci id p t = some t') :
    t' = updateRow id (UserRow.edit p) (fun _ => rfl) t := by
  unfold updateUser at h
  split at h
  · cases h
  · exact (Option.some.inj h).symm

theorem createUser_eq_some {p : CreateUserParams} (h : createUser ci id p t = some (u, t')) :
    t.insert u = some t' ∧ u.id = id ∧ u.isDisabled = false := by
  unfold createUser at h
  dsimp only at h
  split at h
  · cases h
  · obtain ⟨t'', hins, ⟨⟩⟩ := Option.map_eq_some_iff.mp h
    exact ⟨hins, rfl, rfl⟩

end

end Moorgate.Store
