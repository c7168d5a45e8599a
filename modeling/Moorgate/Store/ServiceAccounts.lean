import Moorgate.Auth.Middleware
import Moorgate.Store.HostAccess
import Moorgate.Store.Rbac

/-!
# Service accounts and their tokens: `store/service_accounts.go`

A service account is a row of `users` with a mark. It has roles and groups like any
other account, and whoever presents one of its tokens acts as the account.
-/

namespace Moorgate.Store

open Framework Models Auth

/-- A row of `api_tokens`. -/
structure ApiToken where
  (id serviceAccountID : UUID)
  (name tokenHash : String)
  createdBy : UUID
  createdAt : Instant
  (expiresAt revokedAt : Option Instant)
deriving DecidableEq

/-- The tables. `isServiceAccount` and `tenantID` are columns of `users`, and `groups` the
ids of the groups; the column `token_hash` is unique. -/
structure ServiceDb where
  users : Users
  isServiceAccount : UUID → Bool
  tenantID : UUID → Option UUID
  rbac : Rbac
  groups : List UUID
  userGroups : List UserGroup
  tokens : Table ApiToken.id
  hashes : (tokens.rows.map ApiToken.tokenHash).Nodup

theorem nodup_hashes_insert {t t' : Table ApiToken.id} {tok : ApiToken}
    (h : (t.rows.map ApiToken.tokenHash).Nodup) (hnew : ∀ q ∈ t.rows, q.tokenHash ≠ tok.tokenHash)
    (hins : t.insert tok = some t') : (t'.rows.map ApiToken.tokenHash).Nodup := by
  rw [Table.rows_insert hins, List.map_append]
  refine h.append (List.nodup_singleton _) ?_
  intro x hx hmem
  obtain ⟨q, hq, rfl⟩ := List.mem_map.mp hx
  exact hnew q hq (List.mem_singleton.mp hmem)

/-- The tenant of a row that names none. -/
def defaultTenantID : UUID := UUID.ofNat 1

section

variable (ci : String → String) (db : ServiceDb)

/-- `id` is what `gen_random_uuid()` yields. -/
def createServiceAccount (id : UUID) (username displayName : String) :
    Option (UserRow × ServiceDb) :=
  (createUser ci id ⟨username, "", displayName, false, false, ""⟩ db.users).map fun (u, users) =>
    (u, { db with users, isServiceAccount := Function.update db.isServiceAccount id true })

def getServiceAccount (id : UUID) : Option UserRow :=
  if db.isServiceAccount id then db.users.lookup id else none

/-- `UPDATE users … WHERE id=$1 AND is_service_account`; `none` when there is no such row. -/
def setServiceAccountDisabled (id : UUID) (disabled : Bool) : Option ServiceDb :=
  if (getServiceAccount db id).isSome then
    some { db with users := setDisabled id disabled db.users }
  else none

/-- The rows of a join table after the transaction: `none` when it is no service account or
`known` fails for one of the ids, which the foreign key refuses. -/
def replaceMemberships {ρ : Type*} [DecidableEq ρ] (id : UUID) (userOf : ρ → UUID)
    (row : UUID → UUID → ρ) (known : UUID → Bool) (rows : List ρ) (ids : List UUID) :
    Option (List ρ) :=
  if (getServiceAccount db id).isSome && ids.all known then
    some ((rows.filter fun r => decide (userOf r ≠ id)) ++ (ids.map (row id)).dedup)
  else none

def setServiceAccountRoles (id : UUID) (roleIDs : List UUID) : Option ServiceDb :=
  (replaceMemberships db id UserRole.userID UserRole.mk (fun r => (db.rbac.roles.lookup r).isSome)
    db.rbac.userRoles roleIDs).map fun userRoles => { db with rbac := { db.rbac with userRoles } }

def setServiceAccountGroups (id : UUID) (groupIDs : List UUID) : Option ServiceDb :=
  (replaceMemberships db id UserGroup.userId UserGroup.mk (fun g => decide (g ∈ db.groups))
    db.userGroups groupIDs).map fun userGroups => { db with userGroups }

/-- `none` when the id or the hash is taken, or a referenced account is gone. -/
def createAPIToken (tok : ApiToken) : Option ServiceDb :=
  if h : (db.users.lookup tok.serviceAccountID).isSome ∧ (db.users.lookup tok.createdBy).isSome ∧
      ∀ q ∈ db.tokens.rows, q.tokenHash ≠ tok.tokenHash then
    match hins : db.tokens.insert tok with
    | none => none
    | some tokens => some { db with tokens, hashes := nodup_hashes_insert db.hashes h.2.2 hins }
  else none

/-- The token with its account. -/
def getAPITokenByHash (hash : String) : Option ApiTokenAuth :=
  (db.tokens.rows.find? fun t => decide (t.tokenHash = hash)).bind fun t =>
    (getServiceAccount db t.serviceAccountID).map fun u =>
      ⟨t.serviceAccountID, u.username, u.isDisabled, t.expiresAt, t.revokedAt,
        (db.tenantID t.serviceAccountID).getD defaultTenantID⟩

end

/-! ## What the statements leave -/

section

variable {db db' : ServiceDb} {id other : UUID} {perm : String}

/-- Tokens and accounts stay, no role gets other permissions, and of all accounts only `touched`
gets other roles. -/
structure Keeps (touched : Option UUID) (db db' : ServiceDb) : Prop where
  tokens : ∀ tok ∈ db.tokens.rows, tok ∈ db'.tokens.rows
  permissions : db'.rbac.rolePermissions = db.rbac.rolePermissions
  accounts : ∀ id, (getServiceAccount db id).isSome → (getServiceAccount db' id).isSome
  roles : ∀ r ∈ db'.rbac.userRoles, touched ≠ some r.userID → r ∈ db.rbac.userRoles

variable {touched : Option UUID}

theorem Keeps.refl (db : ServiceDb) : Keeps touched db db :=
  ⟨fun _ h => h, rfl, fun _ h => h, fun _ h _ => h⟩

theorem Keeps.rolePermissions_eq (h : Keeps touched db db') (roleID : UUID) :
    rolePermissions db'.rbac roleID = rolePermissions db.rbac roleID := by
  unfold rolePermissions
  rw [h.permissions]

theorem keeps_setServiceAccountRoles {roleIDs : List UUID}
    (h : setServiceAccountRoles db id roleIDs = some db') : Keeps (some id) db db' := by
  obtain ⟨userRoles, hreplace, rfl⟩ := Option.map_eq_some_iff.mp h
  obtain ⟨-, ⟨⟩⟩ := Option.ite_none_right_eq_some.mp hreplace
  refine ⟨fun _ h => h, rfl, fun _ h => h, fun r hr hother => ?_⟩
  rcases List.mem_append.mp hr with hold | hnew
  · exact (List.mem_filter.mp hold).1
  · obtain ⟨roleID, -, rfl⟩ := List.mem_map.mp (List.mem_dedup.mp hnew)
    exact absurd rfl hother

theorem keeps_setServiceAccountGroups {groupIDs : List UUID}
    (h : setServiceAccountGroups db id groupIDs = some db') : Keeps touched db db' := by
  obtain ⟨userGroups, -, rfl⟩ := Option.map_eq_some_iff.mp h
  exact ⟨fun _ h => h, rfl, fun _ h => h, fun _ h _ => h⟩

theorem isSome_getServiceAccount :
    (getServiceAccount db id).isSome ↔ db.isServiceAccount id ∧ ∃ u ∈ db.users.rows, u.id = id := by
  unfold getServiceAccount
  split
  · rename_i hmark
    rw [Option.isSome_iff_exists]
    constructor
    · rintro ⟨u, hu⟩
      exact ⟨hmark, u, Table.lookup_eq_some.mp hu⟩
    · rintro ⟨-, u, hu⟩
      exact ⟨u, Table.lookup_eq_some.mpr hu⟩
  · next hmark => simp [hmark]

theorem keeps_setServiceAccountDisabled {disabled : Bool}
    (h : setServiceAccountDisabled db id disabled = some db') : Keeps touched db db' := by
  obtain ⟨-, ⟨⟩⟩ := Option.ite_none_right_eq_some.mp h
  refine ⟨fun _ h => h, rfl, ?_, fun _ h _ => h⟩
  intro k hk
  rw [isSome_getServiceAccount] at hk ⊢
  obtain ⟨hmark, u, hu, huid⟩ := hk
  exact ⟨hmark, exists_mem_updateRow (UserRow.withDisabled disabled) (fun _ => rfl) ⟨u, hu, huid⟩⟩

theorem keeps_createServiceAccount {ci : String → String} {username displayName : String}
    {u : UserRow} (h : createServiceAccount ci db id username displayName = some (u, db')) :
    Keeps touched db db' := by
  obtain ⟨⟨v, users⟩, hcreate, ⟨⟩⟩ := Option.map_eq_some_iff.mp h
  refine ⟨fun _ h => h, rfl, ?_, fun _ h _ => h⟩
  intro k hk
  rw [isSome_getServiceAccount] at hk ⊢
  obtain ⟨hmark, w, hw, hwid⟩ := hk
  refine ⟨?_, w, ?_, hwid⟩
  · show Function.update db.isServiceAccount id true k
    rw [Function.update_apply]
    split
    · rfl
    · exact hmark
  · exact (Table.mem_insert (createUser_eq_some hcreate).1).mpr (.inl hw)

theorem createAPIToken_eq_some {tok : ApiToken} (h : createAPIToken db tok = some db') :
    Keeps touched db db' ∧ tok ∈ db'.tokens.rows := by
  unfold createAPIToken at h
  split at h
  · split at h
    · cases h
    rename_i tokens hins
    cases h
    refine ⟨⟨?_, rfl, fun _ hacc => hacc, fun _ h _ => h⟩, (Table.mem_insert hins).mpr (.inr rfl)⟩
    intro q hq
    exact (Table.mem_insert hins).mpr (.inl hq)
  · cases h

theorem account_of_getAPITokenByHash {tok : ApiToken} (htok : tok ∈ db.tokens.rows)
    (hacc : (getServiceAccount db tok.serviceAccountID).isSome) :
    (getAPITokenByHash db tok.tokenHash).map ApiTokenAuth.serviceAccountID =
      some tok.serviceAccountID := by
  have hfind : db.tokens.rows.find? (fun t => decide (t.tokenHash = tok.tokenHash)) = some tok := by
    cases hf : db.tokens.rows.find? fun t => decide (t.tokenHash = tok.tokenHash) with
    | none => exact absurd (decide_eq_true rfl) (List.find?_eq_none.mp hf tok htok)
    | some q =>
      have hq : q.tokenHash = tok.tokenHash := by simpa using List.find?_some hf
      rw [List.inj_on_of_nodup_map db.hashes (List.mem_of_find?_eq_some hf) htok hq]
  obtain ⟨u, hu⟩ := Option.isSome_iff_exists.mp hacc
  unfold getAPITokenByHash
  rw [hfind, Option.bind_some, hu]
  rfl

end

end Moorgate.Store
