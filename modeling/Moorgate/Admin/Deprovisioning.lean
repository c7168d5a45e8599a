import Moorgate.Admin.Guards
import Moorgate.Identity.Renewal
import Moorgate.Livesessions.Registry
import Moorgate.Scim.Users
import Moorgate.Store.Rbac

/-!
# Disabling an account: `admin/users.go`, `scim/users.go`, `aiaction/actions.go`

An account that becomes disabled shall be left without a session: `DestroyUserSessions` destroys
the keys of each session, revokes its certificates, closes its connections and revokes it. Of the
handlers that write `is_disabled`, `updateUser` of the administration does not call it, and it does
not reach what a session that was revoked in another way still has.
-/

namespace Moorgate.Admin

open Framework Models Identity Livesessions Store Scim

/-- What the requests reach. `closed` are the connections whose function to close them was
run. The foreign key of `sessions` makes every session one of an account. -/
structure Platform where
  users : Users
  rbac : Rbac
  sessions : Sessions
  ids : IdentityState
  live : Registry
  closed : List ℕ
  owned : ∀ r ∈ sessions.rows, ∃ u ∈ users.rows, u.id = r.userId

/-! ## Ending sessions: `auth/service.go` -/

namespace Platform

theorem owned_revokeSession (p : Platform) (now : Instant) (id : UUID) :
    ∀ r ∈ (revokeSession now id p.sessions).rows, ∃ u ∈ p.users.rows, u.id = r.userId := by
  intro r hr
  obtain ⟨q, hq, rfl⟩ := List.mem_map.mp hr
  obtain ⟨u, hu, hid⟩ := p.owned q hq
  refine ⟨u, hu, ?_⟩
  split
  · exact hid
  · exact hid

/-- `onSessionDestroyed`, then `RevokeSession`. -/
def endSession (now : Instant) (p : Platform) (id : UUID) : Platform where
  users := p.users
  rbac := p.rbac
  sessions := revokeSession now id p.sessions
  ids := destroySession now id p.ids
  live := (p.live.close id).1
  closed := p.closed ++ (p.live.close id).2
  owned := p.owned_revokeSession now id

def destroyUserSessions (now : Instant) (p : Platform) (userID : UUID) : Platform :=
  ((listUserSessions userID p.sessions).map Session.id).foldl (endSession now) p

/-! ## Statements on accounts -/

theorem owned_updateRow (p : Platform) (id : UUID) (f : UserRow → UserRow)
    (hf : ∀ u, (f u).id = u.id) :
    ∀ r ∈ p.sessions.rows, ∃ u ∈ (updateRow id f hf p.users).rows, u.id = r.userId :=
  fun r hr => exists_mem_updateRow f hf (p.owned r hr)

def edit (p : Platform) (id : UUID) (f : UserRow → UserRow) (hf : ∀ u, (f u).id = u.id) :
    Platform :=
  { p with users := updateRow id f hf p.users, owned := p.owned_updateRow id f hf }

def setDisabled (p : Platform) (id : UUID) (disabled : Bool) : Platform :=
  { p with users := Store.setDisabled id disabled p.users, owned := p.owned_updateRow id _ _ }

variable (ci : String → String)

variable {p : Platform} {users : Users}

theorem owned_updateUser {id : UUID} {rq : UpdateUserParams}
    (h : Store.updateUser ci id rq p.users = some users) :
    ∀ r ∈ p.sessions.rows, ∃ u ∈ users.rows, u.id = r.userId := by
  rw [updateUser_eq_some h]
  exact p.owned_updateRow id _ _

def updateUser (p : Platform) (id : UUID) (rq : UpdateUserParams) : Option Platform :=
  match h : Store.updateUser ci id rq p.users with
  | none => none
  | some users => some { p with users, owned := owned_updateUser ci h }

theorem owned_insert {u : UserRow} (h : p.users.insert u = some users) :
    ∀ r ∈ p.sessions.rows, ∃ v ∈ users.rows, v.id = r.userId := by
  intro r hr
  obtain ⟨v, hv, hid⟩ := p.owned r hr
  exact ⟨v, (Table.mem_insert h).mpr (.inl hv), hid⟩

def createUser (p : Platform) (id : UUID) (params : CreateUserParams) :
    Option (UserRow × Platform) :=
  match h : Store.createUser ci id params p.users with
  | none => none
  | some (u, users) => some (u, { p with users, owned := owned_insert (createUser_eq_some h).1 })

theorem owned_delete (p : Platform) (id : UUID) :
    ∀ r ∈ (p.sessions.delete fun r => decide (r.userId = id)).rows,
      ∃ u ∈ (Store.deleteUser id p.users).rows, u.id = r.userId := by
  intro r hr
  obtain ⟨hmem, hother⟩ := Table.mem_delete.mp hr
  obtain ⟨u, hu, hid⟩ := p.owned r hmem
  refine ⟨u, Table.mem_delete.mpr ⟨hu, ?_⟩, hid⟩
  rwa [hid]

/-- With what `ON DELETE` does: the sessions of the user and their certificates go, other
certificates lose the reference. -/
def deleteUser (p : Platform) (id : UUID) : Platform where
  users := Store.deleteUser id p.users
  rbac := p.rbac.forgetUser id
  sessions := p.sessions.delete fun r => decide (r.userId = id)
  ids :=
    { p.ids with
      db :=
        { p.ids.db with
          certs :=
            (p.ids.db.certs.delete fun c => p.sessions.rows.any fun r =>
                decide (c.sessionId = some r.id) && decide (r.userId = id)).update
              (fun c => decide (c.userId = some id)) (fun c => { c with userId := none })
                fun _ => rfl } }
  live := p.live
  closed := p.closed
  owned := p.owned_delete id

def assignRoleByName (p : Platform) (userID : UUID) (name : String) : Platform :=
  { p with rbac := (Store.assignRoleByName p.rbac p.users userID name).getD p.rbac }

def lastSuper (p : Platform) (verb : String) (id : UUID) : Option Answer :=
  guardLastSuper verb (getUserByID p.users id) (some (countActiveSuperAdmins p.users))

end Platform

def unlessRefused (p : Platform) (refusal : Option Answer) (handled : Platform × Answer) :
    Platform × Answer :=
  match refusal with
  | some a => (p, a)
  | none => handled

/-! ## The handlers of the administration -/

section

variable (ci : String → String) (now : Instant) (actorSuper : Bool) (p : Platform) (id : UUID)

/-- `body` is `none` when it is no JSON. -/
def updateUser (body : Option UpdateUserParams) : Platform × Answer :=
  unlessRefused p (guardSuperTarget actorSuper (getUserByID p.users id)) <|
    match body with
    | none => (p, .error 400 "invalid request body")
    | some rq =>
      unlessRefused p (if rq.isDisabled then p.lastSuper "disable" id else none) <|
        match p.updateUser ci id rq with
        | none => (p, .error 500 "could not update user")
        | some p' => (p', .done 200 "updated")

def deleteUser : Platform × Answer :=
  unlessRefused p (guardSuperTarget actorSuper (getUserByID p.users id)) <|
    unlessRefused p (p.lastSuper "delete" id) ((p.destroyUserSessions now id).deleteUser id,
    .done 200 "deleted")

/-- `disabled` is true when the body does not say. -/
def disableUser (disabled : Bool) : Platform × Answer :=
  unlessRefused p (guardSuperTarget actorSuper (getUserByID p.users id)) <|
    unlessRefused p (if disabled then p.lastSuper "disable" id else none) <|
      let p' := p.setDisabled id disabled
      (if disabled then p'.destroyUserSessions now id else p', .done 200 "updated")

end

end Moorgate.Admin

/-! ## The handlers of SCIM -/

namespace Moorgate.Scim

open Framework Models Store Admin

variable (ci : String → String) (cfg : ScimConfig) (now : Instant) (p : Platform)

def createUser (newID : UUID) (body : Option ScimUser) : Platform × Answer :=
  match body with
  | none => (p, .error 400 "invalid request body")
  | some scim =>
    let userName := trimSpace scim.userName
    if userName = "" then (p, .error 400 "userName is required")
    else if (getUserByUsername ci p.users userName).isSome then
      (p, .error 409 "user already exists")
    else
      match p.createUser ci newID ⟨userName, scim.primaryEmail, scim.fullName, false, false,
        cfg.source⟩ with
      | none => (p, .error 400 "could not create user")
      | some (u, p') =>
        let p' := p'.assignRoleByName u.id cfg.role
        if scim.active then (p', .resource 201 u)
        else (p'.setDisabled u.id true, .resource 201 { u with isDisabled := true })

def applyDeprovisionSideEffects (id : UUID) (disabled : Bool) : Platform :=
  if disabled then p.destroyUserSessions now id else p

def lookup (id : Option UUID) : Option UserRow := id.bind (getUserByID p.users)

def shown (u : UserRow) : Platform × Answer :=
  (p, .resource 200 ((getUserByID p.users u.id).getD u))

def replaceUser (id : Option UUID) (body : Option ScimUser) : Platform × Answer :=
  match lookup p id with
  | none => (p, .error 404 "user not found")
  | some u =>
    match body with
    | none => (p, .error 400 "invalid request body")
    | some scim =>
      match p.updateUser ci u.id scim.params with
      | none => (p, .error 500 "could not update user")
      | some p' => shown (applyDeprovisionSideEffects now p' u.id !scim.active) u

/-- The rest of `patchUser` with the account as it was read; the platform is that of the write. -/
def patchWritten (u : UserRow) (ops : List PatchOp) : Option Platform :=
  let patch := patched u ops
  (p.updateUser ci u.id patch.params).map fun p' =>
    if patch.changedActive then applyDeprovisionSideEffects now p' u.id patch.disabled else p'

def patchUser (id : Option UUID) (body : Option (List PatchOp)) : Platform × Answer :=
  match lookup p id with
  | none => (p, .error 404 "user not found")
  | some u =>
    match body with
    | none => (p, .error 400 "invalid request body")
    | some ops =>
      match patchWritten ci now p u ops with
      | none => (p, .error 500 "could not update user")
      | some p' => shown p' u

def deleteUser (id : Option UUID) : Platform × Answer :=
  match lookup p id with
  | none => (p, .error 404 "user not found")
  | some u => (applyDeprovisionSideEffects now (p.setDisabled u.id true) u.id true, .done 204 "")

end Moorgate.Scim

namespace Moorgate.Admin

open Framework Models Identity Livesessions Store Scim

/-- `Execute` of the action `user.disable`. `params` are what `Prepare` has stored, or the
error of their JSON. -/
def executeDisableUser (now : Instant) (p : Platform) (params : Except String UUID) :
    Platform × Answer :=
  match params with
  | .error e => (p, .executed (.error e))
  | .ok id =>
    match getUserByID p.users id with
    | none => (p, .executed (.error "user not found"))
    | some u =>
      if u.isSuperAdmin then
        (p, .executed (.error "administrators cannot be disabled via the assistant"))
      else if u.isDisabled then
        (p, .executed (.ok ("User " ++ u.username ++ " was already disabled.")))
      else
        ((p.setDisabled u.id true).destroyUserSessions now u.id,
          .executed (.ok ("Disabled user " ++ u.username ++ " and ended their sessions.")))

/-! ## Requests -/

/-- An id is `none` when it does not parse. `newID` is what `gen_random_uuid()` yields. -/
inductive Request where
  | update (actorSuper : Bool) (id : Option UUID) (body : Option UpdateUserParams)
  | delete (actorSuper : Bool) (id : Option UUID)
  | disable (actorSuper : Bool) (id : Option UUID) (disabled : Bool)
  | scimCreate (newID : UUID) (body : Option ScimUser)
  | scimReplace (id : Option UUID) (body : Option ScimUser)
  | scimPatch (id : Option UUID) (body : Option (List PatchOp))
  | scimDelete (id : Option UUID)
  | assistantDisable (params : Except String UUID)

def withID (p : Platform) (id : Option UUID) (handler : UUID → Platform × Answer) :
    Platform × Answer :=
  match id with
  | none => (p, .error 400 "invalid user id")
  | some id => handler id

section

variable (ci : String → String) (cfg : ScimConfig) (p : Platform)

def serve (now : Instant) : Request → Platform × Answer
  | .update actorSuper id body => withID p id fun id => updateUser ci actorSuper p id body
  | .delete actorSuper id => withID p id fun id => deleteUser now actorSuper p id
  | .disable actorSuper id disabled =>
    withID p id fun id => disableUser now actorSuper p id disabled
  | .scimCreate newID body => Scim.createUser ci cfg p newID body
  | .scimReplace id body => replaceUser ci now p id body
  | .scimPatch id body => patchUser ci now p id body
  | .scimDelete id => Scim.deleteUser now p id
  | .assistantDisable params => executeDisableUser now p params

def after (q : Instant × Request) : Platform := (serve ci cfg p q.1 q.2).1

end

/-! ## What disabling shall leave -/

/-- Nothing of the session can be used any more. -/
structure Gone (p : Platform) (sid : UUID) : Prop where
  revoked : Revoked p.sessions sid
  keys : ¬ Holds p.ids.vault sid
  certs : ¬ HasLiveCert p.ids.db sid
  conns : p.live.conns sid = []

def Disables (p p' : Platform) (id : UUID) : Prop :=
  (∃ u ∈ p'.users.rows, u.id = id ∧ u.isDisabled) ∧ ∀ u ∈ p.users.rows, u.id = id →
    u.isDisabled = false

/-- Who becomes disabled loses every session, and its connections are closed. -/
def Deprovisioned (p p' : Platform) : Prop :=
  ∀ id, Disables p p' id → ∀ r ∈ p.sessions.rows, r.userId = id →
    Gone p' r.id ∧ ∀ c ∈ p.live.conns r.id, c.id ∈ p'.closed

def Request.isUpdate : Request → Bool
  | .update .. => true
  | _ => false

/-- The request disables an account that has a session to work with, or what is left of
one, and does not end it: because it is an update of the administration, or because
the session is already revoked. -/
def LeavesOpen (ci : String → String) (cfg : ScimConfig) (p : Platform)
    (q : Instant × Request) : Prop :=
  ∃ id, Disables p (after ci cfg p q) id ∧ ∃ r ∈ p.sessions.rows, r.userId = id ∧ ¬ Gone p r.id ∧
    (q.2.isUpdate ∨ Revoked p.sessions r.id)

/-! ## What ending sessions does -/

section

variable {now : Instant} {p : Platform} {id sid : UUID} {ids : List UUID}

theorem conns_endSession_of_ne (hne : sid ≠ id) :
    (p.endSession now id).live.conns sid = p.live.conns sid :=
  Function.update_of_ne hne _ _

theorem gone_endSession {r : Session} (h : p.sessions.lookup id = some r) :
    Gone (p.endSession now id) id where
  revoked := revoked_revokeSession h now
  keys := not_holds_destroy _ _
  certs := not_hasLiveCert_revokeSessionCertificates _ _ _ _
  conns := Function.update_self _ _ _

theorem gone_endSession_of_ne (hne : sid ≠ id) : Gone (p.endSession now id) sid ↔ Gone p sid := by
  constructor
  · intro h
    refine ⟨?_, fun hk => h.keys (hk.destroy hne),
      fun hc => h.certs (hc.revokeSessionCertificates hne _ _), ?_⟩
    · exact h.revoked.of_revokeSession.resolve_right hne
    · rw [← conns_endSession_of_ne hne]
      exact h.conns
  · intro h
    refine ⟨h.revoked.revokeSession _ _, fun hk => h.keys hk.of_destroy,
      fun hc => h.certs hc.of_revokeWhere, ?_⟩
    rw [conns_endSession_of_ne hne]
    exact h.conns

theorem Gone.endSession (h : Gone p sid) : Gone (p.endSession now id) sid := by
  by_cases hne : sid = id
  · obtain ⟨r, hr, -⟩ := h.revoked
    subst hne
    exact gone_endSession hr
  · exact (gone_endSession_of_ne hne).mpr h

theorem Gone.foldl_endSession (h : Gone p sid) :
    Gone (ids.foldl (Platform.endSession now) p) sid := by
  induction ids generalizing p with
  | nil => exact h
  | cons id ids ih => exact ih h.endSession

theorem mem_closed_foldl_endSession {n : ℕ} (h : n ∈ p.closed) :
    n ∈ (ids.foldl (Platform.endSession now) p).closed := by
  induction ids generalizing p with
  | nil => exact h
  | cons id ids ih => exact ih (List.mem_append_left _ h)

theorem gone_foldl_endSession_of_notMem (h : sid ∉ ids) :
    Gone (ids.foldl (Platform.endSession now) p) sid ↔ Gone p sid := by
  induction ids generalizing p with
  | nil => rfl
  | cons id ids ih =>
    obtain ⟨hne, hrest⟩ := List.ne_and_not_mem_of_not_mem_cons h
    exact (ih hrest).trans (gone_endSession_of_ne hne)

theorem gone_foldl_endSession_of_mem {r : Session} (h : sid ∈ ids)
    (hr : p.sessions.lookup sid = some r) : Gone (ids.foldl (Platform.endSession now) p) sid ∧
      ∀ c ∈ p.live.conns sid, c.id ∈ (ids.foldl (Platform.endSession now) p).closed := by
  induction ids generalizing p with
  | nil => cases h
  | cons id ids ih =>
    by_cases hne : sid = id
    · subst hne
      refine ⟨(gone_endSession hr).foldl_endSession, fun c hc => ?_⟩
      have hclosed : c.id ∈ (p.endSession now sid).closed :=
        List.mem_append_right _ (List.mem_map_of_mem hc)
      rw [List.foldl_cons]
      exact mem_closed_foldl_endSession hclosed
    · have hrest : sid ∈ ids := List.mem_of_ne_of_mem hne h
      have hrow : (p.endSession now id).sessions.lookup sid = some r := by
        show (revokeSession now id p.sessions).lookup sid = some r
        unfold revokeSession
        rwa [lookup_updateSession_of_ne _ hne]
      have hconns : (p.endSession now id).live.conns sid = p.live.conns sid :=
        conns_endSession_of_ne hne
      rw [← hconns]
      exact ih hrest hrow

theorem users_foldl_endSession : (ids.foldl (Platform.endSession now) p).users = p.users := by
  induction ids generalizing p with
  | nil => rfl
  | cons id ids ih => exact ih

theorem gone_destroyUserSessions_iff {r : Session} (hr : r ∈ p.sessions.rows)
    (huser : r.userId = id) : (Gone (p.destroyUserSessions now id) r.id ∧
        ∀ c ∈ p.live.conns r.id, c.id ∈ (p.destroyUserSessions now id).closed) ↔
      Gone p r.id ∨ ¬ Revoked p.sessions r.id := by
  have hrow : p.sessions.lookup r.id = some r := Table.lookup_eq_some.mpr ⟨hr, rfl⟩
  unfold Platform.destroyUserSessions
  by_cases hlive : r.revokedAt = none
  · -- the session is listed
    have hmem : r.id ∈ (listUserSessions id p.sessions).map Session.id := by
      exact List.mem_map_of_mem (mem_listUserSessions.mpr ⟨hr, huser, hlive⟩)
    exact ⟨fun _ => .inr (not_revoked_of_mem hr hlive),
      fun _ => gone_foldl_endSession_of_mem hmem hrow⟩
  · have hrevoked : Revoked p.sessions r.id := ⟨r, hrow, Option.isSome_iff_ne_none.mpr hlive⟩
    have hnot : r.id ∉ (listUserSessions id p.sessions).map Session.id := by
      intro hmem
      obtain ⟨q, hq, hid⟩ := List.mem_map.mp hmem
      obtain ⟨hrowq, -, hnone⟩ := mem_listUserSessions.mp hq
      rw [Table.eq_of_key hrowq hr hid] at hnone
      exact hlive hnone
    rw [gone_foldl_endSession_of_notMem hnot]
    constructor
    · exact fun h => .inl h.1
    intro h
    have hgone := h.resolve_right fun hlost => hlost hrevoked
    refine ⟨hgone, ?_⟩
    rw [hgone.conns]
    exact nofun

end

/-! ## What a request does -/

section

variable {ci : String → String} {cfg : ScimConfig} {now : Instant} {p p' : Platform} {id : UUID}

/-- Nobody with a session becomes disabled. -/
def Harmless (p p' : Platform) : Prop :=
  ∀ id, Disables p p' id → ∀ r ∈ p.sessions.rows, r.userId ≠ id

/-- At most the account becomes disabled, and its sessions are as before. -/
structure Writes (p p' : Platform) (id : UUID) : Prop where
  only : ∀ k, Disables p p' k → k = id
  sessions : p'.sessions = p.sessions
  ids : p'.ids = p.ids
  live : p'.live = p.live

/-- At most the account becomes disabled, and its sessions are destroyed. -/
def Tears (now : Instant) (p p' : Platform) (id : UUID) : Prop :=
  (∀ k, Disables p p' k → k = id) ∧ ∃ f hf, p' = (p.edit id f hf).destroyUserSessions now id

theorem harmless_of_kept
    (h : ∀ u ∈ p'.users.rows, u.isDisabled → ∃ v ∈ p.users.rows, v.id = u.id ∧ v.isDisabled) :
    Harmless p p' := by
  rintro id ⟨⟨u, hu, hid, hoff⟩, hon⟩
  obtain ⟨v, hv, hvid, hvoff⟩ := h u hu hoff
  rw [hon v hv (hvid.trans hid)] at hvoff
  cases hvoff

theorem Harmless.refl : Harmless p p := harmless_of_kept fun u hu hoff => ⟨u, hu, rfl, hoff⟩

theorem harmless_edit {f : UserRow → UserRow} {hf : ∀ u, (f u).id = u.id}
    (hkeep : ∀ u ∈ p.users.rows, u.id = id → (f u).isDisabled → u.isDisabled) :
    Harmless p (p.edit id f hf) := by
  refine harmless_of_kept fun u hu hoff => ?_
  obtain ⟨v, hv, hid, rfl | ⟨hvid, rfl⟩⟩ := mem_updateRow f hf hu
  · exact ⟨u, hv, rfl, hoff⟩
  · exact ⟨v, hv, hid.symm, hkeep v hv hvid hoff⟩

theorem disables_edit {f : UserRow → UserRow} {hf : ∀ u, (f u).id = u.id} {k : UUID}
    (h : ∃ u ∈ (p.edit id f hf).users.rows, u.id = k ∧ u.isDisabled)
    (hon : ∀ u ∈ p.users.rows, u.id = k → u.isDisabled = false) : k = id := by
  obtain ⟨u, hu, rfl, hoff⟩ := h
  obtain ⟨v, hv, hid, rfl | ⟨hvid, -⟩⟩ := mem_updateRow f hf hu
  · rw [hon u hv rfl] at hoff
    cases hoff
  · exact hid.trans hvid

theorem writes_edit (f : UserRow → UserRow) (hf : ∀ u, (f u).id = u.id) :
    Writes p (p.edit id f hf) id :=
  ⟨fun _ h => disables_edit h.1 h.2, rfl, rfl, rfl⟩

theorem tears_edit (f : UserRow → UserRow) (hf : ∀ u, (f u).id = u.id) :
    Tears now p ((p.edit id f hf).destroyUserSessions now id) id := by
  refine ⟨fun k h => ?_, f, hf, rfl⟩
  have husers : ((p.edit id f hf).destroyUserSessions now id).users = (p.edit id f hf).users :=
    users_foldl_endSession
  have hdisabled := h.1
  rw [husers] at hdisabled
  exact disables_edit hdisabled h.2

theorem updateUser_eq_edit {rq : UpdateUserParams} (h : p.updateUser ci id rq = some p') :
    p' = p.edit id (UserRow.edit rq) fun _ => rfl := by
  unfold Platform.updateUser at h
  split at h
  · cases h
  rename_i users hupdate
  cases h
  obtain rfl := updateUser_eq_some hupdate
  rfl

theorem updateUser_cases (actorSuper : Bool) (body : Option UpdateUserParams) :
    Harmless p (updateUser ci actorSuper p id body).1 ∨
    Writes p (updateUser ci actorSuper p id body).1 id := by
  unfold updateUser unlessRefused
  split
  · exact .inl .refl
  split
  · exact .inl .refl
  split
  · exact .inl .refl
  split
  · exact .inl .refl
  · next hupdate =>
    rw [updateUser_eq_edit hupdate]
    exact .inr (writes_edit _ _)

theorem deleteUser_harmless (actorSuper : Bool) :
    Harmless p (deleteUser now actorSuper p id).1 := by
  unfold deleteUser unlessRefused
  split
  · exact .refl
  split
  · exact .refl
  refine harmless_of_kept fun u hu hoff => ?_
  have husers : (p.destroyUserSessions now id).users = p.users := users_foldl_endSession
  have hu : u ∈ (Store.deleteUser id (p.destroyUserSessions now id).users).rows := hu
  rw [husers] at hu
  exact ⟨u, (Table.mem_delete.mp hu).1, rfl, hoff⟩

theorem setDisabled_false_harmless : Harmless p (p.setDisabled id false) :=
  harmless_edit fun _ _ _ h => absurd h Bool.false_ne_true

theorem disableUser_cases (actorSuper disabled : Bool) :
    Harmless p (disableUser now actorSuper p id disabled).1 ∨
      Tears now p (disableUser now actorSuper p id disabled).1 id := by
  unfold disableUser unlessRefused
  split
  · exact .inl .refl
  split
  · exact .inl .refl
  cases disabled with
  | false => exact .inl setDisabled_false_harmless
  | true => exact .inr (tears_edit _ _)

theorem scim_createUser_harmless (newID : UUID) (body : Option ScimUser) :
    Harmless p (Scim.createUser ci cfg p newID body).1 := by
  unfold Scim.createUser
  split
  · exact .refl
  next scim =>
  dsimp only
  split
  · exact .refl
  split
  · exact .refl
  split
  · exact .refl
  next u p' hcreate =>
  unfold Platform.createUser at hcreate
  split at hcreate
  · cases hcreate
  next users hstore =>
  cases hcreate
  obtain ⟨hins, -, hon⟩ := createUser_eq_some hstore
  split
  · refine harmless_of_kept fun v hv hoff => ?_
    rcases (Table.mem_insert hins).mp hv with hold | rfl
    · exact ⟨v, hold, rfl, hoff⟩
    · rw [hon] at hoff
      cases hoff
  · rintro k ⟨⟨v, hv, rfl, hoff⟩, hkept⟩ r hr huser
    -- the owner of a session was there before, so is not the account that was created
    obtain ⟨w, hw, hwid⟩ := p.owned r hr
    obtain ⟨x, hx, hid, rfl | ⟨hnew, -⟩⟩ :=
      mem_updateRow (UserRow.withDisabled true) (fun _ => rfl) hv
    · rcases (Table.mem_insert hins).mp hx with hold | rfl
      · rw [hkept v hold rfl] at hoff
        cases hoff
      · rw [hon] at hoff
        cases hoff
    · exact Table.key_ne_of_insert hins hw (hwid.trans (huser.trans (hid.trans hnew)))

theorem scim_update_cases {rq : UpdateUserParams} (h : p.updateUser ci id rq = some p') :
    Harmless p (applyDeprovisionSideEffects now p' id rq.isDisabled) ∨
      Tears now p (applyDeprovisionSideEffects now p' id rq.isDisabled) id := by
  rw [updateUser_eq_edit h]
  unfold applyDeprovisionSideEffects
  split
  · exact .inr (tears_edit _ _)
  · next hon => exact .inl (harmless_edit fun _ _ _ hoff => absurd hoff hon)

variable (path : Option UUID)

theorem replaceUser_cases (body : Option ScimUser) :
    Harmless p (replaceUser ci now p path body).1 ∨
    ∃ id, Tears now p (replaceUser ci now p path body).1 id := by
  fun_cases replaceUser ci now p path body with
  | case4 u hlookup scim p' hupdate =>
    exact (scim_update_cases hupdate).imp_right fun h => ⟨u.id, h⟩
  | _ => exact .inl .refl

theorem getUserByID_of_lookup {path : Option UUID} {u : UserRow} (h : Scim.lookup p path = some u) :
    u ∈ p.users.rows := by
  obtain ⟨id, -, hget⟩ := Option.bind_eq_some_iff.mp h
  exact (Table.lookup_eq_some.mp hget).1

theorem patchUser_cases (body : Option (List PatchOp)) :
    Harmless p (patchUser ci now p path body).1 ∨
    ∃ id, Tears now p (patchUser ci now p path body).1 id := by
  fun_cases patchUser ci now p path body with
  | case4 u hlookup ops p' hwritten =>
    obtain ⟨q, hupdate, rfl⟩ := Option.map_eq_some_iff.mp hwritten
    by_cases hchanged : (patched u ops).changedActive
    · rw [if_pos hchanged]
      exact (scim_update_cases hupdate).imp_right fun h => ⟨u.id, h⟩
    · -- no operation has named the flag, so it is written back as it was read
      rw [if_neg hchanged, updateUser_eq_edit hupdate]
      refine .inl (harmless_edit fun v hv hid hoff => ?_)
      rw [Table.eq_of_key hv (getUserByID_of_lookup hlookup) hid]
      rw [← keeps_patched u ops (Bool.eq_false_iff.mpr hchanged)]
      exact hoff
  | _ => exact .inl .refl

theorem scim_deleteUser_cases :
    Harmless p (Scim.deleteUser now p path).1 ∨
    ∃ id, Tears now p (Scim.deleteUser now p path).1 id := by
  unfold Scim.deleteUser
  split
  · exact .inl .refl
  · next u _ => exact .inr ⟨u.id, tears_edit _ _⟩

theorem executeDisableUser_cases (params : Except String UUID) :
    Harmless p (executeDisableUser now p params).1 ∨
    ∃ id, Tears now p (executeDisableUser now p params).1 id := by
  fun_cases executeDisableUser now p params with
  | case5 id u => exact .inr ⟨u.id, tears_edit _ _⟩
  | _ => exact .inl .refl

/-- Every request is harmless, writes an account only, or tears its sessions down. -/
theorem after_cases (ci : String → String) (cfg : ScimConfig) (p : Platform)
    (q : Instant × Request) :
    Harmless p (after ci cfg p q) ∨ (q.2.isUpdate ∧ ∃ id, Writes p (after ci cfg p q) id) ∨
      (q.2.isUpdate = false ∧ ∃ id, Tears q.1 p (after ci cfg p q) id) := by
  obtain ⟨now, q⟩ := q
  have htears : ∀ {p' : Platform}, Harmless p p' ∨ (∃ id, Tears now p p' id) →
      Harmless p p' ∨ (false ∧ ∃ id, Writes p p' id) ∨ (false = false ∧ ∃ id, Tears now p p' id) :=
    fun h => h.imp_right fun h => .inr ⟨rfl, h⟩
  cases q with
  | update actorSuper id body =>
    cases id with
    | none => exact .inl .refl
    | some id => exact (updateUser_cases actorSuper body).imp_right fun h => .inl ⟨rfl, id, h⟩
  | delete actorSuper id =>
    cases id with
    | none => exact .inl .refl
    | some id => exact .inl (deleteUser_harmless actorSuper)
  | disable actorSuper id disabled =>
    cases id with
    | none => exact .inl .refl
    | some id => exact htears ((disableUser_cases actorSuper disabled).imp_right fun h => ⟨id, h⟩)
  | scimCreate newID body => exact .inl (scim_createUser_harmless newID body)
  | scimReplace id body => exact htears (replaceUser_cases id body)
  | scimPatch id body => exact htears (patchUser_cases id body)
  | scimDelete id => exact htears (scim_deleteUser_cases id)
  | assistantDisable params => exact htears (executeDisableUser_cases params)

theorem Writes.gone_iff {sid : UUID} (h : Writes p p' id) : Gone p' sid ↔ Gone p sid := by
  constructor <;> rintro ⟨hrevoked, hkeys, hcerts, hconns⟩ <;> constructor <;>
    simp_all only [h.sessions, h.ids, h.live, not_false_eq_true]

theorem after_deprovisioned_iff (q : Instant × Request) :
    Deprovisioned p (after ci cfg p q) ↔ ¬ LeavesOpen ci cfg p q := by
  rcases after_cases ci cfg p q with h | ⟨hq, id, h⟩ | ⟨hq, id, h⟩
  · constructor
    · rintro - ⟨id, hdis, r, hr, huser, -⟩
      exact h id hdis r hr huser
    · intro _ id hdis r hr huser
      exact absurd huser (h id hdis r hr)
  · constructor
    · rintro hdep ⟨k, hdis, r, hr, huser, hopen, -⟩
      exact hopen (h.gone_iff.mp (hdep k hdis r hr huser).1)
    · intro hnot k hdis r hr huser
      have hgone : Gone p r.id := by
        by_contra hopen
        exact hnot ⟨k, hdis, r, hr, huser, hopen, .inl hq⟩
      refine ⟨h.gone_iff.mpr hgone, ?_⟩
      rw [hgone.conns]
      exact nofun
  · obtain ⟨honly, f, hf, heq⟩ := h
    rw [heq] at honly
    unfold Deprovisioned LeavesOpen
    rw [heq]
    constructor
    · rintro hdep ⟨k, hdis, r, hr, huser, hopen, hcause⟩
      obtain rfl := honly k hdis
      have hreached :=
        (gone_destroyUserSessions_iff (p := p.edit k f hf) hr huser).mp (hdep k hdis r hr huser)
      rcases hcause with hupdate | hrevoked
      · rw [hq] at hupdate
        cases hupdate
      · exact hreached.elim (fun hgone => hopen ⟨hgone.1, hgone.2, hgone.3, hgone.4⟩) fun hlive =>
          hlive hrevoked
    · intro hnot k hdis r hr huser
      obtain rfl := honly k hdis
      refine (gone_destroyUserSessions_iff (p := p.edit k f hf) hr huser).mpr ?_
      by_contra hneither
      rw [not_or, not_not] at hneither
      obtain ⟨hopen, hrevoked⟩ := hneither
      refine hnot ⟨k, hdis, r, hr, huser, ?_, .inr hrevoked⟩
      exact fun hgone => hopen ⟨hgone.1, hgone.2, hgone.3, hgone.4⟩

end

/-- Along any sequence of requests: who becomes disabled is left without sessions,
exactly when no request leaves one open. -/
theorem deprovisioned_iff (ci : String → String) (cfg : ScimConfig) (p : Platform)
    (qs : List (Instant × Request)) :
    Guarded (always (after ci cfg)) (fun p q => Deprovisioned p (after ci cfg p q)) p qs ↔
      Guarded (always (after ci cfg)) (fun p q => ¬ LeavesOpen ci cfg p q) p qs :=
  guarded_congr fun _ q => after_deprovisioned_iff q

/-- User 1 has session 5 with a certificate and a connection to host 7. -/
def oneAtWork : Platform where
  users := .single ⟨.ofNat 1, "ops", none, "", false, false, false, "local", 0, none⟩
  rbac := ⟨.empty, [], [], []⟩
  sessions := .single ⟨.ofNat 5, .ofNat 1, "h", none, "", true, 0, 0, 100, none⟩
  ids :=
    { vault := .single ⟨.ofNat 5, .nil, .ofNat 1, "ops", 1, ["ops"], 100⟩
      db :=
        { certs :=
            .single ⟨1, .user, some (.ofNat 1), some (.ofNat 5), none, none, "k", ["ops"], 0, 100,
              none, ""⟩
          revocations := .empty
          lastSerial := 1 } }
  live := (Registry.new.register (.ofNat 5) (.ofNat 7)).1
  closed := []
  owned := by decide +kernel

/-- `PUT /users/1` with `isDisabled`. -/
def disablingUpdate : Request := .update true (some (.ofNat 1)) (some ⟨"", "", true⟩)

/-- The account is disabled, and its session, its certificate and its connection are
untouched. The same through `disableUser` ends them. -/
theorem updateUser_leaves_session :
    (serve id ⟨"", ""⟩ oneAtWork 10 disablingUpdate).2 = .done 200 "updated" ∧
      Disables oneAtWork (after id ⟨"", ""⟩ oneAtWork (10, disablingUpdate)) (.ofNat 1) ∧
      ¬ Revoked (after id ⟨"", ""⟩ oneAtWork (10, disablingUpdate)).sessions (.ofNat 5) ∧
      HasLiveCert (after id ⟨"", ""⟩ oneAtWork (10, disablingUpdate)).ids.db (.ofNat 5) ∧
      (after id ⟨"", ""⟩ oneAtWork (10, disablingUpdate)).live.conns (.ofNat 5) = [⟨1, .ofNat 7⟩] ∧
      ¬ Guarded (always (after id ⟨"", ""⟩))
        (fun p q => Deprovisioned p (after id ⟨"", ""⟩ p q)) oneAtWork [(10, disablingUpdate)] ∧
      Revoked (after id ⟨"", ""⟩ oneAtWork (10, .disable true (some (.ofNat 1)) true)).sessions
        (.ofNat 5) := by
  refine ⟨by decide +kernel, ?disables, ?live, by decide +kernel, by decide +kernel, fun hdep =>
    ?live (hdep.1 _ ?disables _ List.mem_cons_self rfl).1.revoked, by decide +kernel⟩
  case live => decide +kernel
  · unfold Disables
    decide +kernel

end Moorgate.Admin
