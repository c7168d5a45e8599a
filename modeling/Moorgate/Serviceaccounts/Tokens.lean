import Moorgate.Admin.Guards
import Moorgate.Store.ServiceAccounts

/-!
# Managing service accounts: `serviceaccounts/handlers.go`

`create` and `update` let an actor give an account only roles whose permissions the actor holds.
`createToken` looks at no role at all: an actor who may manage service accounts is handed a secret
of any of them. For the secrets the same check has to pass when the account is read, and its roles
have to stay until the answer.
-/

namespace Moorgate.Serviceaccounts

open Framework Models Store Auth

/-! ## Requests -/

structure CreateReq where
  (username displayName : String)
  (roleIDs groupIDs : List UUID)

/-- `update` never reads the field `displayName`. -/
structure UpdateReq where
  disabled : Option Bool
  (roleIDs groupIDs : Option (List UUID))

structure CreateTokenReq where
  name : String
  expiresInDays : ℤ

/-- An id is `none` when it does not parse, a body when it is no JSON. -/
inductive Req where
  | create (body : Option CreateReq)
  | update (id : Option UUID) (body : Option UpdateReq)
  | createToken (id : Option UUID) (body : Option CreateTokenReq)

inductive Reply where
  | error (status : ℕ) (message : String)
  | account (status : ℕ) (u : UserRow)
  | token (tok : ApiToken) (secret : String)

/-- What `ensureCanGrant` lets go on. -/
inductive Granted where
  | create (rq : CreateReq)
  | update (id : UUID) (roleIDs : List UUID) (rq : UpdateReq)

def Granted.roleIDs : Granted → List UUID
  | .create rq => rq.roleIDs
  | .update _ roleIDs _ => roleIDs

/-- Where a request stands: before `RolePermissions` of a role, before each of the writes,
before the read that answers, before the statements of `createToken`. -/
inductive Pc where
  | checking (roleID : UUID) (rest : List UUID) (next : Granted)
  | creating (rq : CreateReq)
  | assigningRoles (sa : UserRow) (rq : CreateReq)
  | assigningGroups (sa : UserRow) (rq : CreateReq)
  | refreshing (sa : UserRow)
  | settingRoles (id : UUID) (roleIDs : List UUID) (rq : UpdateReq)
  | settingGroups (id : UUID) (groupIDs : List UUID) (rq : UpdateReq)
  | settingDisabled (id : UUID) (disabled : Bool)
  | loading (id : UUID)
  | finding (id : UUID) (body : Option CreateTokenReq)
  | minting (id : UUID) (rq : CreateTokenReq)
  | noting (tok : ApiToken) (secret : String)
  | returned (r : Reply)

structure Call where
  actor : Principal
  pc : Pc

/-- `nameRe`: a letter or digit, then 1 to 62 of letters, digits, dots, underscores and
dashes. -/
def validName (name : String) : Bool :=
  match name.toList with
  | [] => false
  | c :: cs => c.isAlphanum && decide (1 ≤ cs.length ∧ cs.length ≤ 62) &&
      cs.all fun d => d.isAlphanum || d == '.' || d == '_' || d == '-'

def noSuchAccount : Reply := .error 404 "no such service account"

def Granted.start : Granted → Pc
  | .create rq => .creating rq
  | .update id roleIDs rq => .settingRoles id roleIDs rq

/-- The loop of `ensureCanGrant` at the roles that are left. -/
def checkFrom (roleIDs : List UUID) (next : Granted) : Pc :=
  match roleIDs with
  | [] => next.start
  | roleID :: rest => .checking roleID rest next

def ensureCanGrant (actor : Principal) (next : Granted) : Pc :=
  if actor.isSuperAdmin then next.start else checkFrom next.roleIDs next

def afterGroups (id : UUID) (rq : UpdateReq) : Pc :=
  match rq.disabled with
  | some disabled => .settingDisabled id disabled
  | none => .loading id

def afterRoles (id : UUID) (rq : UpdateReq) : Pc :=
  match rq.groupIDs with
  | some groupIDs => .settingGroups id groupIDs rq
  | none => afterGroups id rq

def startPc (actor : Principal) : Req → Pc
  | .create none => .returned (.error 400 "invalid request body")
  | .create (some rq) =>
    let rq := { rq with username := trimSpace rq.username }
    if validName rq.username then ensureCanGrant actor (.create rq)
    else .returned (.error 400 "username must be 2-63 chars: letters, digits, . _ -")
  | .update none _ | .createToken none _ => .returned (.error 400 "invalid id")
  | .update (some _) none => .returned (.error 400 "invalid request body")
  | .update (some id) (some rq) =>
    match rq.roleIDs with
    | some roleIDs => ensureCanGrant actor (.update id roleIDs rq)
    | none => afterRoles id rq
  -- no role is looked at
  | .createToken (some id) body => .finding id body

def startCall (rq : Principal × Req) : Call where
  actor := rq.1
  pc := if rq.1.has "ServiceAccount.Manage" then startPc rq.1 rq.2
    else .returned (.error 403 "missing permission: ServiceAccount.Manage")

/-! ## Statements -/

/-- What a statement takes from outside: whether it succeeds, the time, what
`gen_random_uuid()` yields, and the random part of a secret. -/
structure Input where
  ok : Bool
  now : Instant
  fresh : UUID
  random : Option String

/-- The product is one of `int64` nanoseconds and wraps around. -/
def expiresAt (now : Instant) (days : ℤ) : Option Instant :=
  if 0 < days then some (now + (days * 86400000000000).bmod (2 ^ 64) / 1000) else none

section

variable (ci hash : String → String) (i : Input) (db : ServiceDb) (actor : Principal)

def written (result : Option ServiceDb) (failure : Reply) (next : Pc) : ServiceDb × Pc :=
  match if i.ok then result else none with
  | some db' => (db', next)
  | none => (db, .returned failure)

def attempted (result : Option ServiceDb) : ServiceDb := ((if i.ok then result else none).getD db)

def newToken (id : UUID) (rq : CreateTokenReq) (secret : String) : ApiToken where
  id := i.fresh
  serviceAccountID := id
  name := rq.name
  tokenHash := hash secret
  createdBy := actor.userID
  createdAt := i.now
  expiresAt := expiresAt i.now rq.expiresInDays
  revokedAt := none

def mint (id : UUID) (rq : CreateTokenReq) : ServiceDb × Pc :=
  match i.random with
  | none => (db, .returned (.error 500 "could not generate token"))
  | some r =>
    let tok := newToken hash i actor id rq ("flt_" ++ r)
    written i db (createAPIToken db tok) (.error 500 "could not create token")
      (.noting tok ("flt_" ++ r))

/-- The read of `createToken`, and the checks of the body that follow it. -/
def findAccount (id : UUID) (body : Option CreateTokenReq) : Pc :=
  if i.ok && (getServiceAccount db id).isSome then
    match body with
    | none => .returned (.error 400 "invalid request body")
    | some rq =>
      let rq := { rq with name := trimSpace rq.name }
      if rq.name = "" then .returned (.error 400 "token name is required") else .minting id rq
  else .returned noSuchAccount

def createAccount (rq : CreateReq) : ServiceDb × Pc :=
  match if i.ok then createServiceAccount ci db i.fresh rq.username rq.displayName else none with
  | none => (db, .returned (.error 409 "could not create — the name may already be in use"))
  | some (sa, db') =>
    (db', if rq.roleIDs = [] then .assigningGroups sa rq else .assigningRoles sa rq)

def checkRole (roleID : UUID) (rest : List UUID) (next : Granted) : Pc :=
  if !i.ok then .returned (.error 403 "unknown role")
  else if (rolePermissions db.rbac roleID).all fun perm => actor.has perm then checkFrom rest next
  else .returned (.error 403 "you cannot grant a role that includes permissions you do not hold")

def actPc : Pc → Option (ServiceDb × Pc)
  | .checking roleID rest next => some (db, checkRole i db actor roleID rest next)
  | .creating rq => some (createAccount ci i db rq)
  | .assigningRoles sa rq =>
    some (attempted i db (setServiceAccountRoles db sa.id rq.roleIDs), .assigningGroups sa rq)
  | .assigningGroups sa rq =>
    some (if rq.groupIDs = [] then db else attempted i db
      (setServiceAccountGroups db sa.id rq.groupIDs), .refreshing sa)
  | .refreshing sa =>
    some (db, .returned
      (.account 201 ((if i.ok then getServiceAccount db sa.id else none).getD sa)))
  | .settingRoles id roleIDs rq =>
    some (written i db (setServiceAccountRoles db id roleIDs) noSuchAccount (afterRoles id rq))
  | .settingGroups id groupIDs rq =>
    some (written i db (setServiceAccountGroups db id groupIDs) noSuchAccount (afterGroups id rq))
  | .settingDisabled id disabled =>
    some (written i db (setServiceAccountDisabled db id disabled) noSuchAccount (.loading id))
  | .loading id =>
    some (db, .returned (((if i.ok then getServiceAccount db id else none).map
      (Reply.account 200)).getD noSuchAccount))
  | .finding id body => some (db, findAccount i db id body)
  | .minting id rq => some (mint hash i db actor id rq)
  -- the audit event is between the insert and the answer
  | .noting tok secret => some (db, .returned (.token tok secret))
  | .returned _ => none

end

def act (ci hash : String → String) (i : Input) (db : ServiceDb) (c : Call) :
    Option (ServiceDb × Call) :=
  (actPc ci hash i db c.actor c.pc).map fun next => (next.1, { c with pc := next.2 })

abbrev System := Pool ServiceDb Call

def step (ci hash : String → String) : System → Move (Principal × Req) Input → Option System :=
  poolStep startCall (act ci hash)

/-! ## The two properties -/

/-- A secret that this move returns leads, by its hash, to an account all of whose
permissions the actor holds, unless the actor is a super administrator. -/
def SecretHeld (ci hash : String → String) (s : System) (m : Move (Principal × Req) Input) : Prop :=
  ∀ c i s' p tok secret, m = .advance c i → step ci hash s m = some s' →
    s'.call c = some ⟨p, .returned (.token tok secret)⟩ → p.isSuperAdmin = false →
    ∃ rec, getAPITokenByHash s'.store (hash secret) = some rec ∧
      ∀ perm ∈ userPermissions s'.store.rbac rec.serviceAccountID, p.has perm

/-- `ensureCanGrant` as a question about a list of roles. -/
def CanGrant (p : Principal) (b : Rbac) (roleIDs : List UUID) : Prop :=
  p.isSuperAdmin ∨ ∀ roleID ∈ roleIDs, ∀ perm ∈ rolePermissions b roleID, p.has perm

def rolesOf (b : Rbac) (id : UUID) : List UUID :=
  (b.userRoles.filter fun r => decide (r.userID = id)).map UserRole.roleID

def Pc.asksFor : Pc → Option UUID
  | .finding id _ => some id
  | _ => none

def Pc.mintsFor : Pc → Option UUID
  | .minting id _ => some id
  | .noting tok _ => some tok.serviceAccountID
  | _ => none

def Pc.assigns : Pc → Option UUID
  | .settingRoles id _ _ => some id
  | .assigningRoles sa _ => some sa.id
  | _ => none

/-- A request for a token reads an account whose roles the actor could not grant, or roles are
written to an account between such a read and the answer. -/
def MintsAbove (s : System) : Move (Principal × Req) Input → Prop
  | .begin _ => False
  | .advance c _ => ∃ q ∈ s.call c,
    (∃ id ∈ q.pc.asksFor, ¬ CanGrant q.actor s.store.rbac (rolesOf s.store.rbac id)) ∨
      ∃ id ∈ q.pc.assigns, ∃ r ∈ s.calls, r.pc.mintsFor = some id

instance (p : Principal) (b : Rbac) (roleIDs : List UUID) : Decidable (CanGrant p b roleIDs) := by
  unfold CanGrant
  infer_instance

instance (s : System) : DecidablePred (MintsAbove s)
  | .begin _ => isFalse id
  | .advance c _ => by
    unfold MintsAbove
    infer_instance

/-! ## What a call relies on -/

/-- Before a role is written every role that is not yet to be checked is one the actor may
grant; a token that is to be minted is one of an account that exists, and one that is
minted is in the table. -/
def Fits (hash : String → String) (db : ServiceDb) (p : Principal) : Pc → Prop
  | .checking roleID rest next =>
    CanGrant p db.rbac (next.roleIDs.filter fun r => decide (r ∉ roleID :: rest))
  | .creating rq | .assigningRoles _ rq => CanGrant p db.rbac rq.roleIDs
  | .settingRoles _ roleIDs _ => CanGrant p db.rbac roleIDs
  | .minting id _ => (getServiceAccount db id).isSome
  | .noting tok secret => tok ∈ db.tokens.rows ∧ tok.tokenHash = hash secret ∧
      (getServiceAccount db tok.serviceAccountID).isSome
  | _ => True

/-- No token is made here. -/
def Pc.Plain : Pc → Prop
  | .minting _ _ | .noting _ _ | .returned (.token _ _) => False
  | _ => True

/-- The statements that make a token. -/
inductive TokenStep (hash : String → String) (db : ServiceDb) : Pc → ServiceDb → Pc → Prop
  | found {id : UUID} {body : Option CreateTokenReq} {rq : CreateTokenReq}
      (hacc : (getServiceAccount db id).isSome) :
      TokenStep hash db (.finding id body) db (.minting id rq)
  | minted {db' : ServiceDb} {rq : CreateTokenReq} {tok : ApiToken} {secret : String}
      (hcreate : createAPIToken db tok = some db') (hhash : tok.tokenHash = hash secret) :
      TokenStep hash db (.minting tok.serviceAccountID rq) db' (.noting tok secret)
  | answered {tok : ApiToken} {secret : String} :
      TokenStep hash db (.noting tok secret) db (.returned (.token tok secret))

theorem Pc.Plain.mintsFor_eq_none {pc : Pc} (h : pc.Plain) : pc.mintsFor = none := by
  cases pc <;> first | rfl | exact h.elim

/-- What any other statement may lead to. -/
abbrev Next (hash : String → String) (db : ServiceDb) (p : Principal) (pc : Pc) : Prop :=
  Fits hash db p pc ∧ pc.Plain

section

variable {ci hash : String → String} {i : Input} {db db' : ServiceDb} {p : Principal} {pc pc' : Pc}

variable {touched : Option UUID}

theorem CanGrant.of_keeps {roleIDs : List UUID} (h : CanGrant p db.rbac roleIDs)
    (hk : Keeps touched db db') : CanGrant p db'.rbac roleIDs := by
  refine h.imp_right ?_
  intro hroles roleID hrole perm hperm
  rw [hk.rolePermissions_eq] at hperm
  exact hroles roleID hrole perm hperm

theorem Fits.of_keeps (h : Fits hash db p pc) (hk : Keeps touched db db') : Fits hash db' p pc := by
  cases pc
  case checking => exact CanGrant.of_keeps h hk
  case creating => exact CanGrant.of_keeps h hk
  case assigningRoles => exact CanGrant.of_keeps h hk
  case settingRoles => exact CanGrant.of_keeps h hk
  case minting => exact hk.accounts _ h
  case noting => exact ⟨hk.tokens _ h.1, h.2.1, hk.accounts _ h.2.2⟩
  all_goals trivial

variable {result : Option ServiceDb} {failure : Reply} {next : Pc}

theorem written_cases (h : written i db result failure next = (db', pc')) :
    (result = some db' ∧ pc' = next) ∨ (db' = db ∧ pc' = .returned failure) := by
  unfold written at h
  split at h
  · rename_i db₁ hres
    cases h
    exact .inl ⟨(Option.ite_none_right_eq_some.mp hres).2, rfl⟩
  · cases h
    exact .inr ⟨rfl, rfl⟩

theorem attempted_cases (i : Input) (db : ServiceDb) (result : Option ServiceDb) :
    attempted i db result = db ∨ result = some (attempted i db result) := by
  unfold attempted
  split
  · cases result with
    | none => exact .inl rfl
    | some db' => exact .inr rfl
  · exact .inl rfl

theorem keeps_written (h : written i db result failure next = (db', pc'))
    (hres : ∀ {d}, result = some d → Keeps touched db d) : Keeps touched db db' := by
  rcases written_cases h with ⟨hsome, -⟩ | ⟨rfl, -⟩
  · exact hres hsome
  · exact .refl _

theorem keeps_attempted (hres : ∀ {d}, result = some d → Keeps touched db d) :
    Keeps touched db (attempted i db result) := by
  rcases attempted_cases i db result with hsame | hsome
  · rw [hsame]
    exact .refl _
  · exact hres hsome

variable {next : Granted}

theorem next_start (h : CanGrant p db.rbac next.roleIDs) : Next hash db p next.start := by
  cases next <;> exact ⟨h, trivial⟩

theorem next_checkFrom {rest : List UUID}
    (h : CanGrant p db.rbac (next.roleIDs.filter fun r => decide (r ∉ rest))) :
    Next hash db p (checkFrom rest next) := by
  cases rest with
  | nil =>
    apply next_start
    simpa using h
  | cons roleID rest => exact ⟨h, trivial⟩

theorem next_ensureCanGrant (next : Granted) : Next hash db p (ensureCanGrant p next) := by
  unfold ensureCanGrant
  split
  · next hsuper => exact next_start (.inl hsuper)
  apply next_checkFrom
  right
  intro roleID hrole
  simp at hrole

theorem next_checkRole {roleID : UUID} {rest : List UUID}
    (h : Fits hash db p (.checking roleID rest next)) :
    Next hash db p (checkRole i db p roleID rest next) := by
  unfold checkRole
  split
  · trivial
  split
  · rename_i hall
    apply next_checkFrom
    refine Or.imp_right ?_ h
    intro hrest r hr
    rw [List.mem_filter, decide_eq_true_eq] at hr
    by_cases hself : r = roleID
    · subst hself
      exact List.all_eq_true.mp hall
    · apply hrest r
      rw [List.mem_filter, decide_eq_true_eq, List.mem_cons, not_or]
      exact ⟨hr.1, hself, hr.2⟩
  · trivial

variable (id : UUID)

theorem next_afterGroups (rq : UpdateReq) : Next hash db p (afterGroups id rq) := by
  unfold afterGroups
  split <;> trivial

theorem next_afterRoles (rq : UpdateReq) : Next hash db p (afterRoles id rq) := by
  unfold afterRoles
  split
  · trivial
  · exact next_afterGroups id rq

theorem next_startCall (rq : Principal × Req) : Next hash db rq.1 (startCall rq).pc := by
  unfold startCall
  split
  · unfold startPc
    split
    case h_2 =>
      dsimp only
      split
      · exact next_ensureCanGrant _
      · trivial
    case h_6 =>
      split
      · exact next_ensureCanGrant _
      · exact next_afterRoles _ _
    all_goals trivial
  · trivial

theorem createAccount_cases {rq : CreateReq} (h : createAccount ci i db rq = (db', pc')) :
    (∃ sa, createServiceAccount ci db i.fresh rq.username rq.displayName = some (sa, db') ∧
      pc' = if rq.roleIDs = [] then .assigningGroups sa rq else .assigningRoles sa rq) ∨
    (db' = db ∧
      pc' = .returned (.error 409 "could not create — the name may already be in use")) := by
  unfold createAccount at h
  split at h
  · cases h
    exact .inr ⟨rfl, rfl⟩
  · rename_i sa db₁ hcreate
    cases h
    exact .inl ⟨sa, (Option.ite_none_right_eq_some.mp hcreate).2, rfl⟩

theorem mint_cases {id : UUID} {rq : CreateTokenReq} (h : mint hash i db p id rq = (db', pc')) :
    (∃ tok secret, createAPIToken db tok = some db' ∧ pc' = .noting tok secret ∧
      tok.tokenHash = hash secret ∧
      tok.serviceAccountID = id) ∨
      (db' = db ∧ ∃ status message, pc' = .returned (.error status message)) := by
  unfold mint at h
  split at h
  · cases h
    exact .inr ⟨rfl, _, _, rfl⟩
  · rcases written_cases h with ⟨hsome, rfl⟩ | ⟨rfl, rfl⟩
    · exact .inl ⟨_, _, hsome, rfl, rfl, rfl⟩
    · exact .inr ⟨rfl, _, _, rfl⟩

/-- All that a statement can do to what the calls rely on. -/
theorem keeps_actPc (h : actPc ci hash i db p pc = some (db', pc')) : Keeps pc.assigns db db' := by
  cases pc <;> simp only [actPc, Option.some.injEq, Prod.mk.injEq, reduceCtorEq] at h
  case creating rq =>
    rcases createAccount_cases h with ⟨sa, hcreate, -⟩ | ⟨rfl, -⟩
    · exact keeps_createServiceAccount hcreate
    · exact .refl _
  case assigningRoles =>
    rw [← h.1]
    exact keeps_attempted keeps_setServiceAccountRoles
  case assigningGroups =>
    rw [← h.1]
    split
    · exact .refl _
    · exact keeps_attempted keeps_setServiceAccountGroups
  case settingRoles => exact keeps_written h keeps_setServiceAccountRoles
  case settingGroups => exact keeps_written h keeps_setServiceAccountGroups
  case settingDisabled => exact keeps_written h keeps_setServiceAccountDisabled
  case minting =>
    rcases mint_cases h with ⟨tok, secret, hcreate, -⟩ | ⟨rfl, -⟩
    · exact (createAPIToken_eq_some hcreate).1
    · exact .refl _
  all_goals
    rw [← h.1]
    exact .refl _

theorem findAccount_cases (body : Option CreateTokenReq) :
    Next hash db p (findAccount i db id body) ∨
      TokenStep hash db (.finding id body) db (findAccount i db id body) := by
  unfold findAccount
  split
  · rename_i hfound
    split
    · left; trivial
    dsimp only
    split
    · left; trivial
    · exact .inr (.found (Bool.and_eq_true _ _ ▸ hfound).2)
  · left; trivial

theorem next_written {next : Pc} {status : ℕ} {message : String}
    (h : written i db result (.error status message) next = (db', pc'))
    (hnext : ∀ d, Next hash d p next) : Next hash db' p pc' := by
  rcases written_cases h with ⟨-, rfl⟩ | ⟨-, rfl⟩
  · exact hnext db'
  · trivial

/-- A token is made by the statements of `createToken` only. -/
theorem next_actPc (hfit : Fits hash db p pc) (h : actPc ci hash i db p pc = some (db', pc')) :
    Next hash db' p pc' ∨ TokenStep hash db pc db' pc' := by
  have hkeep := keeps_actPc h
  cases pc <;> simp only [actPc, Option.some.injEq, Prod.mk.injEq, reduceCtorEq] at h
  case noting tok secret =>
    rw [← h.1, ← h.2]
    exact .inr .answered
  case finding id body =>
    rw [← h.1, ← h.2]
    exact findAccount_cases id body
  case minting id rq =>
    rcases mint_cases h with ⟨tok, secret, hcreate, rfl, hhash, rfl⟩ | ⟨-, status, message, rfl⟩
    · exact .inr (.minted hcreate hhash)
    · left; trivial
  all_goals left
  case checking =>
    rw [← h.2]
    exact (next_checkRole hfit).imp_left (·.of_keeps hkeep)
  case creating rq =>
    rcases createAccount_cases h with ⟨sa, -, rfl⟩ | ⟨-, rfl⟩
    · split
      · trivial
      · exact ⟨CanGrant.of_keeps hfit hkeep, trivial⟩
    · trivial
  case settingRoles => exact next_written h fun _ => next_afterRoles _ _
  case settingGroups => exact next_written h fun _ => next_afterGroups _ _
  case settingDisabled => exact next_written h fun _ => ⟨trivial, trivial⟩
  case loading id =>
    rw [← h.2]
    generalize (if i.ok then getServiceAccount db id else none) = found
    cases found <;> trivial
  all_goals
    rw [← h.2]
    trivial

theorem TokenStep.fits (h : TokenStep hash db pc db' pc') (hfit : Fits hash db p pc) :
    Fits hash db' p pc' := by
  cases h with
  | found hacc => exact hacc
  | minted hcreate hhash =>
    have hkeep : Keeps none db db' ∧ _ := createAPIToken_eq_some hcreate
    obtain ⟨hkeep, htok⟩ := hkeep
    exact ⟨htok, hhash, hkeep.accounts _ hfit⟩
  | answered => trivial

theorem mintsFor_actPc {id : UUID} (hfit : Fits hash db p pc)
    (h : actPc ci hash i db p pc = some (db', pc')) (hid : pc'.mintsFor = some id) :
    (pc.asksFor = some id ∨ pc.mintsFor = some id) ∧ pc.assigns = none := by
  rcases next_actPc hfit h with ⟨-, hplain⟩ | hstep
  · cases hplain.mintsFor_eq_none.symm.trans hid
  · cases hstep with
    | found => exact ⟨.inl hid, rfl⟩
    | minted => exact ⟨.inr hid, rfl⟩
    | answered => cases hid

end

/-! ## Every run -/

section

variable {ci hash : String → String} {s s' : System} {m : Move (Principal × Req) Input}

/-- The calls fit, and whoever makes a token of an account could grant its roles. -/
structure Covered (hash : String → String) (s : System) : Prop where
  fits : ∀ q ∈ s.calls, Fits hash s.store q.actor q.pc
  grants : ∀ q ∈ s.calls, ∀ id, q.pc.mintsFor = some id →
    CanGrant q.actor s.store.rbac (rolesOf s.store.rbac id)

variable {i : Input} {db db' : ServiceDb}

theorem act_eq_some {q q' : Call} (h : act ci hash i db q = some (db', q')) :
    q'.actor = q.actor ∧ actPc ci hash i db q.actor q.pc = some (db', q'.pc) := by
  obtain ⟨⟨db₁, pc₁⟩, hact, ⟨⟩⟩ := Option.map_eq_some_iff.mp h
  exact ⟨rfl, hact⟩

theorem mem_rolesOf {b : Rbac} {id roleID : UUID} :
    roleID ∈ rolesOf b id ↔ ⟨id, roleID⟩ ∈ b.userRoles := by
  unfold rolesOf
  rw [List.mem_map]
  constructor
  · rintro ⟨r, hr, rfl⟩
    rw [List.mem_filter, decide_eq_true_eq] at hr
    obtain ⟨hmem, rfl⟩ := hr
    exact hmem
  · intro hmem
    exact ⟨_, List.mem_filter.mpr ⟨hmem, decide_eq_true rfl⟩, rfl⟩

/-- Roles that are written to another account do not matter. -/
theorem canGrant_rolesOf_of_keeps {p : Principal} {id : UUID} {touched : Option UUID}
    (h : CanGrant p db.rbac (rolesOf db.rbac id)) (hk : Keeps touched db db')
    (hother : touched ≠ some id) : CanGrant p db'.rbac (rolesOf db'.rbac id) := by
  refine (h.of_keeps hk).imp_right fun hroles roleID hrole => hroles roleID ?_
  exact mem_rolesOf.mpr (hk.roles _ (mem_rolesOf.mp hrole) hother)

theorem covered_step (hc : Covered hash s) (hgood : ¬ MintsAbove s m)
    (h : step ci hash s m = some s') : Covered hash s' := by
  rcases poolStep_cases h with ⟨rq, rfl, rfl⟩ | ⟨c, i, q, db, q', rfl, hq, hact, rfl⟩
  · have hnext : Next hash s.store _ _ := next_startCall rq
    obtain ⟨hfit, hplain⟩ := hnext
    refine ⟨Pool.forall_enter hc.fits hfit, Pool.forall_enter hc.grants fun id hid => ?_⟩
    cases hplain.mintsFor_eq_none.symm.trans hid
  obtain ⟨hactor, hpc⟩ := act_eq_some hact
  have hkeep := keeps_actPc hpc
  have hfit := hc.fits q (Pool.mem_of_call hq)
  refine ⟨Pool.forall_put (fun r hr => (hc.fits r hr).of_keeps hkeep) ?_, Pool.forall_put ?_ ?_⟩
  · rw [hactor]
    rcases next_actPc hfit hpc with hnext | hstep
    · exact hnext.1
    · exact hstep.fits hfit
  · intro r hr id hid
    refine canGrant_rolesOf_of_keeps (hc.grants r hr id hid) hkeep fun hassigns => ?_
    exact hgood ⟨q, hq, .inr ⟨id, hassigns, r, hr, hid⟩⟩
  · intro id hid
    rw [hactor]
    obtain ⟨hasked, hquiet⟩ := mintsFor_actPc hfit hpc hid
    refine canGrant_rolesOf_of_keeps ?_ hkeep (by rw [hquiet]; exact nofun)
    rcases hasked with hasks | hmints
    · by_contra hgrant
      exact hgood ⟨q, hq, .inl ⟨id, hasks, hgrant⟩⟩
    · exact hc.grants q (Pool.mem_of_call hq) id hmints

theorem forall_rolesOf {b : Rbac} {id : UUID} {P : String → Prop}
    (h : ∀ roleID ∈ rolesOf b id, ∀ perm ∈ rolePermissions b roleID, P perm) :
    ∀ perm ∈ userPermissions b id, P perm := by
  intro perm hperm
  obtain ⟨roleID, hrole, hin⟩ := mem_userPermissions.mp hperm
  exact h roleID (mem_rolesOf.mpr hrole) perm (mem_rolePermissions.mpr hin)

variable {p : Principal}

variable {tok : ApiToken} {secret : String}

/-- The secret of a token that is in the table leads to its account. -/
theorem held_of_canGrant (hfit : Fits hash db p (.noting tok secret))
    (hsuper : p.isSuperAdmin = false)
    (hgrant : CanGrant p db.rbac (rolesOf db.rbac tok.serviceAccountID)) :
    ∃ rec, getAPITokenByHash db (hash secret) = some rec ∧
      ∀ perm ∈ userPermissions db.rbac rec.serviceAccountID, p.has perm := by
  obtain ⟨htok, hhash, hacc⟩ := hfit
  have hfound := account_of_getAPITokenByHash htok hacc
  rw [hhash] at hfound
  obtain ⟨rec, hrec, hid⟩ := Option.map_eq_some_iff.mp hfound
  rcases hgrant with htrue | hroles
  · cases hsuper.symm.trans htrue
  · rw [← hid] at hroles
    exact ⟨rec, hrec, forall_rolesOf hroles⟩

theorem secretHeld_of_covered (hc : Covered hash s) : SecretHeld ci hash s m := by
  intro c i s' p tok secret hm hstep hcall hsuper
  rcases poolStep_cases hstep with ⟨rq, rfl, -⟩ | ⟨c', i', q, db, q', rfl, hq, hact, rfl⟩
  · cases hm
  cases hm
  rw [Pool.call_put_self hq, Option.some.injEq] at hcall
  subst hcall
  obtain ⟨rfl, hpc⟩ := act_eq_some hact
  have hmem := Pool.mem_of_call hq
  obtain ⟨actor, pc⟩ := q
  rcases next_actPc (hc.fits _ hmem) hpc with ⟨-, hplain⟩ | hstep
  · exact hplain.elim
  · cases hstep
    exact held_of_canGrant (hc.fits _ hmem) hsuper (hc.grants _ hmem _ rfl)

end

/-- Where a token is only asked for an account whose roles the actor could grant, and nobody
writes its roles until the answer, the actor holds every permission that a secret returned to
them stands for. -/
theorem secrets_held (ci hash : String → String) (db : ServiceDb)
    (ms : List (Move (Principal × Req) Input))
    (h : Guarded (step ci hash) (fun s m => ¬ MintsAbove s m) ⟨db, []⟩ ms) :
    Guarded (step ci hash) (SecretHeld ci hash) ⟨db, []⟩ ms :=
  guarded_of_invariant covered_step (fun hc _ => secretHeld_of_covered hc)
    ⟨fun _ hq => absurd hq List.not_mem_nil, fun _ hq => absurd hq List.not_mem_nil⟩ h

/-- An actor whose only permission is to manage service accounts. -/
def manager : Principal :=
  ⟨.ofNat 1, .ofNat 11, "manager", false, ["ServiceAccount.Manage"], false, .ofNat 1⟩

/-- The manager, and a service account whose role has every permission. -/
def deployDb : ServiceDb where
  users := ⟨[⟨.ofNat 1, "manager", none, "", false, false, false, "local", 0, none⟩,
    ⟨.ofNat 2, "deploy", none, "", false, false, false, "local", 0, none⟩], by decide +kernel⟩
  isServiceAccount id := decide (id = .ofNat 2)
  tenantID _ := none
  rbac := ⟨⟨[⟨.ofNat 5, "Administrator", "", true⟩], by decide +kernel⟩, ["Admin.All"],
    [⟨.ofNat 5, "Admin.All"⟩], [⟨.ofNat 2, .ofNat 5⟩]⟩
  groups := []
  userGroups := []
  tokens := .empty
  hashes := List.nodup_nil

def atNoon : Input := ⟨true, 43200 * second, .ofNat 9, some "AAAA"⟩

def minting : List (Move (Principal × Req) Input) :=
  [.begin (manager, .createToken (some (.ofNat 2)) (some ⟨"ci", 0⟩)), .advance 0 atNoon,
    .advance 0 atNoon]

def Call.handed (c : Call) : Option (Principal × String) :=
  match c.pc with
  | .returned (.token _ secret) => some (c.actor, secret)
  | _ => none

/-- The secret of an account with `Admin.All` is returned to an actor who lacks it. -/
theorem administrator_token_minted :
    manager.isSuperAdmin = false ∧ manager.has "ServiceAccount.Manage" ∧
      ¬ Guarded (step id id)
        (SecretHeld id id) ⟨deployDb, []⟩ (minting ++ [.advance 0 atNoon]) := by
  refine ⟨rfl, by decide +kernel, ?_⟩
  intro hg
  have hrun : (exec (step id id) ⟨deployDb, []⟩ minting).bind (fun s : System =>
      (step id id s (.advance 0 atNoon)).map fun s' : System => ((s'.call 0).bind Call.handed,
        decide (∃ rec ∈ getAPITokenByHash s'.store "flt_AAAA",
          ∀ perm ∈ userPermissions s'.store.rbac rec.serviceAccountID, manager.has perm))) =
      some (some (manager, "flt_AAAA"), false) := by
    decide +kernel
  obtain ⟨s, hs, hlast⟩ := Option.bind_eq_some_iff.mp hrun
  obtain ⟨s', hs', hview⟩ := Option.map_eq_some_iff.mp hlast
  rw [Prod.mk.injEq, decide_eq_false_iff_not] at hview
  obtain ⟨⟨p, pc⟩, hcall, hhanded⟩ := Option.bind_eq_some_iff.mp hview.1
  unfold Call.handed at hhanded
  split at hhanded
  · rename_i tok secret hpc
    cases hpc
    cases hhanded
    exact hview.2 (hg.last hs 0 atNoon s' _ tok _ rfl hs' hcall rfl)
  · cases hhanded

def administrator : Principal := { manager with permissions := ["Admin.All"] }

/-- A token of the account, whose roles are written before it is read. -/
def administering : List (Move (Principal × Req) Input) :=
  [.begin (administrator, .createToken (some (.ofNat 2)) (some ⟨"ci", 0⟩)),
    .begin (administrator, .update (some (.ofNat 2)) (some ⟨none, some [.ofNat 5], none⟩)),
    .advance 1 atNoon, .advance 1 atNoon, .advance 0 atNoon, .advance 0 atNoon, .advance 1 atNoon,
    .advance 0 atNoon]

/-- An actor who holds what the account may do is handed its secret. -/
theorem secrets_held_administrator :
    (exec (step id id) ⟨deployDb, []⟩ administering).bind (fun s => (s.call 0).bind Call.handed) =
      some (administrator, "flt_AAAA") ∧
    Guarded (step id id) (SecretHeld id id) ⟨deployDb, []⟩ administering :=
  ⟨by decide +kernel, secrets_held id id deployDb administering (by decide +kernel)⟩

end Moorgate.Serviceaccounts
