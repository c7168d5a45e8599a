import Moorgate.Admin.Guards
import Moorgate.Secretbox.Envelope
import Moorgate.Store.Checkouts
import Moorgate.Store.Vault

/-!
# Opening vaulted credentials: `credresolve`, `credinject`, `vault/handlers.go`, the brokers

A credential whose access policy is not `open` shall be opened only for a user who has it checked
out. `credresolve.Open` does not look at the policy. The functions of `credinject` decide on what
they have read; `reveal` reads twice and decides on the first read, whose error it drops; the
brokers do not decide at all. A function here also returns which credential it has opened, whatever
comes of it.
-/

namespace Moorgate.Credinject

open Framework Models Auth Store Secretbox

/-! ## The store -/

/-- The tables of the vault. The columns that `VaultSecret` does not have are by id, and
so is the highest grant of a user. -/
structure VaultStore where
  tables : VaultTables
  (accessPolicy externalRef : UUID → String)
  checkouts : VaultCheckouts
  userSecretAccess : UUID → UUID → String

/-- What `GetVaultSecret` returns. -/
structure SecretMeta where
  secret : VaultSecret
  (accessPolicy externalRef : String)

def VaultStore.getVaultSecret (t : VaultStore) (id : UUID) : Option SecretMeta :=
  (t.tables.secrets.lookup id).map fun s => ⟨s, t.accessPolicy id, t.externalRef id⟩

/-- Which reads fail. `access` is what was read of the grants before an error; `policy` is
the first `GetVaultSecret` of `reveal`; `target` is the database or the cluster. -/
structure ReadFaults where
  access : Option String
  (policy secret checkout sealed target : Bool)

namespace ReadFaults

variable (f : ReadFaults) (t : VaultStore)

def readSecret (id : UUID) : Option SecretMeta := if f.secret then none else t.getVaultSecret id

def readPolicy (id : UUID) : Option SecretMeta := if f.policy then none else t.getVaultSecret id

/-- `active, _ := HasActiveCheckout(…)`. -/
def readCheckout (now : Instant) (id userID : UUID) : Bool :=
  !f.checkout && hasActiveCheckout now id userID t.checkouts

end ReadFaults

/-! ## `credresolve.Open` -/

/-- The configuration and what is outside: `newProvider` is `extsecret.New`, whose provider answers
for a reference, `errorText` what the database or the box says of an error. -/
structure OpenEnv where
  crypto : Crypto
  base64 : Base64
  vaultKey : Except String (List UInt8)
  configured : Bool
  newProvider : String → Except String (String → Except String (List UInt8))
  parsePrivateKey : List UInt8 → Bool
  errorText : Option BoxError → String

/-- `key, _ := VaultKey()`. -/
def OpenEnv.anyKey (env : OpenEnv) : List UInt8 := env.vaultKey.toOption.getD []

section

variable (env : OpenEnv) (f : ReadFaults) (t : VaultStore)

def openSecret (key : List UInt8) (s : SecretMeta) : Except String (List UInt8) :=
  if s.secret.externalProvider ≠ "" then
    if env.configured then
      match env.newProvider s.secret.externalProvider with
      | .error e => .error e
      | .ok fetch =>
        match fetch s.externalRef with
        | .error e => .error ("fetch external secret: " ++ e)
        | .ok v => .ok v
    else .error "credential is external-backed but no external secrets manager is configured"
  else
    match if f.sealed then none else getVaultSecretSealed s.secret.id t.tables with
    | none => .error (env.errorText none)
    | some sealed =>
      match secretboxOpen env.crypto env.base64 key sealed with
      | .error e => .error (env.errorText (some e))
      | .ok v => .ok v

end

/-- What a function has opened, and what it returns. -/
structure Attempt (ε α : Type) where
  opened : Option UUID
  result : Except ε α

namespace Attempt

variable {ε α β : Type}

def refuse (e : ε) : Attempt ε α := ⟨none, .error e⟩

def andThen (a : Attempt ε α) (g : α → Except ε β) : Attempt ε β :=
  ⟨a.opened, match a.result with
    | .error e => .error e
    | .ok v => g v⟩

end Attempt

/-! ## `credinject` -/

structure HostAuth where
  authMethod : String
  credentialID : Option UUID
  sshUser : String

inductive SshAuth where
  | password (p : List UInt8)
  | publicKeys (pem : List UInt8)
deriving DecidableEq

structure Injection where
  auth : SshAuth
  loginUser : String
  secretID : UUID
deriving DecidableEq

structure SystemMaterial where
  (loginUser method : String)
  (password privateKeyPEM : List UInt8)
  secretID : UUID
deriving DecidableEq

section

variable (env : OpenEnv) (f : ReadFaults) (t : VaultStore) (key : List UInt8)

/-- What all functions of the package do with a credential: read it, decide, open it. -/
def openAttached (id : UUID) (refusal : SecretMeta → Option String) :
    Attempt String (SecretMeta × List UInt8) :=
  match f.readSecret t id with
  | none => .refuse "the attached credential no longer exists"
  | some s =>
    match refusal s with
    | some e => .refuse e
    | none =>
      match openSecret env f t key s with
      | .error _ => .refuse "could not resolve the attached credential"
      | .ok v => ⟨some id, .ok (s, v)⟩

def needsCheckout (now : Instant) (userID : UUID) (id : UUID) (s : SecretMeta) : Option String :=
  if s.accessPolicy ≠ "open" && !f.readCheckout t now id userID then
    some "check out this credential before connecting to the host"
  else none

/-- Nobody is there who could have. -/
def openOnly (message : String) (s : SecretMeta) : Option String :=
  if s.accessPolicy ≠ "open" then some message else none

def vaulted (host : HostAuth) : Except String (Option UUID) :=
  if host.authMethod = "" ∨ host.authMethod = "fleet_cert" then .ok none
  else if host.authMethod = "vault_password" ∨ host.authMethod = "vault_ssh_key" then
    match host.credentialID with
    | none => .error "host is set to use a vault credential but none is attached"
    | some id => .ok (some id)
  else .error ("unknown host auth method \"" ++ host.authMethod ++ "\"")

def loginUser (host : HostAuth) (s : SecretMeta) : String :=
  if s.secret.username = "" then host.sshUser else s.secret.username

def injection (host : HostAuth) (id : UUID) (r : SecretMeta × List UInt8) :
    Except String (Option Injection) :=
  if host.authMethod = "vault_password" then .ok (some ⟨.password r.2, loginUser host r.1, id⟩)
  else if env.parsePrivateKey r.2 then .ok (some ⟨.publicKeys r.2, loginUser host r.1, id⟩)
  else .error "the attached credential is not a valid SSH private key"

def material (host : HostAuth) (id : UUID) (r : SecretMeta × List UInt8) :
    Except String (Option SystemMaterial) :=
  if host.authMethod = "vault_password" then
    .ok (some ⟨loginUser host r.1, host.authMethod, r.2, [], id⟩)
  else if env.parsePrivateKey r.2 then .ok (some ⟨loginUser host r.1, host.authMethod, [], r.2, id⟩)
  else .error "the attached credential is not a valid SSH private key"

def withVaulted {α : Type} (host : HostAuth) (k : UUID → Attempt String (Option α)) :
    Attempt String (Option α) :=
  match vaulted host with
  | .error e => .refuse e
  | .ok none => ⟨none, .ok none⟩
  | .ok (some id) => k id

/-- `For`. -/
def forUser (now : Instant) (host : HostAuth) (userID : UUID) : Attempt String (Option Injection) :=
  withVaulted host fun id =>
    (openAttached env f t key id (needsCheckout f t now userID id)).andThen (injection env host id)

def forSystem (host : HostAuth) : Attempt String (Option Injection) :=
  withVaulted host fun id =>
    (openAttached env f t key id
      (openOnly "credential requires check-out; unattended probe skipped")).andThen
      (injection env host id)

def materialForSystem (host : HostAuth) : Attempt String (Option SystemMaterial) :=
  withVaulted host fun id =>
    (openAttached env f t key id
      (openOnly "credential requires check-out; unattended run skipped")).andThen
      (material env host id)

def usernamePassword (r : SecretMeta × List UInt8) : Except String (String × List UInt8) :=
  .ok (r.1.secret.username, r.2)

def passwordForSystem (host : HostAuth) : Attempt String (String × List UInt8) :=
  match host.credentialID with
  | none => .refuse "no credential is attached to this host"
  | some id =>
    (openAttached env f t key id
      (openOnly "credential requires check-out; fact collection skipped")).andThen usernamePassword

def passwordFor (now : Instant) (host : HostAuth) (userID : UUID) :
    Attempt String (String × List UInt8) :=
  match host.credentialID with
  | none => .refuse "no credential is attached to this host"
  | some id =>
    (openAttached env f t key id (needsCheckout f t now userID id)).andThen usernamePassword

end

/-! ## `reveal` -/

section

variable (env : OpenEnv) (f : ReadFaults) (t : VaultStore)

def effectiveAccess (p : Principal) (secretID : UUID) : String :=
  if p.has "Credential.Manage" then "manage"
  else
    match f.access with
    | some read => read
    | none => t.userSecretAccess p.userID secretID

/-- The key is needed for what is sealed here. -/
def revealKey (s : SecretMeta) : Except String (List UInt8) :=
  if s.secret.externalProvider = "" then env.vaultKey else .ok []

def reveal (now : Instant) (p : Principal) (id : UUID) : Attempt (ℕ × String) (List UInt8) :=
  if effectiveAccess f t p id = "" then .refuse (404, "credential not found")
  else if !p.has "Credential.Manage" && !p.has "Credential.View" then
    .refuse (403, "you do not have permission to reveal credentials")
  -- a policy that could not be read is taken for open
  else if (f.readPolicy t id).any (fun pol => pol.accessPolicy ≠ "open") &&
    !f.readCheckout t now id p.userID then
    .refuse (403, "check out this credential before revealing it")
  else
    match f.readSecret t id with
    | none => .refuse (404, "credential not found")
    | some s =>
      match revealKey env s with
      | .error e => .refuse (503, e)
      | .ok key =>
        match openSecret env f t key s with
        | .error e => .refuse (502, "could not resolve credential: " ++ e)
        | .ok v => ⟨some id, .ok v⟩

end

/-! ## The brokers -/

section

variable (env : OpenEnv) (f : ReadFaults) (t : VaultStore)

/-- `credential` of `dbbroker`. An error of `VaultKey` is dropped. -/
def credential (credID : UUID) : Attempt String (String × List UInt8) :=
  match f.readSecret t credID with
  | none => .refuse "credential not found"
  | some s =>
    if s.secret.type ≠ .password then .refuse "attached credential is not a password"
    else
      match openSecret env f t env.anyKey s with
      | .error _ => .refuse "could not resolve credential"
      | .ok pw => ⟨some credID, .ok (s.secret.username, pw)⟩

/-- `credentialToken` of `k8sbroker`, before the blanks around the token are cut. -/
def credentialToken (credID : UUID) : Attempt String (List UInt8) :=
  match f.readSecret t credID with
  | none => .refuse "could not resolve credential"
  | some s =>
    match openSecret env f t env.anyKey s with
    | .error _ => .refuse "could not resolve credential"
    | .ok v => ⟨some credID, .ok v⟩

end

/-! ## Requests and jobs -/

/-- What opens a credential: `reveal`; the terminal and SFTP; RDP; a PowerShell run, with a
user or scheduled; the probe and the fact collection of the monitor (and the scan of a
Windows host, which does the same); a playbook run; a query; a request to a cluster. -/
inductive OpenRequest where
  | reveal (p : Principal) (id : UUID)
  | ssh (p : Principal) (host : HostAuth)
  | rdp (p : Principal) (host : HostAuth)
  | winrm (userID : Option UUID) (host : HostAuth)
  | probe (host : HostAuth)
  | facts (host : HostAuth)
  | playbook (host : HostAuth)
  | dbQuery (p : Principal) (credentialID : Option UUID)
  | k8sProxy (p : Principal) (credentialID : Option UUID)

/-- Whom it is opened for; `none` for a job that nobody attends. -/
def OpenRequest.user : OpenRequest → Option UUID
  | .reveal p _ | .ssh p _ | .rdp p _ | .dbQuery p _ | .k8sProxy p _ => some p.userID
  | .winrm userID _ => userID
  | .probe _ | .facts _ | .playbook _ => none

section

variable (env : OpenEnv) (f : ReadFaults) (t : VaultStore) (now : Instant)

/-- The callers of `credinject` stop without the key. -/
def withKey (opened : List UInt8 → Option UUID) : Option UUID :=
  match env.vaultKey with
  | .error _ => none
  | .ok key => opened key

def openedBy : OpenRequest → Option UUID
  | .reveal p id => (reveal env f t now p id).opened
  | .ssh p host => withKey env fun key => (forUser env f t key now host p.userID).opened
  | .rdp p host => withKey env fun key => (passwordFor env f t key now host p.userID).opened
  | .winrm none host => withKey env fun key => (passwordForSystem env f t key host).opened
  | .winrm (some userID) host =>
    withKey env fun key => (passwordFor env f t key now host userID).opened
  | .probe host => withKey env fun key => (forSystem env f t key host).opened
  | .facts host => withKey env fun key => (passwordForSystem env f t key host).opened
  | .playbook host => withKey env fun key => (materialForSystem env f t key host).opened
  | .dbQuery _ credentialID =>
    if f.target then none else credentialID.bind fun id => (credential env f t id).opened
  | .k8sProxy _ credentialID =>
    if f.target then none else credentialID.bind fun id => (credentialToken env f t id).opened

end

/-! ## Who holds what is opened -/

section

variable (env : OpenEnv) (f : ReadFaults) (t : VaultStore) (now : Instant) (q : OpenRequest)

/-- Somebody has the credential checked out and it is opened for them. -/
def HeldByUser (id : UUID) : Prop :=
  ∃ userID, q.user = some userID ∧ hasActiveCheckout now id userID t.checkouts

/-- What is opened has an open policy or is checked out. -/
def OpensHeld : Prop :=
  ∀ id, openedBy env f t now q = some id → t.accessPolicy id ≠ "open" → HeldByUser t now q id

/-- The request does not look at the policy, or has not been able to. -/
def OpenRequest.unguarded : OpenRequest → Bool
  | .reveal _ _ => f.policy
  | .dbQuery _ _ | .k8sProxy _ _ => true
  | _ => false

def Unchecked (id userID : UUID) : Prop :=
  t.accessPolicy id ≠ "open" ∧ hasActiveCheckout now id userID t.checkouts = false

/-- A query or a request to a cluster reaches its target, and the attached credential, which has to
be checked out and is not, can be read and opened (for a query: is a password); or the first read
of a `reveal` fails, the user has a grant and the permission, and the same. -/
def OpensUnchecked : OpenRequest → Prop
  | .reveal p id => f.policy ∧ effectiveAccess f t p id ≠ "" ∧
      (p.has "Credential.Manage" ∨ p.has "Credential.View") ∧
      (∃ s ∈ f.readSecret t id, ∃ key v,
        revealKey env s = .ok key ∧ openSecret env f t key s = .ok v) ∧
      Unchecked t now id p.userID
  | .dbQuery p (some id) => f.target = false ∧
      (∃ s ∈ f.readSecret t id, s.secret.type = .password ∧
        ∃ v, openSecret env f t env.anyKey s = .ok v) ∧
      Unchecked t now id p.userID
  | .k8sProxy p (some id) => f.target = false ∧
      (∃ s ∈ f.readSecret t id, ∃ v, openSecret env f t env.anyKey s = .ok v) ∧
      Unchecked t now id p.userID
  | _ => False

end

section

variable {env : OpenEnv} {f : ReadFaults} {t : VaultStore} {now : Instant} {key : List UInt8}
  {id k : UUID}

theorem getVaultSecret_policy {s : SecretMeta} (h : t.getVaultSecret id = some s) :
    s.accessPolicy = t.accessPolicy id := by
  obtain ⟨row, -, rfl⟩ := Option.map_eq_some_iff.mp h
  rfl

theorem readSecret_policy {s : SecretMeta} (h : f.readSecret t id = some s) :
    s.accessPolicy = t.accessPolicy id := by
  unfold ReadFaults.readSecret at h
  split at h
  · cases h
  · exact getVaultSecret_policy h

theorem openAttached_opened {refusal : SecretMeta → Option String}
    (h : (openAttached env f t key id refusal).opened = some k) :
    k = id ∧ ∃ s, s.accessPolicy = t.accessPolicy id ∧ refusal s = none := by
  revert h
  fun_cases openAttached env f t key id refusal with
  | case4 s hread hrefusal =>
    rintro ⟨⟩
    exact ⟨rfl, s, readSecret_policy hread, hrefusal⟩
  | _ => rintro ⟨⟩

theorem withVaulted_opened {α : Type} {host : HostAuth} {g : UUID → Attempt String (Option α)}
    (h : (withVaulted host g).opened = some k) : ∃ id, (g id).opened = some k := by
  unfold withVaulted at h
  split at h
  · cases h
  · cases h
  · next id _ => exact ⟨id, h⟩

theorem withKey_opened {g : List UInt8 → Option UUID} (h : withKey env g = some k) :
    ∃ key, g key = some k := by
  unfold withKey at h
  split at h
  · cases h
  · next key _ => exact ⟨key, h⟩

theorem held_of_needsCheckout {userID : UUID}
    (h : (openAttached env f t key id (needsCheckout f t now userID id)).opened = some k)
    (hgated : t.accessPolicy k ≠ "open") : hasActiveCheckout now k userID t.checkouts := by
  obtain ⟨rfl, s, hpolicy, hrefusal⟩ := openAttached_opened h
  rw [← hpolicy] at hgated
  unfold needsCheckout at hrefusal
  split at hrefusal
  · cases hrefusal
  rename_i hpassed
  rw [decide_eq_true hgated, Bool.true_and, Bool.not_eq_true, Bool.not_eq_false'] at hpassed
  exact (Bool.and_eq_true_iff.mp hpassed).2

theorem policy_of_openOnly {message : String}
    (h : (openAttached env f t key id (openOnly message)).opened = some k) :
    t.accessPolicy k = "open" := by
  obtain ⟨rfl, s, hpolicy, hrefusal⟩ := openAttached_opened h
  unfold openOnly at hrefusal
  split at hrefusal
  · cases hrefusal
  · next hopen => rw [← hpolicy, of_not_not hopen]

theorem passwordFor_held {host : HostAuth} {userID : UUID}
    (h : (passwordFor env f t key now host userID).opened = some k)
    (hgated : t.accessPolicy k ≠ "open") : hasActiveCheckout now k userID t.checkouts := by
  unfold passwordFor at h
  split at h
  · cases h
  · exact held_of_needsCheckout h hgated

theorem passwordForSystem_policy {host : HostAuth}
    (h : (passwordForSystem env f t key host).opened = some k) : t.accessPolicy k = "open" := by
  unfold passwordForSystem at h
  split at h
  · cases h
  · exact policy_of_openOnly h

/-- When the first read of `reveal` succeeds, it decides like `credinject`. -/
theorem reveal_held {p : Principal} (hread : f.policy = false)
    (h : (reveal env f t now p id).opened = some k) (hgated : t.accessPolicy k ≠ "open") :
    hasActiveCheckout now k p.userID t.checkouts := by
  revert h
  fun_cases reveal env f t now p id with
  | case7 _ _ hpassed s hsecret =>
    rintro ⟨⟩
    -- what the second read finds the first has found
    have hfound : t.getVaultSecret id = some s := by
      exact (Option.ite_none_left_eq_some.mp hsecret).2
    have hpolicy : f.readPolicy t id = some s := by
      unfold ReadFaults.readPolicy
      rw [hread]
      exact hfound
    have hseen : s.accessPolicy ≠ "open" := by rwa [getVaultSecret_policy hfound]
    rw [hpolicy, Option.any_some, decide_eq_true hseen, Bool.true_and, Bool.not_eq_true,
      Bool.not_eq_false'] at hpassed
    exact (Bool.and_eq_true_iff.mp hpassed).2
  | _ => rintro ⟨⟩

theorem opensHeld_of_guarded {q : OpenRequest} (hguarded : q.unguarded f = false) :
    OpensHeld env f t now q := by
  intro k h hgated
  cases q with
  | reveal p id => exact ⟨p.userID, rfl, reveal_held hguarded h hgated⟩
  | ssh p host =>
    obtain ⟨key, h⟩ := withKey_opened h
    obtain ⟨id, h⟩ := withVaulted_opened h
    exact ⟨p.userID, rfl, held_of_needsCheckout h hgated⟩
  | rdp p host =>
    obtain ⟨key, h⟩ := withKey_opened h
    exact ⟨p.userID, rfl, passwordFor_held h hgated⟩
  | winrm userID host =>
    cases userID with
    | none =>
      obtain ⟨key, h⟩ := withKey_opened h
      exact absurd (passwordForSystem_policy h) hgated
    | some userID =>
      obtain ⟨key, h⟩ := withKey_opened h
      exact ⟨userID, rfl, passwordFor_held h hgated⟩
  | probe host | playbook host =>
    obtain ⟨key, h⟩ := withKey_opened h
    obtain ⟨id, h⟩ := withVaulted_opened h
    exact absurd (policy_of_openOnly h) hgated
  | facts host =>
    obtain ⟨key, h⟩ := withKey_opened h
    exact absurd (passwordForSystem_policy h) hgated
  | dbQuery p credentialID | k8sProxy p credentialID => cases hguarded

theorem opensHeld_iff_of_opened {q : OpenRequest} {userID : UUID} {P : Prop}
    (hopened : ∀ k, openedBy env f t now q = some k ↔ k = id ∧ P) (huser : q.user = some userID) :
    OpensHeld env f t now q ↔ ¬ (P ∧ Unchecked t now id userID) := by
  constructor
  · rintro hheld ⟨hp, hgated, hnone⟩
    obtain ⟨holder, hholder, hactive⟩ := hheld id ((hopened id).mpr ⟨rfl, hp⟩) hgated
    cases huser.symm.trans hholder
    exact Bool.eq_false_iff.mp hnone hactive
  · intro hnot k hk hgated
    obtain ⟨rfl, hp⟩ := (hopened k).mp hk
    refine ⟨userID, huser, ?_⟩
    by_contra hnone
    exact hnot ⟨hp, hgated, Bool.eq_false_iff.mpr hnone⟩

theorem credential_opened : (credential env f t id).opened = some k ↔ k = id ∧
    ∃ s ∈ f.readSecret t id, s.secret.type = .password ∧
      ∃ v, openSecret env f t env.anyKey s = .ok v := by
  unfold credential
  cases f.readSecret t id with
  | none => simp [Attempt.refuse]
  | some s =>
    by_cases htype : s.secret.type = .password
    · cases hopen : openSecret env f t env.anyKey s <;>
        simp [Attempt.refuse, htype, hopen, @eq_comm _ id]
    · simp [Attempt.refuse, htype]

theorem credentialToken_opened : (credentialToken env f t id).opened = some k ↔ k = id ∧
    ∃ s ∈ f.readSecret t id, ∃ v, openSecret env f t env.anyKey s = .ok v := by
  unfold credentialToken
  cases f.readSecret t id with
  | none => simp [Attempt.refuse]
  | some s =>
    cases hopen : openSecret env f t env.anyKey s <;>
      simp [Attempt.refuse, hopen, @eq_comm _ id]

theorem reveal_opened {p : Principal} (hread : f.policy) :
    (reveal env f t now p id).opened = some k ↔
    k = id ∧ effectiveAccess f t p id ≠ "" ∧ (p.has "Credential.Manage" ∨ p.has "Credential.View") ∧
      ∃ s ∈ f.readSecret t id, ∃ key v,
        revealKey env s = .ok key ∧ openSecret env f t key s = .ok v := by
  have hpolicy : f.readPolicy t id = none := by rw [ReadFaults.readPolicy, if_pos hread]
  unfold reveal
  rw [hpolicy]
  by_cases haccess : effectiveAccess f t p id = ""
  · simp [Attempt.refuse, haccess]
  by_cases hperm : p.has "Credential.Manage" ∨ p.has "Credential.View"
  · have hpasses : (!p.has "Credential.Manage" && !p.has "Credential.View") = false := by
      simpa [or_iff_not_imp_left] using hperm
    cases f.readSecret t id with
    | none => simp [Attempt.refuse, haccess, hpasses]
    | some s =>
      cases hkey : revealKey env s with
      | error e => simp [Attempt.refuse, haccess, hpasses, hkey]
      | ok key =>
        cases hopen : openSecret env f t key s <;>
          simp [Attempt.refuse, haccess, hpasses, hperm, hkey, hopen, @eq_comm _ id]
  · rw [not_or, Bool.not_eq_true, Bool.not_eq_true] at hperm
    simp [Attempt.refuse, haccess, hperm]

end

/-- A gated credential is opened only for a user who has it checked out, except by a
broker or by a `reveal` that could not read the policy. -/
theorem opensHeld_iff (env : OpenEnv) (f : ReadFaults) (t : VaultStore) (now : Instant)
    (q : OpenRequest) : OpensHeld env f t now q ↔ ¬ OpensUnchecked env f t now q := by
  cases q with
  | reveal p id =>
    cases hread : f.policy with
    | false =>
      refine iff_of_true (opensHeld_of_guarded hread) fun h => ?_
      cases hread.symm.trans h.1
    | true =>
      refine (opensHeld_iff_of_opened (q := .reveal p id) (fun k => reveal_opened hread) rfl).trans
        (not_congr ?_)
      simp only [OpensUnchecked, hread, true_and, and_assoc]
  | dbQuery p credentialID | k8sProxy p credentialID =>
    cases credentialID with
    | none => exact iff_of_true (fun k hk => by simp [openedBy] at hk) id
    | some id =>
      refine (opensHeld_iff_of_opened (fun k => ?_) rfl).trans (not_congr and_assoc)
      cases htarget : f.target
      · simp [openedBy, htarget, credential_opened, credentialToken_opened]
      · simp [openedBy, htarget]
  | _ => exact iff_of_true (opensHeld_of_guarded rfl) id

/-- Credential 3 is kept in an external manager and has to be checked out. -/
def gatedVault : VaultStore where
  tables := ⟨.single ⟨.ofNat 3, .password, "app", "vault-kv", 1⟩, .empty⟩
  accessPolicy _ := "checkout"
  externalRef _ := "secret/db#password"
  checkouts := .empty
  userSecretAccess _ _ := "view"

def externalEnv : OpenEnv where
  crypto := freeCrypto
  base64 := letterBase64
  vaultKey := .ok []
  configured := true
  newProvider _ := .ok fun _ => .ok [112, 119]
  parsePrivateKey _ := false
  errorText _ := ""

def viewer : Principal := ⟨.ofNat 1, .ofNat 5, "viewer", false, ["Credential.View"], false, .nil⟩

def noReadFaults : ReadFaults := ⟨none, false, false, false, false, false⟩

/-- Nobody has the credential checked out. A query and a request to a cluster open it, and
so does `reveal` when its first read fails; otherwise `reveal` refuses. -/
theorem opens_without_checkout :
    (credential externalEnv noReadFaults gatedVault (.ofNat 3)).result.toOption = some ("app",
      [112, 119]) ∧
      openedBy externalEnv noReadFaults gatedVault 0 (.dbQuery viewer (some (.ofNat 3))) =
        some (.ofNat 3) ∧
      openedBy externalEnv noReadFaults gatedVault 0 (.k8sProxy viewer (some (.ofNat 3))) =
        some (.ofNat 3) ∧
      (reveal externalEnv { noReadFaults with policy := true } gatedVault 0 viewer
        (.ofNat 3)).result.toOption = some [112, 119] ∧
      (reveal externalEnv noReadFaults gatedVault 0 viewer (.ofNat 3)).result.toOption = none ∧
      ¬ OpensHeld externalEnv noReadFaults gatedVault 0 (.dbQuery viewer (some (.ofNat 3))) ∧
      ¬ OpensHeld externalEnv { noReadFaults with policy := true } gatedVault 0
        (.reveal viewer (.ofNat 3)) := by
  have hnone : ∀ userID, hasActiveCheckout 0 (.ofNat 3) userID gatedVault.checkouts = false :=
    fun _ => rfl
  refine ⟨by decide +kernel, by decide +kernel, by decide +kernel, by decide +kernel,
    by decide +kernel, ?_, ?_⟩
  all_goals
    intro hheld
    obtain ⟨userID, -, hactive⟩ := hheld (.ofNat 3) (by decide +kernel) (by decide)
    rw [hnone] at hactive
    cases hactive

end Moorgate.Credinject
