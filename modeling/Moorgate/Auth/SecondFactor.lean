import Moorgate.Auth.SessionLimit
import Moorgate.Auth.Totp
import Moorgate.Store.Mfa

/-!
# The login endpoints and the second factor: `auth/handlers.go`

A user with a confirmed factor gets a challenge and presents it to `mfaVerify` with a code. A user
without one, for whom a factor is mandatory, gets a setup token, stores a factor with
`mfaSetupBegin` and confirms it with `mfaSetupConfirm`. Neither token is used up. What the `users`
table and the settings hold is taken from outside at each statement.

A session needs the second factor in the runs that meet `FactorSeen`: `login` learns of a confirmed
factor, `mfaSetupConfirm` arrives only while there is none, and `mfaVerify` reads secrets that were
confirmed when it arrived.
-/

namespace Moorgate.Auth

open Framework Models Store

/-! ## Accounts, tokens and recovery codes -/

/-- What the login endpoints read of a row of `users`. -/
structure Account where
  user : User
  authSource : String
  lockedUntil : Option Instant
  requireMFA : Bool

def Account.locked (now : Instant) (a : Account) : Bool :=
  a.lockedUntil.any fun t => decide (now < t)

def errInvalidCredentials : String := "invalid username or password"
def errAccountLocked : String := "account is locked"

/-- `row` and `hash` are what `GetUserByUsername` and `GetPasswordHash` return. -/
def authenticate (verifyPassword : String → String → Bool) (now : Instant) (row : Option Account)
    (hash : Option String) (password : String) : Except String Account :=
  match row with
  | none => .error errInvalidCredentials
  | some a =>
    if a.user.isDisabled then .error errInvalidCredentials
    else if a.authSource ≠ "" ∧ a.authSource ≠ "local" then .error errInvalidCredentials
    else if a.locked now then .error errAccountLocked
    else
      match hash with
      | none => .error errInvalidCredentials
      | some stored =>
        if verifyPassword password stored then .ok a else .error errInvalidCredentials

inductive Purpose where
  | mfa | mfaSetup
deriving DecidableEq

structure MfaClaims where
  userID : UUID
  purpose : Purpose
  (issuedAt expiresAt : Instant)
deriving DecidableEq

/-- A time in a token is in whole seconds. -/
def numericDate (t : Instant) : Instant := t / second * second

def issueMFAToken (purpose : Purpose) (ttl : Duration) (now : Instant) (userID : UUID) :
    MfaClaims :=
  ⟨userID, purpose, numericDate now, numericDate (now + ttl)⟩

def issueMFAChallenge : Instant → UUID → MfaClaims := issueMFAToken .mfa (5 * minute)
def issueMFASetupToken : Instant → UUID → MfaClaims := issueMFAToken .mfaSetup (10 * minute)

/-- The signature is good on the tokens that were issued and on no others. -/
def parseMFAToken (purpose : Purpose) (now : Instant) (issued : List MfaClaims)
    (token : MfaClaims) : Option UUID :=
  if token ∈ issued ∧ now < token.expiresAt ∧ token.purpose = purpose then some token.userID
    else none

def parseMFAChallenge : Instant → List MfaClaims → MfaClaims → Option UUID := parseMFAToken .mfa
def parseMFASetupToken : Instant → List MfaClaims → MfaClaims → Option UUID :=
  parseMFAToken .mfaSetup

/-- `unicode.ToUpper` as far as its result can be an ASCII letter: two letters
beyond ASCII have one as their capital. -/
def toUpper (c : Char) : Char := if c = 'ı' then 'I' else if c = 'ſ' then 'S' else c.toUpper

def normalizeRecoveryCode (s : String) : String :=
  String.ofList ((s.toList.map toUpper).filter fun c =>
    ('A' ≤ c && c ≤ 'Z') || ('0' ≤ c && c ≤ '9'))

/-! ## The endpoints statement by statement -/

inductive MfaRequest where
  | login (username password : String)
  | mfaVerify (challenge : MfaClaims) (code : String)
  | mfaSetupBegin (setupToken : MfaClaims)
  | mfaSetupConfirm (setupToken : MfaClaims) (code : String)

def MfaRequest.code : MfaRequest → String
  | .mfaVerify _ code | .mfaSetupConfirm _ code => code
  | _ => ""

structure LoginEnv where
  h : Hashing
  cfg : Config
  net : Net
  pol : Policies
  totp : Totp
  verifyPassword : String → String → Bool

/-- What a statement takes from outside. `account`, `passwordHash`, `ldap` and
`requireMFA` are what the account queries, the directory and the setting
answer; `secret` is a new secret, encrypted. -/
structure MfaInput where
  now : Instant
  fails : Bool
  account : Option Account
  passwordHash : Option String
  ldap : Option Account
  requireMFA : Bool
  secret : Option (List UInt8)
  newID : UUID
  token : Option String
  csrf : String
  castInet : String → Option String

def MfaInput.limit (i : MfaInput) : LimitInput :=
  ⟨⟨i.now, i.token, i.csrf⟩, i.newID, i.castInet, !i.fails⟩

def MfaInput.getUserByID (i : MfaInput) (userID : UUID) : Option Account :=
  if i.fails then none
  else i.account.bind fun a =>
    if a.user.isDisabled then none else some { a with user := { a.user with id := userID } }

/-- What a request has shown besides the password when it comes to
`completeLogin`. -/
inductive Evidence where
  | passwordOnly
  | totp (v : Validated)
  | recovery (used : List RecoveryCode)
  | enrolled (id : UUID)

inductive MfaAnswer where
  | error (status : ℕ) (message : String)
  | challenge (token : MfaClaims)
  | setupToken (token : MfaClaims)
  | secret

inductive MfaPc where
  | arrived
  | authenticating (username password : String) -- `Authenticate`
  | checkingFactor (a : Account) -- `HasConfirmedMFA`
  | checkingRequired (a : Account) -- `MFARequiredFor`
  | loadingUser (userID : UUID) -- `GetUserByID` of `mfaVerify`
  | readingSecrets (u : User) -- `ConfirmedTOTPSecrets`
  | verifying (u : User) (secrets : List (List UInt8)) (pc : TotpPc) -- `VerifyUserTOTPNoReplay`
  | recovering (u : User) -- `ConsumeRecoveryCode`
  | beginningSetup (userID : UUID) -- `GetUserByID` of `mfaSetupBegin`
  | storingPending (userID : UUID) -- `CreateTOTPPending`
  | readingPending (userID : UUID) -- `PendingTOTPSecret`
  | confirming (userID id : UUID) -- `ConfirmMFA`
  | reloadingUser (userID id : UUID) -- `GetUserByID` of `mfaSetupConfirm`
  | completing (pc : LimitPc) (ev : Evidence) -- `CreateSession`
  | answered (r : MfaAnswer)

/-- `began` is the table of factors that the request met when it arrived; no
statement reads it. -/
structure MfaCall where
  request : MfaRequest
  (ip ua : String)
  began : MfaMethods
  pc : MfaPc

structure MfaStore where
  clock : Instant
  methods : MfaMethods
  recovery : RecoveryCodes
  lastStep : UUID → ℤ
  tokens : List MfaClaims
  sessions : Sessions

def MfaPc.error (status : ℕ) (message : String) : MfaPc := .answered (.error status message)

def received (now : Instant) (issued : List MfaClaims) : MfaRequest → MfaPc
  | .login username password => .authenticating username password
  | .mfaVerify challenge _ =>
    match parseMFAChallenge now issued challenge with
    | none => .error 401 "mfa challenge expired; sign in again"
    | some userID => .loadingUser userID
  | .mfaSetupBegin setupToken =>
    match parseMFASetupToken now issued setupToken with
    | none => .error 401 "enrollment session expired; sign in again"
    | some userID => .beginningSetup userID
  | .mfaSetupConfirm setupToken _ =>
    match parseMFASetupToken now issued setupToken with
    | none => .error 401 "enrollment session expired; sign in again"
    | some userID => .readingPending userID

def completeLogin (call : MfaCall) (u : User) (ev : Evidence) : MfaPc :=
  .completing (.enforcing ⟨u, call.ip, call.ua, true⟩) ev

/-- A statement of `CreateSession`; one that fails is no count and no session. -/
def createSessionStmt (E : LoginEnv) (i : MfaInput) (t : Sessions) (pc : LimitPc) :
    Option (Sessions × LimitPc) :=
  match pc, i.fails with
  | .creating _, true => some (t, .returned (.session (.error .store)))
  | pc, _ => limitStmt E.h E.cfg E.net E.pol i.limit t pc

/-- `VerifyUserTOTPNoReplay` goes on, accepts, or leaves it to a recovery code. -/
def verified (call : MfaCall) (u : User) (secrets : List (List UInt8)) : TotpPc → MfaPc
  | .returned (some v) => completeLogin call u (.totp v)
  | .returned none => .recovering u
  | pc => .verifying u secrets pc

def mfaPcStmt (E : LoginEnv) (i : MfaInput) (b : MfaStore) (call : MfaCall) :
    MfaPc → Option (MfaStore × MfaPc)
  | .arrived => some (b, received i.now b.tokens call.request)
  | .authenticating _ password =>
    let row := if i.fails then none else i.account
    match authenticate E.verifyPassword i.now row i.passwordHash password with
    | .ok a => some (b, .checkingFactor a)
    | .error err =>
      -- LDAP, when a directory is configured
      match i.ldap with
      | some a => some (b, .checkingFactor a)
      | none => some (b, .error 401 err)
  | .checkingFactor a =>
    -- the error is ignored, and then the answer is false
    if i.fails = false ∧ hasConfirmedMFA a.user.id b.methods = true then
      let challenge := issueMFAChallenge i.now a.user.id
      some ({ b with tokens := challenge :: b.tokens }, .answered (.challenge challenge))
    else some (b, .checkingRequired a)
  | .checkingRequired a =>
    if a.requireMFA ∨ (i.fails = false ∧ i.requireMFA) then
      let setup := issueMFASetupToken i.now a.user.id
      some ({ b with tokens := setup :: b.tokens }, .answered (.setupToken setup))
    else some (b, completeLogin call a.user .passwordOnly)
  | .loadingUser userID =>
    match i.getUserByID userID with
    | none => some (b, .error 401 "account unavailable")
    | some a =>
      if a.locked i.now then some (b, .error 401 "account is locked")
      else some (b, .readingSecrets a.user)
  | .readingSecrets u =>
    if i.fails then some (b, .recovering u)
    else
      let secrets := confirmedTOTPSecrets u.id b.methods
      some (b, .verifying u secrets (.checking secrets))
  | .verifying u secrets pc =>
    (totpStmt E.totp ⟨i.now, i.fails⟩ ⟨u.id, secrets, call.request.code⟩ b.lastStep pc).map
      fun next => ({ b with lastStep := next.1 }, verified call u secrets next.2)
  | .recovering u =>
    let norm := normalizeRecoveryCode call.request.code
    if norm = "" ∨ i.fails then some (b, .error 401 "invalid verification code")
    else
      match consumeRecoveryCode i.now u.id (hashToken E.h norm) b.recovery with
      | ([], _) => some (b, .error 401 "invalid verification code")
      | (r :: used, t) =>
        some ({ b with recovery := t }, completeLogin call u (.recovery (r :: used)))
  | .beginningSetup userID =>
    match i.getUserByID userID with
    | none => some (b, .error 401 "account unavailable")
    | some _ => some (b, .storingPending userID)
  | .storingPending userID =>
    match i.secret with
    | none => some (b, .error 500 "could not protect secret")
    | some enc =>
      match if i.fails then none
        else createTOTPPending i.now i.newID userID "Authenticator app" enc b.methods with
      | none => some (b, .error 500 "could not store method")
      | some t => some ({ b with methods := t }, .answered .secret)
  | .readingPending userID =>
    match if i.fails then none else pendingTOTPSecret userID b.methods with
    | none => some (b, .error 400 "no pending enrollment; start again")
    | some (enc, id) =>
      match E.totp.decryptSecret enc with
      | none => some (b, .error 400 "invalid verification code")
      | some secret =>
        if validateTOTP E.totp i.now secret call.request.code then some (b, .confirming userID id)
        else some (b, .error 400 "invalid verification code")
  | .confirming userID id =>
    if i.fails then some (b, .error 500 "could not confirm")
    else some ({ b with methods := confirmMFA userID id b.methods }, .reloadingUser userID id)
  | .reloadingUser userID id =>
    match i.getUserByID userID with
    | none => some (b, .error 401 "account unavailable")
    | some a => some (b, completeLogin call a.user (.enrolled id))
  | .completing pc ev =>
    (createSessionStmt E i b.sessions pc).map fun next =>
      ({ b with sessions := next.1 }, .completing next.2 ev)
  | .answered _ => none

/-- The history variable is set when the request arrives. -/
def MfaCall.meets (call : MfaCall) (t : MfaMethods) : MfaCall :=
  match call.pc with
  | .arrived => { call with began := t }
  | _ => call

/-- Time does not go back. -/
def mfaAct (E : LoginEnv) (i : MfaInput) (b : MfaStore) (call : MfaCall) :
    Option (MfaStore × MfaCall) :=
  if b.clock ≤ i.now then
    (mfaPcStmt E i b call call.pc).map fun next =>
      ({ next.1 with clock := i.now }, { call.meets b.methods with pc := next.2 })
  else none

structure MfaArrival where
  request : MfaRequest
  (ip ua : String)

def mfaStart (a : MfaArrival) : MfaCall := ⟨a.request, a.ip, a.ua, .empty, .arrived⟩

abbrev MfaPool := Pool MfaStore MfaCall
abbrev MfaMove := Move MfaArrival MfaInput

def mfaStep (E : LoginEnv) : MfaPool → MfaMove → Option MfaPool := poolStep mfaStart (mfaAct E)

/-! ## What a session rests on -/

def MfaCall.session (call : MfaCall) : Option Session :=
  match call.pc with
  | .completing (.returned (.session (.ok sess))) _ => some sess
  | _ => none

def MfaCall.evidence (call : MfaCall) : Option Evidence :=
  match call.pc with
  | .completing _ ev => some ev
  | _ => none

/-- The code of the request is one of a factor that the user had confirmed when
the request arrived. -/
def FactorVerified (E : LoginEnv) (began : MfaMethods) (userID : UUID) (code : String)
    (v : Validated) : Prop :=
  ∃ m ∈ began.rows, m.userId = userID ∧ m.kind = .totp ∧ m.confirmed ∧
    E.totp.decryptSecret m.secret = some v.secret ∧ ∃ k, v.isCodeOf E.totp code k

/-- The request found codes of the user unused that are the code it presented,
and they are used now. -/
def RecoveryConsumed (E : LoginEnv) (t : RecoveryCodes) (userID : UUID) (code : String)
    (used : List RecoveryCode) : Prop :=
  used ≠ [] ∧ ∀ r ∈ used, r.userId = userID ∧
    r.codeHash = hashToken E.h (normalizeRecoveryCode code) ∧ r.usedAt = none ∧
    ∃ time, { r with usedAt := some time } ∈ t.rows

/-- The request has verified a code of a confirmed factor or consumed a recovery
code. -/
def MfaCall.showsFactor (E : LoginEnv) (t : RecoveryCodes) (call : MfaCall)
    (userID : UUID) : Prop :=
  (∃ v, call.evidence = some (.totp v) ∧ FactorVerified E call.began userID call.request.code v) ∨
  (∃ used, call.evidence = some (.recovery used) ∧
    RecoveryConsumed E t userID call.request.code used)

section

variable (E : LoginEnv)

/-- What the evidence is worth for the user. -/
def Evidence.covers (t : RecoveryCodes) (began : MfaMethods) (userID : UUID) (code : String) :
    Evidence → Prop
  | .passwordOnly | .enrolled _ => hasConfirmedMFA userID began = false
  | .totp v => FactorVerified E began userID code v
  | .recovery used => RecoveryConsumed E t userID code used

def MfaCall.sound (t : RecoveryCodes) (call : MfaCall) : Prop :=
  match call.pc with
  | .checkingRequired a => hasConfirmedMFA a.user.id call.began = false
  | .readingPending userID | .confirming userID _ | .reloadingUser userID _ =>
    hasConfirmedMFA userID call.began = false
  | .verifying u secrets pc => (∀ sec ∈ secrets, sec ∈ confirmedTOTPSecrets u.id call.began) ∧
      pc.vouched E.totp ⟨u.id, secrets, call.request.code⟩
  | .completing pc ev => ∀ userID ∈ pc.forUser, ev.covers E t call.began userID call.request.code
  | _ => True

/-- The statement sees the factors that its request met. -/
def MfaCall.factorSeen (i : MfaInput) (b : MfaStore) (call : MfaCall) : Prop :=
  match call.pc, call.request with
  | .arrived, .mfaSetupConfirm token _ =>
    ∀ userID ∈ parseMFASetupToken i.now b.tokens token, hasConfirmedMFA userID b.methods = false
  | .checkingFactor a, _ => i.fails = false ∨ hasConfirmedMFA a.user.id call.began = false
  | .readingSecrets u, _ => ∀ sec ∈ confirmedTOTPSecrets u.id b.methods,
      sec ∈ confirmedTOTPSecrets u.id call.began
  | _, _ => True

instance (i : MfaInput) (b : MfaStore) (call : MfaCall) : Decidable (call.factorSeen i b) := by
  obtain ⟨q, _, _, began, pc⟩ := call
  unfold MfaCall.factorSeen
  cases pc with
  | readingSecrets u =>
    exact decidable_of_iff ((confirmedTOTPSecrets u.id b.methods).all
      (confirmedTOTPSecrets u.id began).contains) (by simp)
  | _ => cases q <;> infer_instance

def FactorSeen (s : MfaPool) : MfaMove → Prop
  | .begin _ => True
  | .advance c i => ∀ call ∈ s.call c, call.factorSeen i s.store

instance (s : MfaPool) (m : MfaMove) : Decidable (FactorSeen s m) := by
  unfold FactorSeen
  split <;> infer_instance

/-- What no statement undoes: a confirmed factor, and the use of a code. -/
structure Later (b b' : MfaStore) : Prop where
  confirmed : ∀ u, hasConfirmedMFA u b.methods → hasConfirmedMFA u b'.methods
  used : ∀ r ∈ b.recovery.rows, r.usedAt.isSome → r ∈ b'.recovery.rows

structure FactorHeld (s : MfaPool) : Prop where
  kept : ∀ call ∈ s.calls, ∀ u, hasConfirmedMFA u call.began → hasConfirmedMFA u s.store.methods
  sound : ∀ call ∈ s.calls, call.sound E s.store.recovery

variable {E}

theorem Later.refl (b : MfaStore) : Later b b := ⟨fun _ h => h, fun _ h _ => h⟩

variable {userID : UUID}

theorem RecoveryConsumed.mono {t t' : RecoveryCodes} {code : String} {used : List RecoveryCode}
    (hkeep : ∀ r ∈ t.rows, r.usedAt.isSome → r ∈ t'.rows)
    (h : RecoveryConsumed E t userID code used) : RecoveryConsumed E t' userID code used := by
  refine ⟨h.1, fun r hr => ?_⟩
  obtain ⟨huser, hhash, hnone, time, hrow⟩ := h.2 r hr
  exact ⟨huser, hhash, hnone, time, hkeep _ hrow rfl⟩

variable {b b' : MfaStore} {call : MfaCall}

theorem MfaCall.sound.mono (h : call.sound E b.recovery) (hlater : Later b b') :
    call.sound E b'.recovery := by
  obtain ⟨q, ip, ua, began, pc⟩ := call
  cases pc with
  | completing pc ev =>
    intro userID hu
    have hev := h userID hu
    cases ev with
    | recovery used => exact hev.mono hlater.used
    | passwordOnly | totp v | enrolled id => exact hev
  | _ => exact h

variable {i : MfaInput}

theorem MfaInput.id_of_getUserByID {a : Account} (h : i.getUserByID userID = some a) :
    a.user.id = userID := by
  unfold MfaInput.getUserByID at h
  split at h
  · cases h
  obtain ⟨row, -, hrow⟩ := Option.bind_eq_some_iff.mp h
  split at hrow
  · cases hrow
  · cases hrow
    rfl

theorem createSessionStmt_forUser {t t' : Sessions} {pc pc' : LimitPc}
    (hstmt : createSessionStmt E i t pc = some (t', pc')) (hu : userID ∈ pc'.forUser) :
    userID ∈ pc.forUser := by
  unfold createSessionStmt at hstmt
  split at hstmt
  · cases hstmt
    cases hu
  · exact limitStmt_forUser hstmt hu

/-- A code that `VerifyUserTOTPNoReplay` accepts is one of a factor that the
request met. -/
theorem factorVerified_of_vouched {began : MfaMethods} {secrets : List (List UInt8)} {code : String}
    {v : Validated} (hsecrets : ∀ sec ∈ secrets, sec ∈ confirmedTOTPSecrets userID began)
    (hv : v.vouched E.totp ⟨userID, secrets, code⟩) : FactorVerified E began userID code v := by
  obtain ⟨⟨enc, henc, hdec⟩, hcode⟩ := hv
  obtain ⟨m, hm, huser, hkind, hconf, rfl⟩ := mem_confirmedTOTPSecrets.mp (hsecrets enc henc)
  exact ⟨m, hm, huser, hkind, hconf, hdec, hcode⟩

section

variable {i : MfaInput} {b b' : MfaStore} {q : MfaRequest} {ip ua : String} {began : MfaMethods}
  {pc' : MfaPc}

theorem completeLogin_sound {t : RecoveryCodes} {call : MfaCall} {u : User} {ev : Evidence}
    (hev : ev.covers E t began u.id q.code) :
    MfaCall.sound E t ⟨q, ip, ua, began, completeLogin call u ev⟩ := by
  intro userID hu
  obtain rfl : u.id = userID := Option.some.inj hu
  exact hev

theorem arrived_sound (hseen : MfaCall.factorSeen i b ⟨q, ip, ua, began, .arrived⟩) :
    MfaCall.sound E b.recovery ⟨q, ip, ua, b.methods, received i.now b.tokens q⟩ := by
  cases q with
  | login username password => exact trivial
  | mfaVerify challenge code =>
    simp only [received]
    cases parseMFAChallenge i.now b.tokens challenge <;> exact trivial
  | mfaSetupBegin setupToken =>
    simp only [received]
    cases parseMFASetupToken i.now b.tokens setupToken <;> exact trivial
  | mfaSetupConfirm setupToken code =>
    simp only [received]
    cases hparse : parseMFASetupToken i.now b.tokens setupToken with
    | none => exact trivial
    | some userID => exact hseen userID hparse

theorem verifying_sound {u : User} {secrets : List (List UInt8)} {pc : TotpPc}
    (hsound : MfaCall.sound E b.recovery ⟨q, ip, ua, began, .verifying u secrets pc⟩)
    (hstmt : mfaPcStmt E i b ⟨q, ip, ua, began, .verifying u secrets pc⟩ (.verifying u secrets pc) =
      some (b', pc')) :
    Later b b' ∧ MfaCall.sound E b'.recovery ⟨q, ip, ua, began, pc'⟩ := by
  obtain ⟨hsecrets, hvouched⟩ := hsound
  obtain ⟨⟨last, next⟩, htotp, ⟨⟩⟩ := Option.map_eq_some_iff.mp hstmt
  have hnext := totpStmt_vouched hvouched htotp
  refine ⟨⟨fun _ h => h, fun _ h _ => h⟩, ?_⟩
  unfold verified
  cases next with
  | returned r =>
    cases r with
    | none => exact trivial
    | some v => exact completeLogin_sound (factorVerified_of_vouched hsecrets (hnext v rfl))
  | checking rest | matching v | reading v step | setting v step => exact ⟨hsecrets, hnext⟩

end

/-- One statement keeps what is known of its call, and undoes nothing. -/
theorem mfaPcStmt_sound {pc' : MfaPc}
    (hkept : ∀ u, hasConfirmedMFA u call.began → hasConfirmedMFA u b.methods)
    (hsound : call.sound E b.recovery) (hseen : call.factorSeen i b)
    (hstmt : mfaPcStmt E i b call call.pc = some (b', pc')) :
    Later b b' ∧ MfaCall.sound E b'.recovery { call.meets b.methods with pc := pc' } := by
  obtain ⟨q, ip, ua, began, pc⟩ := call
  -- of the call the statement reads the request and the client only
  dsimp only at hstmt
  generalize hcall : (⟨q, ip, ua, began, pc⟩ : MfaCall) = call at hstmt
  revert hstmt
  fun_cases mfaPcStmt E i b call pc with
  | case1 =>
    rintro ⟨⟩
    subst hcall
    exact ⟨.refl b, arrived_sound hseen⟩
  | case5 | case7 =>
    rintro ⟨⟩
    exact ⟨⟨fun _ h => h, fun _ h _ => h⟩, trivial⟩
  | case6 a hno =>
    rintro ⟨⟩
    subst hcall
    refine ⟨.refl b, ?_⟩
    rcases hseen with hok | hnone
    · -- the statement answered, and what the request met is still there
      have hnow : hasConfirmedMFA a.user.id b.methods ≠ true := fun h => hno ⟨hok, h⟩
      exact Bool.eq_false_of_not_eq_true fun h => hnow (hkept _ h)
    · exact hnone
  | case8 =>
    rintro ⟨⟩
    subst hcall
    exact ⟨.refl b, completeLogin_sound hsound⟩
  | case13 =>
    rintro ⟨⟩
    subst hcall
    exact ⟨.refl b, hseen, fun _ h => h⟩
  | case14 u secrets pc =>
    intro hstmt
    subst hcall
    exact verifying_sound hsound hstmt
  | case17 u norm _ r used t hfound =>
    rintro ⟨⟩
    subst hcall
    obtain ⟨hrows, rfl⟩ := Prod.ext_iff.mp hfound
    dsimp only at hrows
    constructor
    · exact ⟨fun _ h => h, fun row hrow hused => mem_consumeRecoveryCode_of_used hrow hused⟩
    · apply completeLogin_sound
      refine ⟨List.cons_ne_nil _ _, fun row hrow => ?_⟩
      rw [← hrows] at hrow
      obtain ⟨huser, hhash, hnone, hmem⟩ := consumeRecoveryCode_found hrow
      exact ⟨huser, hhash, hnone, i.now, hmem⟩
  | case22 userID _ _ t hcreate =>
    rintro ⟨⟩
    split at hcreate
    · cases hcreate
    · exact ⟨⟨fun _ hu => hasConfirmedMFA_createTOTPPending hcreate hu, fun _ h _ => h⟩, trivial⟩
  | case25 =>
    rintro ⟨⟩
    subst hcall
    exact ⟨.refl b, hsound⟩
  | case28 userID id =>
    rintro ⟨⟩
    subst hcall
    exact ⟨⟨fun _ hu => hasConfirmedMFA_confirmMFA userID id hu, fun _ h _ => h⟩, hsound⟩
  | case30 userID id a hget =>
    rintro ⟨⟩
    subst hcall
    refine ⟨.refl b, completeLogin_sound ?_⟩
    rw [MfaInput.id_of_getUserByID hget]
    exact hsound
  | case31 pc ev =>
    intro hstmt
    obtain ⟨⟨t, next⟩, hcreate, ⟨⟩⟩ := Option.map_eq_some_iff.mp hstmt
    subst hcall
    refine ⟨⟨fun _ h => h, fun _ h _ => h⟩, fun userID hu => ?_⟩
    exact hsound userID (createSessionStmt_forUser hcreate hu)
  | case32 => rintro ⟨⟩
  -- a refusal, or a step that found nothing out
  | _ =>
    rintro ⟨⟩
    exact ⟨.refl b, trivial⟩

theorem MfaCall.began_meets (call : MfaCall) (t : MfaMethods) :
    (call.meets t).began = t ∨ (call.meets t).began = call.began := by
  unfold MfaCall.meets
  split
  · exact .inl rfl
  · exact .inr rfl

theorem mfaStep_factorHeld {s s' : MfaPool} {m : MfaMove} (hi : FactorHeld E s)
    (hg : FactorSeen s m) (hstep : mfaStep E s m = some s') : FactorHeld E s' := by
  rcases poolStep_cases hstep with ⟨a, rfl, rfl⟩ | ⟨c, i, call, st, call', rfl, hc, hact, rfl⟩
  · constructor
    · exact Pool.forall_enter hi.kept fun u hu => (nomatch hu)
    · exact Pool.forall_enter hi.sound trivial
  unfold mfaAct at hact
  split at hact
  · obtain ⟨⟨b', pc'⟩, hstmt, ⟨⟩⟩ := Option.map_eq_some_iff.mp hact
    have hmem := Pool.mem_of_call hc
    obtain ⟨hlater, hnew⟩ :=
      mfaPcStmt_sound (hi.kept call hmem) (hi.sound call hmem) (hg call hc) hstmt
    constructor
    · refine Pool.forall_put ?_ ?_
      · intro d hd u hu
        exact hlater.confirmed u (hi.kept d hd u hu)
      · intro u hu
        apply hlater.confirmed
        rcases call.began_meets s.store.methods with heq | heq
        · exact heq ▸ hu
        · exact hi.kept call hmem u (heq ▸ hu)
    · have hothers : ∀ d ∈ s.calls, d.sound E b'.recovery := fun d hd => (hi.sound d hd).mono hlater
      exact Pool.forall_put hothers hnew
  · cases hact

end

/-- **No session without the second factor** in the runs in which every
statement sees the factors its request met: a session for a user who had a
confirmed factor when the request arrived rests on a code of such a factor or on
an unused recovery code. -/
theorem session_shows_second_factor (E : LoginEnv) (b : MfaStore) (s : MfaPool)
    (moves : List MfaMove) (hrun : exec (mfaStep E) ⟨b, []⟩ moves = some s)
    (hg : Guarded (mfaStep E) FactorSeen ⟨b, []⟩ moves) (c : ℕ) (call : MfaCall) (sess : Session)
    (hc : s.call c = some call) (hsess : call.session = some sess)
    (hfactor : hasConfirmedMFA sess.userId call.began) :
    call.showsFactor E s.store.recovery sess.userId := by
  have hstart : FactorHeld E ⟨b, []⟩ := ⟨fun _ h => (nomatch h), fun _ h => (nomatch h)⟩
  have hi : FactorHeld E s := exec_invariant mfaStep_factorHeld hg hrun hstart
  have hsound := hi.sound call (Pool.mem_of_call hc)
  obtain ⟨q, ip, ua, began, pc⟩ := call
  unfold MfaCall.session at hsess
  split at hsess
  · rename_i sess' ev hpc
    cases hsess
    cases hpc
    have hev := hsound sess.userId rfl
    cases ev with
    | totp v => exact .inl ⟨v, rfl, hev⟩
    | recovery used => exact .inr ⟨used, rfl, hev⟩
    | passwordOnly | enrolled id => exact absurd (hfactor.symm.trans hev) (by decide)
  · cases hsess

/-- A secret is its own encryption, and a code is the secret and the step. -/
def plainTotp : Totp where
  decryptSecret enc := some (String.ofList (enc.map fun b => Char.ofNat b.toNat))
  generateCode secret step := some (secret ++ toString step)

def sampleLogin : LoginEnv where
  h := freeHashing
  cfg := sampleConfig
  net := plainNet
  pol := ⟨⟨[], 0⟩, fun _ => none⟩
  totp := plainTotp
  verifyPassword password stored := password == stored

/-- The hundredth step, for an account whose password is `pw`; the new secret is
`B`. -/
def mfaInput (fails mandatory : Bool) (newID : UUID) : MfaInput where
  now := 100 * 30 * second
  fails := fails
  account := some ⟨alice, "local", none, false⟩
  passwordHash := some "pw"
  ldap := none
  requireMFA := mandatory
  secret := some [66]
  newID := newID
  token := some "T"
  csrf := ""
  castInet := some

def mfaMove (c : ℕ) (newID : UUID) : MfaMove := .advance c (mfaInput false true newID)

def arrives (q : MfaRequest) : MfaMove := .begin ⟨q, "", ""⟩

def storeWith (methods : MfaMethods) : MfaStore := ⟨0, methods, .empty, fun _ => 0, [], .empty⟩

def enrolledStore : MfaStore := storeWith ⟨[⟨⟨1⟩, alice.id, .totp, "", [65], true, 0⟩], by decide⟩

/-- A login that is answered with a challenge, and the challenge with a code of
`A`. -/
def loginWithCode : List MfaMove :=
  [arrives (.login "alice" "pw"), mfaMove 0 ⟨2⟩, mfaMove 0 ⟨2⟩, mfaMove 0 ⟨2⟩,
    arrives (.mfaVerify (issueMFAChallenge (100 * 30 * second) alice.id) "A100")] ++
  List.replicate 9 (mfaMove 1 ⟨2⟩)

theorem session_shows_second_factor_totp : ∃ s call sess,
    exec (mfaStep sampleLogin) ⟨enrolledStore, []⟩ loginWithCode = some s ∧
    s.call 1 = some call ∧ call.session = some sess ∧
    call.showsFactor sampleLogin s.store.recovery sess.userId := by
  refine ⟨_, _, _, rfl, rfl, rfl, ?_⟩
  exact session_shows_second_factor sampleLogin enrolledStore _ loginWithCode rfl
    (by decide +kernel) 1 _ _ rfl rfl rfl

/-- The enrolment that `mfaSetupBegin` and `mfaSetupConfirm` make of a setup
token. -/
def enrols (c : ℕ) (newID : UUID) : List MfaMove :=
  let token := issueMFASetupToken (100 * 30 * second) alice.id
  (arrives (.mfaSetupBegin token) :: List.replicate 3 (mfaMove c newID)) ++
  (arrives (.mfaSetupConfirm token "B100") :: List.replicate 6 (mfaMove (c + 1) newID))

/-- `HasConfirmedMFA` fails and the password does; and a setup token is used a
second time, after the first use has confirmed a factor. -/
theorem session_without_second_factor :
    (∃ s call sess, exec (mfaStep sampleLogin) ⟨enrolledStore, []⟩
        [arrives (.login "alice" "pw"), .advance 0 (mfaInput false false ⟨2⟩),
          .advance 0 (mfaInput false false ⟨2⟩), .advance 0 (mfaInput true false ⟨2⟩),
          .advance 0 (mfaInput false false ⟨2⟩), .advance 0 (mfaInput false false ⟨2⟩),
          .advance 0 (mfaInput false false ⟨2⟩)] = some s ∧ s.call 0 = some call ∧
            call.session = some sess ∧
      hasConfirmedMFA sess.userId call.began ∧
      ¬ call.showsFactor sampleLogin s.store.recovery sess.userId) ∧
    (∃ s call sess, exec (mfaStep sampleLogin) ⟨storeWith .empty, []⟩
        ([arrives (.login "alice" "pw"), mfaMove 0 ⟨2⟩, mfaMove 0 ⟨2⟩, mfaMove 0 ⟨2⟩,
          mfaMove 0 ⟨2⟩] ++ enrols 1 ⟨3⟩ ++ enrols 3 ⟨4⟩) = some s ∧ s.call 4 = some call ∧
            call.session = some sess ∧
      hasConfirmedMFA sess.userId call.began ∧
      ¬ call.showsFactor sampleLogin s.store.recovery sess.userId) := by
  constructor
  all_goals
    refine ⟨_, _, _, rfl, rfl, rfl, rfl, ?_⟩
    rintro (⟨v, hv, -⟩ | ⟨used, hu, -⟩)
    · cases hv
    · cases hu

end Moorgate.Auth
