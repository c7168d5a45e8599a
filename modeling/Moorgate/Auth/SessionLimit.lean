import Moorgate.Auth.Credentials

/-!
# The limit on concurrent sessions: `enforceSessionPolicy`

`CreateSession` counts the active sessions of the user and inserts the new one in two statements,
so a login that has passed its count and has not inserted yet is seen by nobody. Counted with those
logins, the active sessions stay within the limit as long as each login that passes its count is
the only one of its user on the way or finds room for all of them (`RoomLeft`).
-/

namespace Moorgate.Auth

open Framework Models Store

/-! ## The policy -/

/-- Zero is no limit, and an empty list no restriction. -/
structure SessionPolicy where
  ipAllowlist : List String
  maxConcurrentSessions : ℤ

/-- `none` takes the global value. -/
structure UserSessionPolicy where
  ipAllowlist : Option (List String)
  maxConcurrentSessions : Option ℤ

structure Policies where
  globalPolicy : SessionPolicy
  userPolicy : UUID → Option UserSessionPolicy

/-- The parts of `net` and `strings` that `ipAllowed` uses. -/
structure Net where
  parseIP : String → Option String
  cidrContains : String → String → Bool
  trimSpace : String → String

def ipAllowed (net : Net) (ip : String) (cidrs : List String) : Bool :=
  match net.parseIP ip with
  | none => false
  | some addr => cidrs.any fun entry =>
    let c := net.trimSpace entry
    if c = "" then false
    else if '/' ∈ c.toList then net.cidrContains c addr
    else decide (net.parseIP c = some addr)

def effectiveAllowlist (pol : Policies) (userID : UUID) : List String :=
  ((pol.userPolicy userID).bind UserSessionPolicy.ipAllowlist).getD pol.globalPolicy.ipAllowlist

def effectiveMax (pol : Policies) (userID : UUID) : ℤ :=
  ((pol.userPolicy userID).bind UserSessionPolicy.maxConcurrentSessions).getD
    pol.globalPolicy.maxConcurrentSessions

/-- The denial, if there is one. When the count fails (`counts` is false) there
is no limit. -/
def enforceSessionPolicy (net : Net) (pol : Policies) (counts : Bool) (now : Instant)
    (userID : UUID) (ip : String) (t : Sessions) : Option AuthError :=
  let allow := effectiveAllowlist pol userID
  if allow ≠ [] ∧ ipAllowed net ip allow = false then some .ipNotAllowed
  else if 0 < effectiveMax pol userID ∧ counts ∧
      effectiveMax pol userID ≤ countActiveSessions now userID t then some .sessionLimit
  else none

/-! ## Logins and logouts, statement by statement -/

inductive LimitRequest where
  | login (req : LoginRequest)
  | logout (sessionID : UUID)

structure LimitInput where
  o : Outside
  newID : UUID
  castInet : String → Option String
  counts : Bool

inductive LimitPc where
  | enforcing (req : LoginRequest) -- `CountActiveSessions`
  | creating (req : LoginRequest) -- `INSERT INTO sessions`
  | revoking (sessionID : UUID) -- `RevokeSession`
  | returned (r : AuthResult)

def limitStart : LimitRequest → LimitPc
  | .login req => .enforcing req
  | .logout sessionID => .revoking sessionID

def limitStmt (h : Hashing) (cfg : Config) (net : Net) (pol : Policies) (i : LimitInput)
    (t : Sessions) : LimitPc → Option (Sessions × LimitPc)
  | .enforcing req =>
    match enforceSessionPolicy net pol i.counts i.o.now req.user.id req.ip t with
    | some err => some (t, .returned (.session (.error err)))
    | none => some (t, .creating req)
  | .creating req =>
    match i.o.token with
    | none => some (t, .returned (.session (.error .randomSource)))
    | some token =>
      match createSession i.castInet i.o.now i.newID req.user.id (hashToken h token) req.ip req.ua
          req.mfaPassed (i.o.now + cfg.refreshTokenTTL) t with
      | none => some (t, .returned (.session (.error .store)))
      | some (sess, t') => some (t', .returned (.session (.ok sess)))
  | .revoking sessionID => some (revokeSession i.o.now sessionID t, .returned .ended)
  | .returned _ => none

/-- Time does not go back. -/
def limitAct (h : Hashing) (cfg : Config) (net : Net) (pol : Policies) (i : LimitInput)
    (b : TimedSessions) (pc : LimitPc) : Option (TimedSessions × LimitPc) :=
  if b.clock ≤ i.o.now then
    (limitStmt h cfg net pol i b.sessions pc).map fun next => (⟨i.o.now, next.1⟩, next.2)
  else none

abbrev LimitPool := Pool TimedSessions LimitPc
abbrev LimitMove := Move LimitRequest LimitInput

def limitStep (h : Hashing) (cfg : Config) (net : Net) (pol : Policies) :
    LimitPool → LimitMove → Option LimitPool :=
  poolStep limitStart (limitAct h cfg net pol)

def LimitPc.forUser : LimitPc → Option UUID
  | .enforcing req | .creating req => some req.user.id
  | .returned (.session (.ok sess)) => some sess.userId
  | _ => none

theorem limitStmt_forUser {h : Hashing} {cfg : Config} {net : Net} {pol : Policies} {i : LimitInput}
    {t t' : Sessions} {pc pc' : LimitPc} (hstmt : limitStmt h cfg net pol i t pc = some (t', pc'))
    {userID : UUID} (hu : userID ∈ pc'.forUser) : userID ∈ pc.forUser := by
  revert hstmt
  fun_cases limitStmt h cfg net pol i t pc with
  | case2 req =>
    rintro ⟨⟩
    exact hu
  | case5 req token htoken sess t'' hcreate =>
    rintro ⟨⟩
    obtain ⟨-, -, huser, -, -⟩ := createSession_eq_some hcreate
    have hsess : userID = sess.userId := (Option.some.inj hu).symm
    rw [hsess, huser]
    rfl
  | case7 => exact nofun
  | _ =>
    rintro ⟨⟩
    cases hu

/-! ## Logins on the way -/

/-- The call has passed its count for the user and not inserted yet. -/
def LimitPc.pendingFor (userID : UUID) : LimitPc → Bool
  | .creating req => decide (req.user.id = userID)
  | _ => false

def pending (userID : UUID) (s : LimitPool) : ℕ := s.calls.countP (LimitPc.pendingFor userID)

def LimitPc.counting : LimitPc → Option LoginRequest
  | .enforcing req => some req
  | _ => none

section

variable (h : Hashing) (cfg : Config) (net : Net) (pol : Policies) (userID : UUID) (m : ℕ)

/-- A login of the user that passes its count has counted, and no other is on
the way or there is room for all of them. -/
def RoomLeft (s : LimitPool) : LimitMove → Prop
  | .begin _ => True
  | .advance k i => ∀ pc ∈ s.call k, ∀ req ∈ pc.counting, req.user.id = userID →
      enforceSessionPolicy net pol i.counts i.o.now userID req.ip s.store.sessions = none →
      i.counts ∧ (pending userID s = 0 ∨
        countActiveSessions i.o.now userID s.store.sessions + pending userID s < m)

instance (s : LimitPool) (mv : LimitMove) : Decidable (RoomLeft net pol userID m s mv) := by
  unfold RoomLeft
  split <;> infer_instance

def Within (s : LimitPool) : Prop :=
  countActiveSessions s.store.clock userID s.store.sessions + pending userID s ≤ m

variable {h cfg net pol userID m}

theorem count_lt_of_enforceSessionPolicy {now : Instant} {ip : String} {t : Sessions}
    (hmax : effectiveMax pol userID = m) (hpos : 0 < m)
    (hpass : enforceSessionPolicy net pol true now userID ip t = none) :
    countActiveSessions now userID t < m := by
  unfold enforceSessionPolicy at hpass
  rw [hmax] at hpass
  dsimp only at hpass
  split at hpass
  · cases hpass
  split at hpass
  · cases hpass
  · rename_i hno
    by_contra hge
    exact hno ⟨by exact_mod_cast hpos, rfl, by exact_mod_cast not_lt.mp hge⟩

/-- A statement that takes nobody past the count leaves the sum within the
limit: an insert uses up the login that was on the way. -/
theorem limitStmt_sum (userID : UUID) {i : LimitInput} {t t' : Sessions} {pc pc' : LimitPc}
    (hstmt : limitStmt h cfg net pol i t pc = some (t', pc')) :
    (∃ req, pc = .enforcing req ∧ pc' = .creating req ∧ t' = t ∧
      enforceSessionPolicy net pol i.counts i.o.now req.user.id req.ip t = none) ∨
    countActiveSessions i.o.now userID t' + (if pc'.pendingFor userID then 1 else 0) ≤
      countActiveSessions i.o.now userID t + (if pc.pendingFor userID then 1 else 0) := by
  revert hstmt
  fun_cases limitStmt h cfg net pol i t pc with
  | case1 =>
    rintro ⟨⟩
    exact .inr (le_refl _)
  | case2 req hpass =>
    rintro ⟨⟩
    exact .inl ⟨req, rfl, rfl, rfl, hpass⟩
  | case3 | case4 =>
    rintro ⟨⟩
    exact .inr (Nat.le_add_right _ _)
  | case5 req token htoken sess t'' hcreate =>
    rintro ⟨⟩
    obtain ⟨hins, -, huser, -, -⟩ := createSession_eq_some hcreate
    have hcount := countActiveSessions_insert hins i.o.now userID
    rw [huser] at hcount
    exact .inr (by simpa [LimitPc.pendingFor] using hcount)
  | case6 =>
    rintro ⟨⟩
    exact .inr (countActiveSessions_revokeSession ..)
  | case7 => exact nofun

theorem limitStep_within (hmax : effectiveMax pol userID = m) (hpos : 0 < m) {s s' : LimitPool}
    {mv : LimitMove} (hw : Within userID m s) (hroom : RoomLeft net pol userID m s mv)
    (hstep : limitStep h cfg net pol s mv = some s') : Within userID m s' := by
  rcases poolStep_cases hstep with ⟨r, rfl, rfl⟩ | ⟨k, i, pc, b, pc', rfl, hk, hact, rfl⟩
  · -- a call that starts has not counted
    unfold Within pending
    rw [Pool.countP_enter]
    cases r <;> exact hw
  unfold limitAct at hact
  split at hact
  · rename_i hnow
    obtain ⟨⟨t', next⟩, hstmt, ⟨⟩⟩ := Option.map_eq_some_iff.mp hact
    have hlater := countActiveSessions_anti hnow userID s.store.sessions
    have hput := Pool.countP_put (LimitPc.pendingFor userID) hk (⟨i.o.now, t'⟩ : TimedSessions) next
    unfold Within pending at hw ⊢
    show countActiveSessions i.o.now userID t' +
      (s.put k ⟨i.o.now, t'⟩ next).calls.countP (LimitPc.pendingFor userID) ≤ m
    rcases limitStmt_sum userID hstmt with ⟨req, rfl, rfl, rfl, hpass⟩ | hsum
    · by_cases hu : req.user.id = userID
      · -- the only place where the sum grows, and there the count is below the limit
        subst hu
        obtain ⟨hcounts, hfree⟩ := hroom _ hk req rfl rfl hpass
        rw [hcounts] at hpass
        have hlt := count_lt_of_enforceSessionPolicy hmax hpos hpass
        have hone : LimitPc.pendingFor req.user.id (.creating req) := by
          simp [LimitPc.pendingFor]
        have hzero : LimitPc.pendingFor req.user.id (.enforcing req) = false := rfl
        unfold pending at hfree
        simp only [hone, hzero, if_true, Bool.false_eq_true, if_false] at hput
        omega
      · have hother : LimitPc.pendingFor userID (.creating req) = false := by
          simp [LimitPc.pendingFor, hu]
        have hzero : LimitPc.pendingFor userID (.enforcing req) = false := rfl
        simp only [hother, hzero, Bool.false_eq_true, if_false] at hput
        omega
    · omega
  · cases hact

end

/-- **The session limit** in the runs in which every login that passes its
count finds room: a user with the limit `m` never has more than `m` active
sessions. -/
theorem active_sessions_within_limit (h : Hashing) (cfg : Config) (net : Net) (pol : Policies)
    (userID : UUID) (m : ℕ) (hmax : effectiveMax pol userID = m) (hpos : 0 < m)
    (b : TimedSessions) (s : LimitPool) (moves : List LimitMove)
    (hstart : countActiveSessions b.clock userID b.sessions ≤ m)
    (hrun : exec (limitStep h cfg net pol) ⟨b, []⟩ moves = some s)
    (hg : Guarded (limitStep h cfg net pol) (RoomLeft net pol userID m) ⟨b, []⟩ moves)
    (now : Instant) (hnow : s.store.clock ≤ now) :
    countActiveSessions now userID s.store.sessions ≤ m := by
  have hw : Within userID m s := exec_invariant (limitStep_within hmax hpos) hg hrun hstart
  have hlater := countActiveSessions_anti hnow userID s.store.sessions
  unfold Within at hw
  omega

def plainNet : Net := ⟨some, fun _ _ => false, id⟩

/-- One session for everybody, and no restriction on addresses. -/
def oneSession : Policies := ⟨⟨[], 1⟩, fun _ => none⟩

def loginOf (id : UUID) : LimitRequest := .login ⟨{ alice with id }, "", "", true⟩

/-- Statement of the call `k`, whose session gets the id `n`. -/
def limitMove (k : ℕ) (n : UUID) (now : Instant) : LimitMove :=
  .advance k ⟨drawing now "T", n, some, true⟩

def emptySessions : TimedSessions := ⟨0, .empty⟩

/-- A login, a second one while the session is active, a logout, a third login. -/
def loginsInTurn : List LimitMove :=
  [.begin (loginOf ⟨7⟩), limitMove 0 ⟨1⟩ 0, limitMove 0 ⟨1⟩ 0,
    .begin (loginOf ⟨7⟩), limitMove 1 ⟨2⟩ minute,
    .begin (.logout ⟨1⟩), limitMove 2 ⟨2⟩ (2 * minute),
    .begin (loginOf ⟨7⟩), limitMove 3 ⟨3⟩ hour, limitMove 3 ⟨3⟩ hour]

theorem active_sessions_within_limit_in_turn : ∃ s,
    exec (limitStep freeHashing sampleConfig plainNet oneSession) ⟨emptySessions,
      []⟩ loginsInTurn = some s ∧
    s.call 1 = some (.returned (.session (.error .sessionLimit))) ∧
    countActiveSessions hour ⟨7⟩ s.store.sessions ≤ 1 := by
  refine ⟨_, rfl, rfl, ?_⟩
  exact active_sessions_within_limit freeHashing sampleConfig plainNet oneSession ⟨7⟩ 1 rfl
    (by decide) emptySessions _ loginsInTurn (by decide) rfl (by decide +kernel) hour
    (by decide +kernel)

/-- Two logins that both count before either inserts. -/
theorem concurrent_logins_exceed_limit : ∃ s,
    exec (limitStep freeHashing sampleConfig plainNet oneSession) ⟨emptySessions, []⟩
      [.begin (loginOf ⟨7⟩), .begin (loginOf ⟨7⟩), limitMove 0 ⟨1⟩ 0, limitMove 1 ⟨2⟩ 0,
        limitMove 0 ⟨1⟩ 0, limitMove 1 ⟨2⟩ 0] = some s ∧
    effectiveMax oneSession ⟨7⟩ = 1 ∧ countActiveSessions 0 ⟨7⟩ s.store.sessions = 2 := by
  refine ⟨_, rfl, rfl, ?_⟩
  decide +kernel

end Moorgate.Auth
