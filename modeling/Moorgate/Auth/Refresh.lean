import Moorgate.Framework.Base.Calls
import Moorgate.Models.Accounts
import Moorgate.Models.Digest
import Moorgate.Store.Sessions

/-!
# Refresh-token rotation: `Service.Refresh` of `auth/service.go`

`refresh` is the call as one piece; `RefreshPc` cuts it at its store statements and `refreshAct`
performs them one at a time.

A refresh token is meant to be good for one rotation. The comparison with the stored hash and the
statement that replaces it are two steps, and `RotateRefresh` does not look at the hash it
replaces. So a token is single-use in the runs in which each rotation still finds the hash its call
compared with (`InOrder`).
-/

namespace Moorgate.Auth

open Framework Models Store

inductive AuthError where
  | sessionInvalid -- `ErrSessionInvalid`
  | ipNotAllowed -- `ErrIPNotAllowed`
  | sessionLimit -- `ErrSessionLimit`
  | randomSource -- `rand.Read` failed
  | store -- a statement failed
deriving DecidableEq

/-- The durations of `config.Config` that bound a session. -/
structure Config where
  (refreshTokenTTL accessTokenTTL sessionIdleTTL sessionAbsoluteTTL : Duration)

structure Claims where
  (userID sessionID : UUID)
  username : String
  (issuedAt expiresAt : Instant)
deriving DecidableEq

structure Tokens where
  access : Claims
  (refresh csrf refreshHash : String)
  accessExpiry : Instant
  session : Session
deriving DecidableEq

/-- What a statement takes from outside: the time, and what the random source
yields (`none` when it fails). -/
structure Outside where
  now : Instant
  token : Option String
  csrf : String

def hashToken (h : Hashing) (token : String) : String := h.sha256 token

def issueAccessToken (cfg : Config) (now : Instant) (userID sessionID : UUID) (username : String) :
    Claims where
  userID := userID
  sessionID := sessionID
  username := username
  issuedAt := now
  expiresAt := now + cfg.accessTokenTTL

/-- What `Refresh` returns after the rotation. -/
def refreshTokens (h : Hashing) (cfg : Config) (o : Outside) (sessionID : UUID) (sess : Session)
    (u : User) (newRefresh : String) : Tokens where
  access := issueAccessToken cfg o.now u.id sessionID u.username
  refresh := newRefresh
  csrf := o.csrf
  refreshHash := hashToken h newRefresh
  accessExpiry := o.now + cfg.accessTokenTTL
  session := sess

/-- `Refresh` as one piece, all of it at one time. -/
def refresh (h : Hashing) (cfg : Config) (acc : Accounts) (o : Outside) (sessionID : UUID)
    (presented : String) (t : Sessions) : Except AuthError Tokens × Sessions :=
  match getSession t sessionID with
  | none => (.error .sessionInvalid, t)
  | some sess =>
    if sess.revokedAt.isSome ∨ sess.expiresAt < o.now then (.error .sessionInvalid, t)
    else if getSessionRefreshHash t sessionID ≠ some (hashToken h presented) then
      -- possible replay of a rotated token
      (.error .sessionInvalid, revokeSession o.now sessionID t)
    else
      match acc.getUserByID sess.userId with
      | none => (.error .sessionInvalid, t)
      | some u =>
        if u.isDisabled then (.error .sessionInvalid, t)
        else
          match o.token with
          | none => (.error .randomSource, t)
          | some newRefresh =>
            (.ok (refreshTokens h cfg o sessionID sess u newRefresh),
              rotateRefresh o.now sessionID (hashToken h newRefresh)
              (o.now + cfg.refreshTokenTTL) t)

/-! ## The call statement by statement -/

structure RefreshRequest where
  sessionID : UUID
  presented : String
deriving DecidableEq

/-- The statement a call stands before, with what it has read. -/
inductive RefreshPc where
  | loading -- `GetSession`
  | comparing (sess : Session) -- `GetSessionRefreshHash` and the comparison
  | revoking -- `RevokeSession`
  | loadingUser (sess : Session) -- `GetUserByID`
  | rotating (sess : Session) (u : User) -- `RotateRefresh`
  | returned (result : Except AuthError Tokens)

def RefreshPc.isRevoking : RefreshPc → Bool
  | .revoking => true
  | _ => false

def RefreshPc.isReturned : RefreshPc → Bool
  | .returned _ => true
  | _ => false

structure RefreshCall where
  request : RefreshRequest
  pc : RefreshPc

def refreshPcStep (h : Hashing) (cfg : Config) (acc : Accounts) (o : Outside) (q : RefreshRequest)
    (t : Sessions) : RefreshPc → Option (Sessions × RefreshPc)
  | .loading =>
    match getSession t q.sessionID with
    | none => some (t, .returned (.error .sessionInvalid))
    | some sess =>
      if sess.revokedAt.isSome ∨ sess.expiresAt < o.now then
        some (t, .returned (.error .sessionInvalid))
      else some (t, .comparing sess)
  | .comparing sess =>
    if getSessionRefreshHash t q.sessionID ≠ some (hashToken h q.presented) then
      some (t, .revoking)
    else some (t, .loadingUser sess)
  | .revoking => some (revokeSession o.now q.sessionID t, .returned (.error .sessionInvalid))
  | .loadingUser sess =>
    match acc.getUserByID sess.userId with
    | none => some (t, .returned (.error .sessionInvalid))
    | some u =>
      if u.isDisabled then some (t, .returned (.error .sessionInvalid))
      else some (t, .rotating sess u)
  | .rotating sess u =>
    match o.token with
    | none => some (t, .returned (.error .randomSource))
    | some newRefresh =>
      some (rotateRefresh o.now q.sessionID (hashToken h newRefresh)
        (o.now + cfg.refreshTokenTTL) t,
        .returned (.ok (refreshTokens h cfg o q.sessionID sess u newRefresh)))
  | .returned _ => none

def refreshStart (q : RefreshRequest) : RefreshCall := ⟨q, .loading⟩

def refreshAct (h : Hashing) (cfg : Config) (acc : Accounts) (o : Outside) (t : Sessions)
    (call : RefreshCall) : Option (Sessions × RefreshCall) :=
  (refreshPcStep h cfg acc o call.request t call.pc).map fun next =>
    (next.1, ⟨call.request, next.2⟩)

abbrev RefreshPool := Pool Sessions RefreshCall
abbrev RefreshMove := Move RefreshRequest Outside

def refreshStep (h : Hashing) (cfg : Config) (acc : Accounts) :
    RefreshPool → RefreshMove → Option RefreshPool :=
  poolStep refreshStart (refreshAct h cfg acc)

variable {h : Hashing} {cfg : Config} {acc : Accounts}

/-! ## What a statement can do -/

/-- The statements of a call by what they find. -/
inductive RefreshStmt (h : Hashing) (cfg : Config) (acc : Accounts) (o : Outside)
    (q : RefreshRequest) (t : Sessions) : RefreshPc → Sessions → RefreshPc → Prop
  | refused (hdead : ∀ row, t.lookup q.sessionID = some row →
      row.revokedAt.isSome ∨ row.expiresAt < o.now) :
      RefreshStmt h cfg acc o q t .loading t (.returned (.error .sessionInvalid))
  | loaded (sess : Session) : RefreshStmt h cfg acc o q t .loading t (.comparing sess)
  | mismatch (sess : Session)
      (hne : getSessionRefreshHash t q.sessionID ≠ some (hashToken h q.presented)) :
      RefreshStmt h cfg acc o q t (.comparing sess) t .revoking
  | matched (sess : Session)
      (heq : getSessionRefreshHash t q.sessionID = some (hashToken h q.presented)) :
      RefreshStmt h cfg acc o q t (.comparing sess) t (.loadingUser sess)
  | revoke : RefreshStmt h cfg acc o q t .revoking (revokeSession o.now q.sessionID t)
      (.returned (.error .sessionInvalid))
  | noUser (sess : Session) :
      RefreshStmt h cfg acc o q t (.loadingUser sess) t (.returned (.error .sessionInvalid))
  | user (sess : Session) (u : User) :
      RefreshStmt h cfg acc o q t (.loadingUser sess) t (.rotating sess u)
  | noToken (sess : Session) (u : User) :
      RefreshStmt h cfg acc o q t (.rotating sess u) t (.returned (.error .randomSource))
  | rotate (sess : Session) (u : User) (new : String) (htok : o.token = some new) :
      RefreshStmt h cfg acc o q t (.rotating sess u)
        (rotateRefresh o.now q.sessionID (hashToken h new) (o.now + cfg.refreshTokenTTL) t)
        (.returned (.ok (refreshTokens h cfg o q.sessionID sess u new)))

variable {o : Outside} {q : RefreshRequest} {t t' : Sessions} {pc pc' : RefreshPc}

theorem refreshPcStep_stmt (hstep : refreshPcStep h cfg acc o q t pc = some (t', pc')) :
    RefreshStmt h cfg acc o q t pc t' pc' := by
  revert hstep
  fun_cases refreshPcStep h cfg acc o q t pc with
  | case1 hnone =>
    rintro ⟨⟩
    exact .refused fun row hrow => by cases hnone.symm.trans hrow
  | case2 sess hsess hdead =>
    rintro ⟨⟩
    refine .refused fun row hrow => ?_
    cases hsess.symm.trans hrow
    exact hdead
  | case4 sess hne =>
    rintro ⟨⟩
    exact .mismatch sess hne
  | case5 sess heq =>
    rintro ⟨⟩
    exact .matched sess (not_not.mp heq)
  | case11 sess u new htok =>
    rintro ⟨⟩
    exact .rotate sess u new htok
  | case12 => rintro ⟨⟩
  | _ =>
    rintro ⟨⟩
    constructor

theorem refreshStep_cases {s s' : RefreshPool} {m : RefreshMove}
    (hstep : refreshStep h cfg acc s m = some s') :
    (∃ q, m = .begin q ∧ s' = s.enter ⟨q, .loading⟩) ∨
    (∃ c o q pc t' pc', m = .advance c o ∧ s.call c = some ⟨q, pc⟩ ∧
      RefreshStmt h cfg acc o q s.store pc t' pc' ∧ s' = s.put c t' ⟨q, pc'⟩) := by
  rcases poolStep_cases hstep with ⟨q, rfl, rfl⟩ | ⟨c, o, ⟨q, pc⟩, t', call', rfl, hc, hact, rfl⟩
  · exact .inl ⟨q, rfl, rfl⟩
  · obtain ⟨⟨t', pc'⟩, hpc, ⟨⟩⟩ := Option.map_eq_some_iff.mp hact
    exact .inr ⟨c, o, q, pc, t', pc', rfl, hc, refreshPcStep_stmt hpc, rfl⟩

/-- A statement either leaves every stored hash alone and returns no tokens,
or it is the rotation. -/
theorem RefreshStmt.hash_or_rotate (hs : RefreshStmt h cfg acc o q t pc t' pc') :
    ((∀ k, getSessionRefreshHash t' k = getSessionRefreshHash t k) ∧
      ∀ tk, pc' ≠ .returned (.ok tk)) ∨
    ∃ sess u new, pc = .rotating sess u ∧ o.token = some new ∧
      t' = rotateRefresh o.now q.sessionID (hashToken h new) (o.now + cfg.refreshTokenTTL) t := by
  cases hs with
  | rotate sess u new htok => exact .inr ⟨sess, u, new, rfl, htok, rfl⟩
  | revoke =>
    refine .inl ⟨fun k => getSessionRefreshHash_revokeSession t o.now q.sessionID k, ?_⟩
    rintro tk ⟨⟩
  | _ =>
    refine .inl ⟨fun _ => rfl, ?_⟩
    rintro tk ⟨⟩

theorem RefreshStmt.revoked (hs : RefreshStmt h cfg acc o q t pc t' pc') {k : UUID}
    (hk : Revoked t k) : Revoked t' k := by
  cases hs with
  | rotate sess u new htok => exact hk.rotateRefresh ..
  | revoke => exact hk.revokeSession ..
  | _ => exact hk

/-! ## A token is used once -/

section

variable (h) (sid : UUID) (T : String)

/-- Call `c` presented the token on the session and got tokens for it. -/
def ReturnedTokens (s : RefreshPool) (c : ℕ) : Prop :=
  ∃ tk, s.call c = some ⟨⟨sid, T⟩, .returned (.ok tk)⟩

/-- The side condition on a statement. A rotation finds the hash its call
compared with, and the token it draws is not `T` again. A call that comes with
another token than the current one finds the session before it expires. -/
def PcInOrder (o : Outside) (q : RefreshRequest) (t : Sessions) : RefreshPc → Prop
  | .loading => ∀ row ∈ t.lookup q.sessionID, row.refreshHash ≠ hashToken h q.presented →
      row.revokedAt = none → ¬ row.expiresAt < o.now
  | .rotating _ _ => getSessionRefreshHash t q.sessionID = some (hashToken h q.presented) ∧
      ∀ new ∈ o.token, hashToken h new ≠ hashToken h T
  | _ => True

instance (o : Outside) (q : RefreshRequest) (t : Sessions) (pc : RefreshPc) :
    Decidable (PcInOrder h T o q t pc) := by
  unfold PcInOrder
  split <;> infer_instance

/-- The side condition on a move: it concerns the calls on this session. -/
def InOrder (s : RefreshPool) : RefreshMove → Prop
  | .begin _ => True
  | .advance c o => ∀ call ∈ s.call c, call.request.sessionID = sid →
      PcInOrder h T o call.request s.store call.pc

instance (s : RefreshPool) (m : RefreshMove) : Decidable (InOrder h sid T s m) := by
  unfold InOrder
  split <;> infer_instance

/-- While the token is current no call has used it, and at most one ever has. -/
structure UsedOnce (s : RefreshPool) : Prop where
  present : ∃ x, getSessionRefreshHash s.store sid = some x
  unspent : getSessionRefreshHash s.store sid = some (hashToken h T) →
    ∀ c, ¬ ReturnedTokens sid T s c
  once : ∀ c c', ReturnedTokens sid T s c → ReturnedTokens sid T s c' → c = c'

/-- The token has been replaced, and call `c`, if it presents it, is on its way
to the revocation or has been there. -/
structure Caught (c : ℕ) (s : RefreshPool) : Prop where
  spent : ∃ x, getSessionRefreshHash s.store sid = some x ∧ x ≠ hashToken h T
  standing : ∀ pc, s.call c = some ⟨⟨sid, T⟩, pc⟩ →
    pc = .loading ∨ (∃ sess, pc = .comparing sess) ∨ pc = .revoking ∨
      (pc = .returned (.error .sessionInvalid) ∧ Revoked s.store sid)

variable {h sid T}

variable {s : RefreshPool}

variable {c d : ℕ} {q : RefreshRequest}

theorem ReturnedTokens.of_put {t : Sessions} {pc : RefreshPc}
    (hd : ReturnedTokens sid T (s.put c t ⟨q, pc⟩) d) :
    (d = c ∧ q = ⟨sid, T⟩ ∧ ∃ tk, pc = .returned (.ok tk)) ∨ ReturnedTokens sid T s d := by
  obtain ⟨tk, hd⟩ := hd
  rcases Pool.call_put hd with ⟨rfl, hcall⟩ | ⟨-, hd⟩
  · cases hcall
    exact .inl ⟨rfl, rfl, tk, rfl⟩
  · exact .inr ⟨tk, hd⟩

theorem ReturnedTokens.of_enter (hd : ReturnedTokens sid T (s.enter ⟨q, .loading⟩) d) :
    ReturnedTokens sid T s d := by
  obtain ⟨tk, hd⟩ := hd
  rcases Pool.call_enter hd with hd | ⟨-, hcall⟩
  · exact ⟨tk, hd⟩
  · cases hcall

variable {s' : RefreshPool}

theorem UsedOnce.of_frame (hu : UsedOnce h sid T s)
    (hhash : getSessionRefreshHash s'.store sid = getSessionRefreshHash s.store sid)
    (hret : ∀ d, ReturnedTokens sid T s' d → ReturnedTokens sid T s d) : UsedOnce h sid T s' where
  present := hhash ▸ hu.present
  unspent hx c hc := hu.unspent (hhash ▸ hx) c (hret c hc)
  once c c' hc hc' := hu.once c c' (hret c hc) (hret c' hc')

theorem refreshStep_usedOnce {m : RefreshMove} (hu : UsedOnce h sid T s)
    (hm : InOrder h sid T s m) (hstep : refreshStep h cfg acc s m = some s') :
    UsedOnce h sid T s' := by
  rcases refreshStep_cases hstep with
    ⟨q, rfl, rfl⟩ | ⟨c, o, q, pc, t', pc', rfl, hc, hs, rfl⟩
  · exact hu.of_frame rfl fun d hd => hd.of_enter
  rcases hs.hash_or_rotate with ⟨hhash, hno⟩ | ⟨sess, u, new, rfl, htok, rfl⟩
  · refine hu.of_frame (hhash sid) fun d hd => ?_
    rcases hd.of_put with ⟨-, -, tk, htk⟩ | hd
    · exact absurd htk (hno tk)
    · exact hd
  by_cases hq : q.sessionID = sid
  · -- the rotation of this session: its hash was current, the new one is not `T`'s
    obtain ⟨hcur, hfresh⟩ := hm ⟨q, .rotating sess u⟩ hc hq
    have hnew : getSessionRefreshHash (rotateRefresh o.now q.sessionID (hashToken h new)
        (o.now + cfg.refreshTokenTTL) s.store) sid = some (hashToken h new) := by
      rw [← hq]
      exact getSessionRefreshHash_rotateRefresh hcur ..
    refine ⟨⟨_, hnew⟩, fun hx => ?_, fun d d' hd hd' => ?_⟩
    · rw [Pool.put, hnew] at hx
      exact absurd (Option.some.inj hx) (hfresh new htok)
    · by_cases hT : q = ⟨sid, T⟩
      · -- the token was current, so nobody had used it before
        subst hT
        have hnone := hu.unspent hcur
        rcases hd.of_put with ⟨rfl, -⟩ | hd
        · rcases hd'.of_put with ⟨rfl, -⟩ | hd'
          · rfl
          · exact absurd hd' (hnone d')
        · exact absurd hd (hnone d)
      · rcases hd.of_put with ⟨-, hq', -⟩ | hd
        · exact absurd hq' hT
        · rcases hd'.of_put with ⟨-, hq', -⟩ | hd'
          · exact absurd hq' hT
          · exact hu.once d d' hd hd'
  · refine hu.of_frame ?_ fun d hd => ?_
    · exact getSessionRefreshHash_rotateRefresh_of_ne s.store o.now (Ne.symm hq) ..
    · rcases hd.of_put with ⟨-, rfl, -⟩ | hd
      · exact absurd rfl hq
      · exact hd

theorem refreshStep_caught {m : RefreshMove} (hk : Caught h sid T c s)
    (hm : InOrder h sid T s m) (hstep : refreshStep h cfg acc s m = some s') :
    Caught h sid T c s' := by
  obtain ⟨⟨x, hx, hxT⟩, hstand⟩ := hk
  rcases refreshStep_cases hstep with
    ⟨q, rfl, rfl⟩ | ⟨d, o, q, pc, t', pc', rfl, hd, hs, rfl⟩
  · refine ⟨⟨x, hx, hxT⟩, fun p hp => ?_⟩
    rcases Pool.call_enter hp with hp | ⟨-, hcall⟩
    · exact hstand p hp
    · cases hcall
      exact .inl rfl
  constructor
  · -- the hash stays another one than that of `T`
    rcases hs.hash_or_rotate with ⟨hhash, -⟩ | ⟨sess, u, new, rfl, htok, rfl⟩
    · exact ⟨x, (hhash sid).trans hx, hxT⟩
    by_cases hq : q.sessionID = sid
    · obtain ⟨hcur, hfresh⟩ := hm ⟨q, .rotating sess u⟩ hd hq
      refine ⟨_, ?_, hfresh new htok⟩
      rw [← hq]
      exact getSessionRefreshHash_rotateRefresh hcur ..
    · refine ⟨x, ?_, hxT⟩
      exact (getSessionRefreshHash_rotateRefresh_of_ne s.store o.now (Ne.symm hq) ..).trans hx
  · intro p hp
    rcases Pool.call_put hp with ⟨rfl, hcall⟩ | ⟨-, hp⟩
    · cases hcall
      cases hs with
      | refused hdead =>
        obtain ⟨row, hrow, rfl⟩ := Option.map_eq_some_iff.mp hx
        refine .inr (.inr (.inr ⟨rfl, row, hrow, ?_⟩))
        rcases hdead row hrow with hrev | hexp
        · exact hrev
        · rw [Option.isSome_iff_ne_none]
          intro hnone
          exact hm _ hd rfl row hrow hxT hnone hexp
      | loaded sess => exact .inr (.inl ⟨sess, rfl⟩)
      | mismatch sess hne => exact .inr (.inr (.inl rfl))
      | matched sess heq =>
        rw [heq] at hx
        exact absurd (Option.some.inj hx).symm hxT
      | revoke =>
        obtain ⟨row, hrow, -⟩ := Option.map_eq_some_iff.mp hx
        exact .inr (.inr (.inr ⟨rfl, revoked_revokeSession hrow o.now⟩))
      | noUser sess | user sess u | noToken sess u =>
        rcases hstand _ hd with hp | ⟨_, hp⟩ | hp | ⟨hp, -⟩ <;> cases hp
      | rotate sess u new htok => rcases hstand _ hd with hp | ⟨_, hp⟩ | hp | ⟨hp, -⟩ <;> cases hp
    · rcases hstand p hp with hp | hp | hp | ⟨hp, hrev⟩
      · exact .inl hp
      · exact .inr (.inl hp)
      · exact .inr (.inr (.inl hp))
      · exact .inr (.inr (.inr ⟨hp, hs.revoked hrev⟩))

/-- **A refresh token is single-use in the runs that rotate in order.** The
run starts from a session whose stored hash is that of `T`, with no call under
way. At most one call that presents `T` gets tokens; and once one has, every
other call that presents `T` and has not made its comparison yet returns
`ErrSessionInvalid` and leaves the session revoked. -/
theorem refresh_single_use (h : Hashing) (cfg : Config) (acc : Accounts) (sid : UUID) (T : String)
    (t : Sessions) (before after : List RefreshMove) (s₁ s₂ : RefreshPool)
    (hT : getSessionRefreshHash t sid = some (hashToken h T))
    (h₁ : exec (refreshStep h cfg acc) ⟨t, []⟩ before = some s₁)
    (h₂ : exec (refreshStep h cfg acc) s₁ after = some s₂)
    (g₁ : Guarded (refreshStep h cfg acc) (InOrder h sid T) ⟨t, []⟩ before)
    (g₂ : Guarded (refreshStep h cfg acc) (InOrder h sid T) s₁ after) :
    (∀ c c', ReturnedTokens sid T s₂ c → ReturnedTokens sid T s₂ c' → c = c') ∧
    ∀ c₀, ReturnedTokens sid T s₁ c₀ → ∀ c result,
      (∀ call, s₁.call c = some call → call.pc = .loading ∨ ∃ sess, call.pc = .comparing sess) →
      s₂.call c = some ⟨⟨sid, T⟩, .returned result⟩ → result = .error .sessionInvalid ∧
      Revoked s₂.store sid := by
  have hnone : ∀ c, ¬ ReturnedTokens sid T ⟨t, []⟩ c := by
    rintro c ⟨tk, htk⟩
    cases htk
  have hu₀ : UsedOnce h sid T ⟨t, []⟩ :=
    ⟨⟨_, hT⟩, fun _ => hnone, fun c _ hc => absurd hc (hnone c)⟩
  have hu₁ := exec_invariant refreshStep_usedOnce g₁ h₁ hu₀
  refine ⟨(exec_invariant refreshStep_usedOnce g₂ h₂ hu₁).once, ?_⟩
  intro c₀ hc₀ c result hearly hret
  obtain ⟨x, hx⟩ := hu₁.present
  have hspent : x ≠ hashToken h T := by
    rintro rfl
    exact hu₁.unspent hx c₀ hc₀
  have hk₁ : Caught h sid T c s₁ := by
    refine ⟨⟨x, hx, hspent⟩, fun pc hpc => ?_⟩
    rcases hearly _ hpc with hp | hp
    · exact .inl hp
    · exact .inr (.inl hp)
  have hk₂ := exec_invariant refreshStep_caught g₂ h₂ hk₁
  rcases hk₂.standing _ hret with hp | ⟨_, hp⟩ | hp | ⟨hp, hrev⟩
  · cases hp
  · cases hp
  · cases hp
  · cases hp
    exact ⟨rfl, hrev⟩

end

/-! ## One session, two calls -/

def sampleConfig : Config where
  refreshTokenTTL := 24 * hour
  accessTokenTTL := 15 * minute
  sessionIdleTTL := 30 * minute
  sessionAbsoluteTTL := 12 * hour

def alice : User where
  id := ⟨7⟩
  username := "alice"
  tenantId := ⟨1⟩
  isSuperAdmin := false
  isDisabled := false
  mustChangePw := false

def sampleAccounts : Accounts where
  getUserByID id := if id = alice.id then some alice else none
  userPermissions _ := some []

/-- A session of `alice` that starts at time 0 with the refresh token `T`. -/
def aliceSession (id : UUID) (T : String) : Session where
  id := id
  userId := alice.id
  refreshHash := hashToken freeHashing T
  ip := none
  userAgent := ""
  mfaPassed := false
  createdAt := 0
  lastSeenAt := 0
  expiresAt := 24 * hour
  revokedAt := none

def sampleSessions : Sessions := ⟨[aliceSession ⟨1⟩ "T"], by decide⟩

def drawing (now : Instant) (token : String) : Outside := ⟨now, some token, ""⟩

def samplePool : RefreshPool := ⟨sampleSessions, []⟩

/-- Call `c` from its start to the end of its `n`-th statement. -/
def callAlone (c n : ℕ) (presented : String) (o : Outside) : List RefreshMove :=
  .begin ⟨⟨1⟩, presented⟩ :: (List.replicate n o).map (.advance c)

theorem refresh_single_use_replayed :
    ∃ s₁ s₂, exec (refreshStep freeHashing sampleConfig sampleAccounts) samplePool
      (callAlone 0 4 "T" (drawing 10 "U")) = some s₁ ∧
    exec (refreshStep freeHashing sampleConfig sampleAccounts) s₁
      (callAlone 1 3 "T" (drawing 20 "V")) = some s₂ ∧
    ReturnedTokens ⟨1⟩ "T" s₁ 0 ∧
    (∀ c c', ReturnedTokens ⟨1⟩ "T" s₂ c → ReturnedTokens ⟨1⟩ "T" s₂ c' → c = c') ∧
    Revoked s₂.store ⟨1⟩ := by
  refine ⟨_, _, rfl, rfl, ⟨_, rfl⟩, ?_⟩
  have hmain := refresh_single_use freeHashing sampleConfig sampleAccounts ⟨1⟩ "T" sampleSessions
    (callAlone 0 4 "T" (drawing 10 "U")) (callAlone 1 3 "T" (drawing 20 "V")) _ _
    rfl rfl rfl (by decide +kernel) (by decide +kernel)
  refine ⟨hmain.1, (hmain.2 0 ⟨_, rfl⟩ 1 (.error .sessionInvalid) ?_ rfl).2⟩
  rintro call ⟨⟩

/-- Two calls that both compare before either rotates: both get tokens for
`T`, and the session is not revoked. -/
theorem refresh_race_returns_twice :
    ∃ s, exec (refreshStep freeHashing sampleConfig sampleAccounts) samplePool
      (callAlone 0 2 "T" (drawing 10 "U") ++ callAlone 1 4 "T" (drawing 10 "V") ++
        (List.replicate 2 (drawing 10 "U")).map (.advance 0)) = some s ∧
    ReturnedTokens ⟨1⟩ "T" s 0 ∧ ReturnedTokens ⟨1⟩ "T" s 1 ∧ ¬ Revoked s.store ⟨1⟩ := by
  refine ⟨_, rfl, ⟨_, rfl⟩, ⟨_, rfl⟩, ?_⟩
  rintro ⟨row, hrow, hrev⟩
  cases hrow
  cases hrev

end Moorgate.Auth
