import Moorgate.Auth.Refresh

/-!
# Idle and absolute timeouts: `loadPrincipal`, `Logout` and `ReapStaleSessions`

`loadPrincipal` ends a session that has been idle for longer than `SessionIdleTTL` or is older than
`SessionAbsoluteTTL`, and so does the reaper. `Refresh` looks at neither bound and sets
`last_seen_at`. So the absolute bound is final in every run, and the idle bound in those in which
no `Refresh` is accepted on a session that is past it (`NoLateRefresh`). The calls are one piece
each, over a clock that does not go back; the account tables may differ at every call.
-/

namespace Moorgate.Auth

open Framework Models Store

structure Principal where
  (userID sessionID : UUID)
  username : String
  isSuperAdmin : Bool
  permissions : List String
  mustChangePw : Bool
  tenantID : UUID
deriving DecidableEq

def principalOf (sess : Session) (u : User) (perms : List String) : Principal where
  userID := u.id
  sessionID := sess.id
  username := u.username
  isSuperAdmin := u.isSuperAdmin
  permissions := perms
  mustChangePw := u.mustChangePw
  tenantID := u.tenantId

/-- `SessionIdleTTL > 0 && time.Since(LastSeenAt) > SessionIdleTTL`. -/
def IdleOut (cfg : Config) (now : Instant) (sess : Session) : Prop :=
  0 < cfg.sessionIdleTTL ∧ cfg.sessionIdleTTL < now - sess.lastSeenAt

/-- `SessionAbsoluteTTL > 0 && time.Since(CreatedAt) > SessionAbsoluteTTL`. -/
def AbsoluteOut (cfg : Config) (now : Instant) (sess : Session) : Prop :=
  0 < cfg.sessionAbsoluteTTL ∧ cfg.sessionAbsoluteTTL < now - sess.createdAt

instance (cfg : Config) (now : Instant) (sess : Session) : Decidable (IdleOut cfg now sess) :=
  inferInstanceAs (Decidable (_ ∧ _))

instance (cfg : Config) (now : Instant) (sess : Session) : Decidable (AbsoluteOut cfg now sess) :=
  inferInstanceAs (Decidable (_ ∧ _))

def endSession (now : Instant) (id : UUID) (t : Sessions) : Sessions := revokeSession now id t

def logout (now : Instant) (sessionID : UUID) (t : Sessions) : Sessions :=
  endSession now sessionID t

/-- The number of sessions ended, and the table. -/
def reapStaleSessions (cfg : Config) (now : Instant) (t : Sessions) : ℕ × Sessions :=
  if cfg.sessionIdleTTL ≤ 0 ∧ cfg.sessionAbsoluteTTL ≤ 0 then (0, t)
  else
    let stale := listStaleSessions now cfg.sessionIdleTTL cfg.sessionAbsoluteTTL t
    (stale.length, stale.foldl (fun t sess => endSession now sess.id t) t)

def loadPrincipal (cfg : Config) (acc : Accounts) (now : Instant) (claims : Claims) (t : Sessions) :
    Except AuthError Principal × Sessions :=
  match getSession t claims.sessionID with
  | none => (.error .sessionInvalid, t)
  | some sess =>
    if sess.revokedAt.isSome ∨ sess.expiresAt < now then (.error .sessionInvalid, t)
    else if IdleOut cfg now sess then (.error .sessionInvalid, endSession now sess.id t)
    else if AbsoluteOut cfg now sess then (.error .sessionInvalid, endSession now sess.id t)
    else
      match acc.getUserByID claims.userID with
      | none => (.error .sessionInvalid, endSession now sess.id t)
      | some u =>
        if u.isDisabled then (.error .sessionInvalid, endSession now sess.id t)
        else
          match acc.userPermissions u.id with
          | none => (.error .store, t)
          | some perms => (.ok (principalOf sess u perms), touchSession now sess.id t)

/-- A bound that `loadPrincipal` looks at and that time does not take back. -/
structure Bound (cfg : Config) (P : Instant → Session → Prop) : Prop where
  mono : ∀ {a b sess}, a ≤ b → P a sess → P b sess
  checked : ∀ {now sess}, P now sess → IdleOut cfg now sess ∨ AbsoluteOut cfg now sess

theorem idleOut_bound (cfg : Config) : Bound cfg (IdleOut cfg) where
  mono hab h := ⟨h.1, lt_of_lt_of_le h.2 (sub_le_sub_right hab _)⟩
  checked := .inl

theorem absoluteOut_bound (cfg : Config) : Bound cfg (AbsoluteOut cfg) where
  mono hab h := ⟨h.1, lt_of_lt_of_le h.2 (sub_le_sub_right hab _)⟩
  checked := .inr

/-! ## What the calls do to the table -/

variable {cfg : Config}

theorem loadPrincipal_refuses {now : Instant} {claims : Claims} {t : Sessions}
    {sess : Session} (hsess : t.lookup claims.sessionID = some sess)
    (hout : sess.revokedAt.isSome ∨ IdleOut cfg now sess ∨ AbsoluteOut cfg now sess)
    (acc : Accounts) : (loadPrincipal cfg acc now claims t).1 = .error .sessionInvalid := by
  unfold loadPrincipal getSession
  simp only [hsess]
  split
  · rfl
  rename_i hdead
  split
  · rfl
  rename_i hidle
  rcases hout with hrev | hidle' | habs
  · exact absurd (.inl hrev) hdead
  · exact absurd hidle' hidle
  · rw [if_pos habs]

/-! ## Runs -/

inductive SessionOp where
  | loadPrincipal (acc : Accounts) (now : Instant) (claims : Claims)
  | refresh (acc : Accounts) (o : Outside) (sessionID : UUID) (presented : String)
  | logout (now : Instant) (sessionID : UUID)
  | reap (now : Instant)

def SessionOp.now : SessionOp → Instant
  | .loadPrincipal _ now _ => now
  | .refresh _ o _ _ => o.now
  | .logout now _ | .reap now => now

/-- The session table and the time of the last call. -/
structure TimedSessions where
  clock : Instant
  sessions : Sessions

def SessionOp.perform (h : Hashing) (cfg : Config) (t : Sessions) : SessionOp → Sessions
  | .loadPrincipal acc now claims => (Auth.loadPrincipal cfg acc now claims t).2
  | .refresh acc o sessionID presented => (Auth.refresh h cfg acc o sessionID presented t).2
  | .logout now sessionID => Auth.logout now sessionID t
  | .reap now => (reapStaleSessions cfg now t).2

def sessionStep (h : Hashing) (cfg : Config) (s : TimedSessions) (op : SessionOp) :
    Option TimedSessions :=
  if s.clock ≤ op.now then some ⟨op.now, op.perform h cfg s.sessions⟩ else none

variable {s s' : TimedSessions}

variable {h : Hashing} {op : SessionOp}

theorem sessionStep_eq_some : sessionStep h cfg s op = some s' ↔
      s.clock ≤ op.now ∧ s' = ⟨op.now, op.perform h cfg s.sessions⟩ := by
  unfold sessionStep
  by_cases hle : s.clock ≤ op.now
  · simp [hle, eq_comm]
  · simp [hle]

def Ended (P : Instant → Session → Prop) (sid : UUID) (s : TimedSessions) : Prop :=
  ∃ sess, s.sessions.lookup sid = some sess ∧ (sess.revokedAt.isSome ∨ P s.clock sess)

section

variable {P : Instant → Session → Prop} {sid : UUID} {now now' : Instant} {t : Sessions}

theorem Ended.mono (hmono : ∀ sess, P now sess → P now' sess) (h : Ended P sid ⟨now, t⟩) :
    Ended P sid ⟨now', t⟩ := by
  obtain ⟨sess, hsess, hout⟩ := h
  exact ⟨sess, hsess, hout.imp_right (hmono sess)⟩

theorem Ended.of_ne {id : UUID} {p : Session → Bool} {f : Session → Session}
    {hf : ∀ r, (f r).id = r.id} (hne : sid ≠ id) (h : Ended P sid ⟨now, t⟩) :
    Ended P sid ⟨now, updateSession id p f hf t⟩ := by
  obtain ⟨sess, hsess, hout⟩ := h
  exact ⟨sess, (lookup_updateSession_of_ne t hne p f hf).trans hsess, hout⟩

theorem Ended.revokeSession (h : Ended P sid ⟨now, t⟩) (at_ : Instant) (id : UUID) :
    Ended P sid ⟨now, revokeSession at_ id t⟩ := by
  by_cases hid : sid = id
  · subst hid
    obtain ⟨sess, hsess, -⟩ := h
    obtain ⟨row, hrow, hrev⟩ := revoked_revokeSession hsess at_
    exact ⟨row, hrow, .inl hrev⟩
  · exact h.of_ne hid

theorem Ended.foldl_endSession (at_ : Instant) :
    ∀ (stale : List Session) {t : Sessions}, Ended P sid ⟨now, t⟩ →
      Ended P sid ⟨now, stale.foldl (fun t sess => endSession at_ sess.id t) t⟩
  | [], _, h => h
  | sess :: stale, _, h => Ended.foldl_endSession at_ stale (h.revokeSession at_ sess.id)

theorem Ended.reapStaleSessions (h : Ended P sid ⟨now, t⟩) (cfg : Config) (at_ : Instant) :
    Ended P sid ⟨now, (reapStaleSessions cfg at_ t).2⟩ := by
  unfold Auth.reapStaleSessions
  split
  · exact h
  · exact h.foldl_endSession at_ _

end

/-- An accepted rotation of the session leaves it past the bound if it was. -/
def RotationKeeps (h : Hashing) (cfg : Config) (P : Instant → Session → Prop) (sid : UUID)
    (s : TimedSessions) : SessionOp → Prop
  | .refresh acc o sessionID presented => sessionID = sid →
      (refresh h cfg acc o sessionID presented s.sessions).1.isOk →
      ∀ sess, s.sessions.lookup sid = some sess → P o.now sess →
        ∀ newHash, P o.now { sess with refreshHash := newHash, lastSeenAt := o.now,
                                       expiresAt := o.now + cfg.refreshTokenTTL }
  | _ => True

theorem sessionStep_ended {P : Instant → Session → Prop} {sid : UUID} (hP : Bound cfg P)
    (hend : Ended P sid s) (hrot : RotationKeeps h cfg P sid s op)
    (hstep : sessionStep h cfg s op = some s') : Ended P sid s' := by
  obtain ⟨hle, rfl⟩ := sessionStep_eq_some.mp hstep
  replace hend : Ended P sid ⟨op.now, s.sessions⟩ := hend.mono fun _ => hP.mono hle
  cases op with
  | loadPrincipal acc now claims =>
    show Ended P sid ⟨now, (loadPrincipal cfg acc now claims s.sessions).2⟩
    fun_cases loadPrincipal cfg acc now claims s.sessions with
    | case1 | case2 | case7 => exact hend
    | case8 sess hsess hdead hidle habs =>
      dsimp only
      by_cases hsid : sid = sess.id
      · -- the call went through, so the session was not ended after all
        obtain ⟨sess', hsess', hout⟩ := hend
        rw [hsid, (Table.lookup_eq_some.mp hsess).2] at hsess'
        cases hsess.symm.trans hsess'
        rcases hout with hrev | hout
        · exact absurd (.inl hrev) hdead
        · rcases hP.checked hout with hi | ha
          · exact absurd hi hidle
          · exact absurd ha habs
      · exact hend.of_ne hsid
    | _ => exact hend.revokeSession ..
  | refresh acc o sessionID presented =>
    show Ended P sid ⟨o.now, (refresh h cfg acc o sessionID presented s.sessions).2⟩
    dsimp only [RotationKeeps] at hrot
    revert hrot
    fun_cases refresh h cfg acc o sessionID presented s.sessions with
    | case3 => exact fun _ => hend.revokeSession ..
    | case7 =>
      intro hrot
      by_cases hsid : sessionID = sid
      · subst hsid
        obtain ⟨sess, hsess, hout⟩ := hend
        refine ⟨_, by rw [lookup_rotateRefresh, hsess, Option.map_some], ?_⟩
        rcases hout with hrev | hout
        · exact .inl hrev
        · exact .inr (hrot rfl rfl sess hsess hout _)
      · dsimp only
        exact hend.of_ne (Ne.symm hsid)
    | _ => exact fun _ => hend
  | logout now sessionID => exact hend.revokeSession ..
  | reap now => exact hend.reapStaleSessions cfg now

/-- No `Refresh` is accepted on the session once it is past the idle bound. -/
def NoLateRefresh (h : Hashing) (cfg : Config) (sid : UUID) (s : TimedSessions) : SessionOp → Prop
  | .refresh acc o sessionID presented => sessionID = sid →
      (refresh h cfg acc o sessionID presented s.sessions).1.isOk →
      ∀ sess ∈ s.sessions.lookup sid, ¬ IdleOut cfg o.now sess
  | _ => True

instance (h : Hashing) (cfg : Config) (sid : UUID) (s : TimedSessions) (op : SessionOp) :
    Decidable (NoLateRefresh h cfg sid s op) := by
  unfold NoLateRefresh
  split <;> infer_instance

variable {h : Hashing} {cfg : Config} {sid : UUID}

theorem idle_ended_run {ops : List SessionOp}
    (hg : Guarded (sessionStep h cfg) (NoLateRefresh h cfg sid) s ops)
    (hrun : exec (sessionStep h cfg) s ops = some s') (hend : Ended (IdleOut cfg) sid s) :
    Ended (IdleOut cfg) sid s' := by
  refine exec_invariant (fun {s op s'} hi hop hstep => ?_) hg hrun hend
  refine sessionStep_ended (idleOut_bound cfg) hi ?_ hstep
  cases op with
  | refresh acc o sessionID presented =>
    intro hsid hok sess hsess hout
    exact absurd hout (hop hsid hok sess hsess)
  | loadPrincipal acc now claims | logout now sessionID | reap now => trivial

theorem absolute_ended_run {ops : List SessionOp} (hrun : exec (sessionStep h cfg) s ops = some s')
    (hend : Ended (AbsoluteOut cfg) sid s) : Ended (AbsoluteOut cfg) sid s' := by
  refine exec_invariant_of_step (fun {s op s'} hi hstep => ?_) hrun hend
  refine sessionStep_ended (absoluteOut_bound cfg) hi ?_ hstep
  cases op with
  | refresh acc o sessionID presented =>
    -- a rotation does not write `created_at`
    intro _ _ sess _ hout newHash
    exact hout
  | loadPrincipal acc now claims | logout now sessionID | reap now => trivial

/-- **Timeouts are final.** Past the absolute bound no later `loadPrincipal`
succeeds, whatever comes in between. Past the idle bound none does either,
when no `Refresh` is accepted on the session after that. -/
theorem timeouts_final (h : Hashing) (cfg : Config) (sid : UUID) (s s' : TimedSessions)
    (ops : List SessionOp) (sess : Session) (hsess : s.sessions.lookup sid = some sess)
    (hrun : exec (sessionStep h cfg) s ops = some s') :
    (AbsoluteOut cfg s.clock sess → ∀ acc now claims, s'.clock ≤ now → claims.sessionID = sid →
      (loadPrincipal cfg acc now claims s'.sessions).1 = .error .sessionInvalid) ∧
    (IdleOut cfg s.clock sess → Guarded (sessionStep h cfg) (NoLateRefresh h cfg sid) s ops →
      ∀ acc now claims, s'.clock ≤ now → claims.sessionID = sid →
        (loadPrincipal cfg acc now claims s'.sessions).1 = .error .sessionInvalid) := by
  constructor
  · intro hout acc now claims hnow hclaims
    obtain ⟨row, hrow, hrowOut⟩ := absolute_ended_run hrun ⟨sess, hsess, .inr hout⟩
    refine loadPrincipal_refuses (hclaims ▸ hrow) ?_ acc
    exact hrowOut.imp_right fun ha => .inr ((absoluteOut_bound cfg).mono hnow ha)
  · intro hout hg acc now claims hnow hclaims
    obtain ⟨row, hrow, hrowOut⟩ := idle_ended_run hg hrun ⟨sess, hsess, .inr hout⟩
    refine loadPrincipal_refuses (hclaims ▸ hrow) ?_ acc
    exact hrowOut.imp_right fun hi => .inl ((idleOut_bound cfg).mono hnow hi)

def aliceClaims : Claims := issueAccessToken sampleConfig 0 alice.id ⟨1⟩ alice.username

/-- `alice`'s session after an hour without a request, twice the idle bound. -/
def idleHour : TimedSessions := ⟨hour, sampleSessions⟩

/-- A refresh with a wrong token, then the reaper. -/
def lateCalls : List SessionOp :=
  [.refresh sampleAccounts (drawing hour "U") ⟨1⟩ "guess", .reap (hour + minute)]

theorem timeouts_final_idle_hour :
    ∃ s', exec (sessionStep freeHashing sampleConfig) idleHour lateCalls = some s' ∧
    (loadPrincipal sampleConfig sampleAccounts (hour + minute) aliceClaims s'.sessions).1 =
      .error .sessionInvalid := by
  refine ⟨_, rfl, ?_⟩
  exact (timeouts_final freeHashing sampleConfig ⟨1⟩ idleHour _ lateCalls (aliceSession ⟨1⟩ "T")
    rfl rfl).2 (by decide) (by decide +kernel) _ _ _ (by decide) rfl

/-- The same session is taken up again with its refresh token: the request
after that succeeds. -/
theorem refresh_revives_idle_session :
    IdleOut sampleConfig idleHour.clock (aliceSession ⟨1⟩ "T") ∧ ∃ s',
      exec (sessionStep freeHashing sampleConfig) idleHour
        [.refresh sampleAccounts (drawing hour "U") ⟨1⟩ "T"] = some s' ∧
      (loadPrincipal sampleConfig sampleAccounts hour aliceClaims s'.sessions).1.isOk :=
  ⟨by decide, _, rfl, by decide +kernel⟩

end Moorgate.Auth
