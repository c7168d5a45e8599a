import Moorgate.Auth.Timeouts
import Moorgate.Identity.Issuer

/-!
# Credentials and the end of a session

One backend instance: the session table, the vault, the certificate tables, and the calls that
open, use, renew or end a session, with the hooks that `api/server.go` registers. `CreateSession`
issues a credential after it has inserted the session, `loadPrincipal` when the vault has none, and
`endSession` destroys the credentials before it revokes the session.

A revoked session has no entry in the vault and no certificate that is not revoked, along every run
that keeps off two kinds of step (`Undisturbed`): a credential stored for a session that is revoked
or whose `endSession` is past removing it, and the replay branch of `Refresh`, which revokes a
session without the hook.
-/

namespace Moorgate.Auth

open Framework Models Store Identity

structure Backend where
  sessions : Sessions
  vault : Vault
  db : CertDb

/-- What a statement takes from outside: time and random source, the account
tables, the id of a new row, the address parser, and whether the certificate
authority signs. -/
structure Input where
  o : Outside
  acc : Accounts
  newID : UUID
  castInet : String → Option String
  signs : Bool

structure LoginRequest where
  user : User
  (ip ua : String)
  mfaPassed : Bool

inductive AuthRequest where
  | login (req : LoginRequest)
  | loadPrincipal (claims : Claims)
  | refresh (req : RefreshRequest)
  | logout (sessionID : UUID)
  | destroyUserSessions (userID keep : UUID)
  | reapStaleSessions

inductive AuthResult where
  | session (result : Except AuthError Session)
  | principal (result : Except AuthError Principal)
  | ended

/-- The statement a call stands before. What it returns at the end is carried
along once it is known. -/
inductive AuthPc where
  | creating (req : LoginRequest) -- `INSERT INTO sessions`
  | loading (claims : Claims) -- `GetSession`
  | loadingUser (claims : Claims) (sess : Session) -- `GetUserByID`
  | loadingPermissions (sess : Session) (u : User) -- `UserPermissions`
  | touching (sess : Session) (u : User) (perms : List String) -- `TouchSession`
  | ensuring (sess : Session) (u : User) (r : AuthResult) -- `vault.Get`
  | allocating (req : IssueRequest) (r : AuthResult) -- `NextCertSerial`
  | inserting (req : IssueRequest) (serial : ℕ) (r : AuthResult) -- `InsertCertificate`
  | putting (cred : Credential) (r : AuthResult) -- `vault.put`
  | refreshing (call : RefreshCall)
  | listing (userID keep : UUID) -- `ListUserSessions`
  | reaping -- `ListStaleSessions`
  | destroying (sid : UUID) (rest : List UUID) (r : AuthResult) -- `vault.Destroy`
  | revokingCerts (sid : UUID) (rest : List UUID) (r : AuthResult) -- `RevokeSessionCertificates`
  | revokingSession (sid : UUID) (rest : List UUID) (r : AuthResult) -- `RevokeSession`
  | returned (r : AuthResult)

def endSessions (r : AuthResult) : List UUID → AuthPc
  | [] => .returned r
  | sid :: rest => .destroying sid rest r

def sessionPrincipals (username : String) : List String :=
  dedupePrincipals [principalGlobal, principalUser username]

def refused : AuthResult := .principal (.error .sessionInvalid)

def authStart : AuthRequest → AuthPc
  | .login req => .creating req
  | .loadPrincipal claims => .loading claims
  | .refresh req => .refreshing (refreshStart req)
  | .logout sessionID => .destroying sessionID [] .ended
  | .destroyUserSessions userID keep => .listing userID keep
  | .reapStaleSessions => .reaping

def authAct (h : Hashing) (cfg : Config) (icfg : IssuerConfig) (i : Input) (b : Backend) :
    AuthPc → Option (Backend × AuthPc)
  | .creating req =>
    match i.o.token with
    | none => some (b, .returned (.session (.error .randomSource)))
    | some token =>
      match createSession i.castInet i.o.now i.newID req.user.id (hashToken h token) req.ip req.ua
          req.mfaPassed (i.o.now + cfg.refreshTokenTTL) b.sessions with
      | none => some (b, .returned (.session (.error .store)))
      | some (sess, t) =>
        some ({ b with sessions := t },
          .allocating (sessionRequest sess.id req.user.id req.user.username
            (sessionPrincipals req.user.username)) (.session (.ok sess)))
  | .loading claims =>
    match getSession b.sessions claims.sessionID with
    | none => some (b, .returned refused)
    | some sess =>
      if sess.revokedAt.isSome ∨ sess.expiresAt < i.o.now then some (b, .returned refused)
      else if IdleOut cfg i.o.now sess then some (b, .destroying sess.id [] refused)
      else if AbsoluteOut cfg i.o.now sess then some (b, .destroying sess.id [] refused)
      else some (b, .loadingUser claims sess)
  | .loadingUser claims sess =>
    match i.acc.getUserByID claims.userID with
    | none => some (b, .destroying sess.id [] refused)
    | some u =>
      if u.isDisabled then some (b, .destroying sess.id [] refused)
      else some (b, .loadingPermissions sess u)
  | .loadingPermissions sess u =>
    match i.acc.userPermissions u.id with
    | none => some (b, .returned (.principal (.error .store)))
    | some perms => some (b, .touching sess u perms)
  | .touching sess u perms =>
    some ({ b with sessions := touchSession i.o.now sess.id b.sessions },
      .ensuring sess u (.principal (.ok (principalOf sess u perms))))
  | .ensuring sess u r =>
    if (b.vault.get sess.id).isSome then some (b, .returned r)
    else some (b, .allocating (sessionRequest sess.id u.id u.username
      (sessionPrincipals u.username)) r)
  | .allocating req r =>
    let (serial, db) := nextCertSerial b.db
    if i.signs then some ({ b with db }, .inserting req serial r)
    else some ({ b with db }, .returned r)
  | .inserting req serial r =>
    match insertCertificate (certRow icfg i.o.now serial req) b.db with
    | none => some (b, .returned r)
    | some db => some ({ b with db }, .putting (credentialOf icfg i.o.now serial req) r)
  | .putting cred r => some ({ b with vault := b.vault.put cred }, .returned r)
  | .refreshing call =>
    (refreshAct h cfg i.acc i.o b.sessions call).map fun next =>
      ({ b with sessions := next.1 }, .refreshing next.2)
  | .listing userID keep =>
    some (b, endSessions .ended (((listUserSessions userID b.sessions).map Session.id).filter
      fun id => !(decide (keep ≠ UUID.nil) && decide (id = keep))))
  | .reaping =>
    if cfg.sessionIdleTTL ≤ 0 ∧ cfg.sessionAbsoluteTTL ≤ 0 then some (b, .returned .ended)
    else some (b, endSessions .ended ((listStaleSessions i.o.now cfg.sessionIdleTTL
      cfg.sessionAbsoluteTTL b.sessions).map Session.id))
  | .destroying sid rest r =>
    some ({ b with vault := b.vault.destroy sid }, .revokingCerts sid rest r)
  | .revokingCerts sid rest r =>
    some ({ b with db := (revokeSessionCertificates i.o.now sid "session_ended" b.db).2 },
      .revokingSession sid rest r)
  | .revokingSession sid rest r =>
    some ({ b with sessions := revokeSession i.o.now sid b.sessions }, endSessions r rest)
  | .returned _ => none

abbrev AuthPool := Pool Backend AuthPc
abbrev AuthMove := Move AuthRequest Input

def authStep (h : Hashing) (cfg : Config) (icfg : IssuerConfig) :
    AuthPool → AuthMove → Option AuthPool :=
  poolStep authStart (authAct h cfg icfg)

variable {h : Hashing} {cfg : Config} {icfg : IssuerConfig}

def AuthPc.finished : AuthPc → Bool
  | .returned _ => true
  | .refreshing call => call.pc.isReturned
  | _ => false

def Quiet (s : AuthPool) : Prop := ∀ pc ∈ s.calls, pc.finished

instance (s : AuthPool) : Decidable (Quiet s) := inferInstanceAs (Decidable (∀ pc ∈ s.calls, _))

/-! ## What a statement can do to credentials -/

def Bare (b : Backend) (sid : UUID) : Prop := ¬ Holds b.vault sid ∧ ¬ HasLiveCert b.db sid

instance (b : Backend) (sid : UUID) : Decidable (Bare b sid) := inferInstanceAs (Decidable (_ ∧ _))

/-- What a call that is in the middle of `endSession` has already done. -/
def AuthPc.Promise (b : Backend) : AuthPc → Prop
  | .revokingCerts sid _ _ => ¬ Holds b.vault sid
  | .revokingSession sid _ _ => Bare b sid
  | _ => True

/-- The statements by their effect on sessions and credentials. -/
inductive AuthEffect (icfg : IssuerConfig) (i : Input) (b : Backend) :
    AuthPc → Backend → AuthPc → Prop
  | neutral (pc : AuthPc) (b' : Backend) (pc' : AuthPc)
      (hsess : ∀ sid, Revoked b'.sessions sid → Revoked b.sessions sid)
      (hvault : b'.vault = b.vault) (hcerts : b'.db.certs = b.db.certs)
      (hpc : ∀ x, pc'.Promise x) : AuthEffect icfg i b pc b' pc'
  | replay (q : RefreshRequest) (call : RefreshCall) :
      AuthEffect icfg i b (.refreshing ⟨q, .revoking⟩)
        { b with sessions := revokeSession i.o.now q.sessionID b.sessions } (.refreshing call)
  | insert (req : IssueRequest) (serial : ℕ) (r : AuthResult) (db : CertDb)
      (hins : insertCertificate (certRow icfg i.o.now serial req) b.db = some db)
      (cred : Credential) :
      AuthEffect icfg i b (.inserting req serial r) { b with db } (.putting cred r)
  | put (cred : Credential) (r : AuthResult) :
      AuthEffect icfg i b (.putting cred r) { b with vault := b.vault.put cred } (.returned r)
  | destroy (sid : UUID) (rest : List UUID) (r : AuthResult) :
      AuthEffect icfg i b (.destroying sid rest r) { b with vault := b.vault.destroy sid }
        (.revokingCerts sid rest r)
  | revokeCerts (sid : UUID) (rest : List UUID) (r : AuthResult) :
      AuthEffect icfg i b (.revokingCerts sid rest r)
        { b with db := (revokeSessionCertificates i.o.now sid "session_ended" b.db).2 }
        (.revokingSession sid rest r)
  | revokeSession (sid : UUID) (rest : List UUID) (r : AuthResult) :
      AuthEffect icfg i b (.revokingSession sid rest r)
        { b with sessions := revokeSession i.o.now sid b.sessions } (endSessions r rest)

theorem promise_endSessions (b : Backend) (r : AuthResult) (sids : List UUID) :
    (endSessions r sids).Promise b := by
  cases sids <;> trivial

variable {i : Input} {b : Backend} {pc' : AuthPc}

theorem AuthEffect.idle (pc : AuthPc) (hpc : ∀ x, pc'.Promise x) : AuthEffect icfg i b pc b pc' :=
  .neutral pc b pc' (fun _ => id) rfl rfl hpc

theorem refreshing_effect {q : RefreshRequest} {pc pc' : RefreshPc}
    {t : Sessions} (hs : RefreshStmt h cfg i.acc i.o q b.sessions pc t pc') :
    AuthEffect icfg i b (.refreshing ⟨q, pc⟩) { b with sessions := t } (.refreshing ⟨q, pc'⟩) := by
  cases hs with
  | revoke => exact .replay q _
  | rotate sess u new htok =>
    exact .neutral _ _ _ (fun _ hsid => hsid.of_rotateRefresh) rfl rfl fun _ => trivial
  | _ => exact .neutral _ _ _ (fun _ => id) rfl rfl fun _ => trivial

variable {b' : Backend}

theorem authAct_effect {pc : AuthPc}
    (hact : authAct h cfg icfg i b pc = some (b', pc')) : AuthEffect icfg i b pc b' pc' := by
  revert hact
  fun_cases authAct h cfg icfg i b pc with
  | case3 req token htoken sess t hcreate =>
    rintro ⟨⟩
    obtain ⟨hins, -, -, hlive, -⟩ := createSession_eq_some hcreate
    exact .neutral _ _ _ (fun _ hsid => hsid.of_insert hins hlive) rfl rfl fun _ => trivial
  | case14 =>
    rintro ⟨⟩
    exact .neutral _ _ _ (fun _ hsid => hsid.of_touchSession) rfl rfl fun _ => trivial
  | case17 req r serial db hserial | case18 req r serial db hserial =>
    rintro ⟨⟩
    obtain ⟨-, rfl⟩ := Prod.mk.inj hserial
    exact .neutral _ _ _ (fun _ => id) rfl rfl fun _ => trivial
  | case20 req serial r db hins =>
    rintro ⟨⟩
    exact .insert req serial r db hins _
  | case21 cred r =>
    rintro ⟨⟩
    exact .put cred r
  | case22 call =>
    intro hact
    obtain ⟨⟨t, call'⟩, hcall, hnext⟩ := Option.map_eq_some_iff.mp hact
    obtain ⟨⟨t', pc'⟩, hpc, ⟨⟩⟩ := Option.map_eq_some_iff.mp hcall
    cases hnext
    exact refreshing_effect (refreshPcStep_stmt hpc)
  | case23 | case25 =>
    rintro ⟨⟩
    exact .idle _ fun x => promise_endSessions x _ _
  | case26 sid rest r =>
    rintro ⟨⟩
    exact .destroy sid rest r
  | case27 sid rest r =>
    rintro ⟨⟩
    exact .revokeCerts sid rest r
  | case28 sid rest r =>
    rintro ⟨⟩
    exact .revokeSession sid rest r
  | case29 => exact nofun
  | _ =>
    rintro ⟨⟩
    exact .idle _ fun _ => trivial

/-! ## Runs that are not disturbed -/

/-- The call is past the statement of `endSession` that revokes the session's
certificates. -/
def AuthPc.CertsGone (sid : UUID) : AuthPc → Prop
  | .revokingSession sid' _ _ => sid' = sid
  | _ => False

/-- The call is past the statement of `endSession` that empties the vault. -/
def AuthPc.KeysGone (sid : UUID) : AuthPc → Prop
  | .revokingCerts sid' _ _ | .revokingSession sid' _ _ => sid' = sid
  | _ => False

instance (sid : UUID) (pc : AuthPc) : Decidable (pc.CertsGone sid) := by
  unfold AuthPc.CertsGone
  split <;> infer_instance

instance (sid : UUID) (pc : AuthPc) : Decidable (pc.KeysGone sid) := by
  unfold AuthPc.KeysGone
  split <;> infer_instance

/-- The side condition on a statement, see the head of the file. -/
def PcUndisturbed (s : AuthPool) : AuthPc → Prop
  | .inserting req _ _ => ¬ Revoked s.store.sessions req.sessionID ∧
      ∀ pc ∈ s.calls, ¬ pc.CertsGone req.sessionID
  | .putting cred _ => ¬ Revoked s.store.sessions cred.sessionID ∧
      ∀ pc ∈ s.calls, ¬ pc.KeysGone cred.sessionID
  | .refreshing call => call.pc.isRevoking →
      Revoked s.store.sessions call.request.sessionID ∨ Bare s.store call.request.sessionID
  | _ => True

instance (s : AuthPool) (pc : AuthPc) : Decidable (PcUndisturbed s pc) := by
  unfold PcUndisturbed
  split <;> infer_instance

def Undisturbed (s : AuthPool) : AuthMove → Prop
  | .begin _ => True
  | .advance c _ => ∀ pc ∈ s.call c, PcUndisturbed s pc

instance (s : AuthPool) (m : AuthMove) : Decidable (Undisturbed s m) := by
  unfold Undisturbed
  split <;> infer_instance

/-- Revoked sessions are bare, and calls in `endSession` have done what they
have done. -/
structure Ends (s : AuthPool) : Prop where
  bare : ∀ sid, Revoked s.store.sessions sid → Bare s.store sid
  promise : ∀ pc ∈ s.calls, pc.Promise s.store

/-- A promise survives credentials of the sessions it does not speak of. -/
theorem AuthPc.Promise.mono {pc : AuthPc} (hpc : pc.Promise b)
    (hvault : ∀ sid, Holds b'.vault sid → Holds b.vault sid ∨ ¬ pc.KeysGone sid)
    (hcerts : ∀ sid, HasLiveCert b'.db sid → HasLiveCert b.db sid ∨ ¬ pc.CertsGone sid) :
    pc.Promise b' := by
  cases pc with
  | revokingCerts sid rest r => exact fun hh => (hvault sid hh).elim hpc fun hno => hno rfl
  | revokingSession sid rest r =>
    exact ⟨fun hh => (hvault sid hh).elim hpc.1 fun hno => hno rfl,
      fun hl => (hcerts sid hl).elim hpc.2 fun hno => hno rfl⟩
  | _ => trivial

/-- A step after which the sessions that are newly revoked are bare, and new credentials are
of sessions that are neither revoked nor being revoked. -/
theorem Ends.put {s : AuthPool} (he : Ends s) {c : ℕ}
    (hsess : ∀ sid, Revoked b'.sessions sid → Revoked s.store.sessions sid ∨ Bare b' sid)
    (hvault : ∀ sid, Holds b'.vault sid → Holds s.store.vault sid ∨
      (¬ Revoked s.store.sessions sid ∧ ∀ pc ∈ s.calls, ¬ pc.KeysGone sid))
    (hcerts : ∀ sid, HasLiveCert b'.db sid → HasLiveCert s.store.db sid ∨
      (¬ Revoked s.store.sessions sid ∧ ∀ pc ∈ s.calls, ¬ pc.CertsGone sid))
    (hpc : pc'.Promise b') : Ends (s.put c b' pc') where
  bare := by
    intro sid hsid
    rcases hsess sid hsid with hrev | hbare
    · obtain ⟨hv, hc⟩ := he.bare sid hrev
      exact ⟨fun hh => (hvault sid hh).elim hv fun hno => hno.1 hrev,
        fun hl => (hcerts sid hl).elim hc fun hno => hno.1 hrev⟩
    · exact hbare
  promise := by
    refine Pool.forall_put (fun pc hmem => (he.promise pc hmem).mono ?_ ?_) hpc
    · exact fun sid hh => (hvault sid hh).imp_right fun hno => hno.2 pc hmem
    · exact fun sid hl => (hcerts sid hl).imp_right fun hno => hno.2 pc hmem

theorem authStep_ends {s s' : AuthPool} {m : AuthMove} (he : Ends s) (hm : Undisturbed s m)
    (hstep : authStep h cfg icfg s m = some s') : Ends s' := by
  rcases poolStep_cases hstep with
    ⟨r, rfl, rfl⟩ | ⟨c, i, pc, b', pc', rfl, hc, hact, rfl⟩
  · refine ⟨he.bare, Pool.forall_enter he.promise ?_⟩
    cases r <;> trivial
  have hm := hm pc hc
  have hown := he.promise pc (Pool.mem_of_call hc)
  cases authAct_effect hact with
  | neutral _ _ _ hsess hvault hcerts hpc =>
    refine he.put (fun sid hsid => .inl (hsess sid hsid)) (fun _ hh => .inl (hvault ▸ hh))
      ?_ (hpc _)
    rintro sid ⟨cert, hcert, hlive⟩
    exact .inl ⟨cert, hcerts ▸ hcert, hlive⟩
  | replay q call =>
    refine he.put (fun sid hsid => ?_) (fun _ => .inl) (fun _ => .inl) trivial
    rcases hsid.of_revokeSession with hrev | rfl
    · exact .inl hrev
    · exact hm rfl
  | insert req serial r db hins cred =>
    refine he.put (fun _ => .inl) (fun _ => .inl) (fun sid hcert => ?_) trivial
    rcases hcert.of_insertCertificate hins with hold | hown
    · exact .inl hold
    · cases hown
      exact .inr hm
  | put cred r =>
    refine he.put (fun _ => .inl) (fun sid hh => ?_) (fun _ => .inl) trivial
    rcases hh.of_put with hold | rfl
    · exact .inl hold
    · exact .inr hm
  | destroy sid rest r =>
    exact he.put (fun _ => .inl) (fun _ hh => .inl hh.of_destroy) (fun _ => .inl)
      (not_holds_destroy s.store.vault sid)
  | revokeCerts sid rest r =>
    refine he.put (fun _ => .inl) (fun _ => .inl) (fun _ hc => .inl hc.of_revokeWhere) ?_
    exact ⟨hown, not_hasLiveCert_revokeSessionCertificates _ _ _ _⟩
  | revokeSession sid rest r =>
    refine he.put (fun k hk => ?_) (fun _ => .inl) (fun _ => .inl) (promise_endSessions _ _ _)
    rcases hk.of_revokeSession with hrev | rfl
    · exact .inl hrev
    · exact .inr hown

/-- **Credentials do not outlive the session** in a run that is not disturbed:
in every state it comes to, whether or not calls are under way, a revoked
session has no entry in the vault and no certificate that is not revoked. -/
theorem revoked_session_bare (h : Hashing) (cfg : Config) (icfg : IssuerConfig) (s s' : AuthPool)
    (moves : List AuthMove) (hidle : s.calls = [])
    (hbare : ∀ sid, Revoked s.store.sessions sid → Bare s.store sid)
    (hrun : exec (authStep h cfg icfg) s moves = some s')
    (hg : Guarded (authStep h cfg icfg) Undisturbed s moves) :
    ∀ sid, Revoked s'.store.sessions sid → Bare s'.store sid := by
  have he : Ends s := by
    refine ⟨hbare, fun pc hmem => ?_⟩
    rw [hidle] at hmem
    cases hmem
  exact (exec_invariant authStep_ends hg hrun he).bare

def sampleIssuer : IssuerConfig where
  userCertTTL := 12 * hour
  certRenewBefore := 3 * hour
  instanceID := none

def sampleInput (now : Instant) : Input where
  o := drawing now "T"
  acc := sampleAccounts
  newID := ⟨1⟩
  castInet := some
  signs := true

def freshPool : AuthPool := ⟨⟨.empty, .empty, .empty⟩, []⟩

def aliceLogin : List AuthMove :=
  .begin (.login ⟨alice, "", "", true⟩) :: (List.replicate 4 (sampleInput 0)).map (.advance 0)

def aliceLogout : List AuthMove :=
  .begin (.logout ⟨1⟩) :: (List.replicate 3 (sampleInput minute)).map (.advance 1)

theorem revoked_session_bare_logout : ∃ s',
    exec (authStep freeHashing sampleConfig sampleIssuer) freshPool (aliceLogin ++ aliceLogout) =
      some s' ∧ Revoked s'.store.sessions ⟨1⟩ ∧ Bare s'.store ⟨1⟩ := by
  refine ⟨_, rfl, ⟨_, rfl, rfl⟩, ?_⟩
  refine revoked_session_bare freeHashing sampleConfig sampleIssuer freshPool _
    (aliceLogin ++ aliceLogout) rfl ?_ rfl (by decide +kernel) ⟨1⟩ ⟨_, rfl, rfl⟩
  rintro sid ⟨r, hr, -⟩
  cases hr

/-- A login, then a refresh with a token that is not the current one: the
session is revoked, no call is under way, and the session still has its key in
the vault and its certificate. -/
theorem replayed_refresh_leaves_credential :
    ∃ s', exec (authStep freeHashing sampleConfig sampleIssuer) freshPool
      (aliceLogin ++ .begin (.refresh ⟨⟨1⟩, "guess"⟩) ::
        (List.replicate 3 (sampleInput minute)).map (.advance 1)) = some s' ∧
    Quiet s' ∧ Revoked s'.store.sessions ⟨1⟩ ∧ Holds s'.store.vault ⟨1⟩ ∧
    HasLiveCert s'.store.db ⟨1⟩ := by
  refine ⟨_, rfl, ?_, ⟨_, rfl, rfl⟩, ⟨_, List.mem_cons_self, rfl⟩,
    ⟨_, List.mem_cons_self, rfl, rfl⟩⟩
  decide +kernel

end Moorgate.Auth
