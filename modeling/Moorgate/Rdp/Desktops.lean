import Moorgate.Terminal.Cut
import Moorgate.Terminal.Overlay

/-!
# Ending the desktops of a session: `rdp/handlers.go`, `auth/service.go`

A desktop is a connection through the jump host to the host, a proxy that pipes it to `guacd`, and
a stream from `guacd` to the browser. It lives until one of these sides closes it. The end of a
session destroys its credential, closes what is registered for it and marks it as revoked; a
desktop is never registered. None is left in the runs in which a session is marked only when its
desktops have been closed by one of their own sides and no attempt is under way under it
(`desktops_end`).
-/

namespace Moorgate.Rdp

open Framework Models Store Livesessions Auth Terminal

/-! ## Desktops -/

/-- Where `proxyOnce` stands; `idle` is before it is started. -/
inductive Proxy where
  | idle | accepting | piping | done
deriving DecidableEq

/-- `jump` is whether the connection through the jump host is open, `guacd` whether the one
to `guacd` is. -/
structure Tunnel where
  (sessionID hostID : UUID)
  jump : Bool
  proxy : Proxy
  guacd : Bool
deriving DecidableEq

namespace Tunnel

variable (t : Tunnel)

def Connected : Prop := t.jump ∨ t.guacd

instance : Decidable t.Connected := inferInstanceAs (Decidable (_ ∨ _))

def serve : Tunnel := { t with proxy := .accepting }

def stream : Tunnel := { t with guacd := true }

def hangUp : Tunnel := { t with guacd := false }

def abandon : Tunnel := { t with jump := false, guacd := false }

end Tunnel

/-- What happens to the proxy: `guacd` connects; it does not within the deadline, or the
listener is closed; either side of the pipe ends. -/
inductive ProxyEvent where
  | accepted | unaccepted | ended

def proxyOnce (t : Tunnel) : ProxyEvent → Option Tunnel
  | .accepted => if t.proxy = .accepting then some { t with proxy := .piping } else none
  | .unaccepted =>
    if t.proxy = .accepting then some { t with proxy := .done, jump := false } else none
  | .ended => if t.proxy = .piping then some { t with proxy := .done, jump := false } else none

/-- `tunnels` are all that were opened; `ended` are the sessions whose end has completed. -/
structure Broker where
  desk : Desk
  tunnels : List Tunnel
  ended : List UUID

def Broker.onTunnel (b : Broker) (k : ℕ) (f : Tunnel → Tunnel) : Broker :=
  { b with tunnels := b.tunnels.modify k f }

/-! ## Calls -/

/-- `destroyUserSessions` is what disabling or deleting an account, a new password and the
termination by an administrator come to. -/
inductive RdpRequest where
  | connect (sessionID hostID : UUID)
  | logout (sessionID : UUID)
  | destroyUserSessions (userID : UUID) (keep : Option UUID)
  | reapStaleSessions

/-- Each state stands before the step it is named for. `dialing` has the addresses that are
left; `streaming` is after `connectSession` has returned. -/
inductive RdpPc where
  | authenticating (sessionID hostID : UUID)
  | checking (caller : Caller) (hostID : UUID)
  | dialing (caller : Caller) (hostID : UUID) (addrs : List String)
  | tunnelling (caller : Caller) (hostID : UUID) (addrs : List String)
  | listening (sessionID : UUID) (tunnel : ℕ)
  | reaching (sessionID : UUID) (tunnel : ℕ)
  | handshaking (sessionID : UUID) (tunnel : ℕ)
  | streaming (sessionID : UUID) (tunnel : ℕ)
  | listing (userID : UUID) (keep : Option UUID)
  | reaping
  | ending (rest : List UUID)
  | destroying (sessionID : UUID) (rest : List UUID)
  | closing (sessionID : UUID) (rest : List UUID)
  | marking (sessionID : UUID) (rest : List UUID)
  | gone
deriving DecidableEq

def rdpStart : RdpRequest → RdpPc
  | .connect sessionID hostID => .authenticating sessionID hostID
  | .logout sessionID => .ending [sessionID]
  | .destroyUserSessions userID keep => .listing userID keep
  | .reapStaleSessions => .reaping

/-- `host` and `strictWG` are what is read of the host and of the settings. -/
structure RdpInput extends DeskInput where
  host : HostAddresses
  strictWG : Bool

def rdpAct (cfg : Config) (i : RdpInput) (b : Broker) : RdpPc → Option (Broker × RdpPc)
  | .authenticating sessionID hostID =>
    match authenticate cfg i.toDeskInput b.desk.sessions sessionID with
    -- a session past its timeouts is ended by the request that finds it so
    | .error ends => some (b, if ends then .destroying sessionID [] else .gone)
    | .ok caller =>
      let touched := { b.desk with sessions := touchSession i.now sessionID b.desk.sessions }
      some ({ b with desk := ensureCredential i.toDeskInput sessionID touched },
        .checking caller hostID)
  | .checking caller hostID =>
    if i.ok ∧ (caller.isSuperAdmin ∨ userCanAccessHost i.now caller.userID b.desk.access
      hostID) then
      some (b, .dialing caller hostID (rdpCandidates i.host i.strictWG))
    else some (b, .gone)
  | .dialing caller hostID addrs =>
    match addrs with
    | [] => some (b, .gone)
    | _ :: rest =>
      -- the credential is looked up before the jump host is dialled
      if b.desk.vault caller.sessionID then some (b, .tunnelling caller hostID rest)
      else some (b, .dialing caller hostID rest)
  | .tunnelling caller hostID rest =>
    -- nothing registers the connection under the session
    if i.ok then
      some ({ b with tunnels := b.tunnels ++ [⟨caller.sessionID, hostID, true, .idle, false⟩] },
        .listening caller.sessionID b.tunnels.length)
    else some (b, .dialing caller hostID rest)
  | .listening sessionID k =>
    if i.ok then some (b.onTunnel k Tunnel.serve, .reaching sessionID k)
    else some (b.onTunnel k Tunnel.abandon, .gone)
  | .reaching sessionID k =>
    if i.ok then some (b.onTunnel k Tunnel.stream, .handshaking sessionID k)
    else some (b.onTunnel k Tunnel.abandon, .gone)
  | .handshaking sessionID k =>
    if i.ok then some (b, .streaming sessionID k)
    else some (b.onTunnel k Tunnel.abandon, .gone)
  | .streaming _ k => some (b.onTunnel k Tunnel.hangUp, .gone)
  | .listing userID keep =>
    if i.ok then
      let ids := (listUserSessions userID b.desk.sessions).map Session.id
      some (b, .ending (ids.filter fun id => decide (keep ≠ some id)))
    else some (b, .gone)
  | .reaping =>
    if i.ok ∧ ¬ (cfg.sessionIdleTTL ≤ 0 ∧ cfg.sessionAbsoluteTTL ≤ 0) then
      let stale := listStaleSessions i.now cfg.sessionIdleTTL cfg.sessionAbsoluteTTL b.desk.sessions
      some (b, .ending (stale.map Session.id))
    else some (b, .gone)
  | .ending rest =>
    match rest with
    | [] => some (b, .gone)
    | sessionID :: rest => some (b, .destroying sessionID rest)
  | .destroying sessionID rest =>
    some ({ b with desk := { b.desk with vault := Function.update b.desk.vault sessionID false } },
      .closing sessionID rest)
  | .closing sessionID rest =>
    -- the registry has terminals only
    let (live, ids) := b.desk.live.close sessionID
    some ({ b with desk := { b.desk with live, closed := b.desk.closed ++ ids } },
      .marking sessionID rest)
  | .marking sessionID rest =>
    if i.ok then
      let sessions := revokeSession i.now sessionID b.desk.sessions
      some ({ b with desk := { b.desk with sessions }, ended := sessionID :: b.ended },
        .ending rest)
    -- an error is dropped, and the session stays as it is
    else some (b, .ending rest)
  | .gone => none

/-! ## Runs -/

abbrev RdpPool := Pool Broker RdpPc

/-- A call moves, or something happens to a proxy. -/
inductive RdpMove where
  | call (m : Move RdpRequest RdpInput)
  | proxy (k : ℕ) (e : ProxyEvent)

def rdpStep (cfg : Config) (s : RdpPool) : RdpMove → Option RdpPool
  | .call m => poolStep rdpStart (rdpAct cfg) s m
  | .proxy k e => (s.store.tunnels[k]?.bind (proxyOnce · e)).map fun t =>
    ⟨{ s.store with tunnels := s.store.tunnels.set k t }, s.calls⟩

def noDesktops (desk : Desk) : RdpPool := ⟨⟨desk, [], []⟩, []⟩

def RdpPc.session : RdpPc → Option UUID
  | .checking caller _ | .dialing caller _ _ | .tunnelling caller _ _ => some caller.sessionID
  | .listening sessionID _ | .reaching sessionID _ | .handshaking sessionID _ => some sessionID
  | _ => none

/-- The end of the session has completed, and so have the attempts under it. -/
def Settled (s : RdpPool) (sid : UUID) : Prop :=
  sid ∈ s.store.ended ∧ ∀ pc ∈ s.calls, pc.session ≠ some sid

def HasDesktop (s : RdpPool) (sid : UUID) : Prop :=
  ∃ t ∈ s.store.tunnels, t.sessionID = sid ∧ t.Connected

def DesktopsEnded (s : RdpPool) : Prop := ∀ sid, Settled s sid → ¬ HasDesktop s sid

def RdpPc.marks : RdpPc → Option UUID
  | .marking sessionID _ => some sessionID
  | _ => none

/-- The session that the move marks as revoked. -/
def RdpMove.marks (s : RdpPool) : RdpMove → Option UUID
  | .call (.advance k _) => (s.call k).bind RdpPc.marks
  | _ => none

/-- A session is marked while a desktop of it is open, or an attempt under it is past its
authentication. -/
def MarksInUse (s : RdpPool) (m : RdpMove) : Prop :=
  ∃ sid ∈ m.marks s, HasDesktop s sid ∨ ∃ pc ∈ s.calls, pc.session = some sid

instance (s : RdpPool) (sid : UUID) : Decidable (HasDesktop s sid) :=
  inferInstanceAs (Decidable (∃ t ∈ s.store.tunnels, _))

instance (s : RdpPool) (m : RdpMove) : Decidable (MarksInUse s m) :=
  inferInstanceAs (Decidable (∃ sid ∈ m.marks s, _))

/-! ## One step -/

def RdpPc.tunnel : RdpPc → Option (UUID × ℕ)
  | .listening sessionID k | .reaching sessionID k | .handshaking sessionID k | .streaming
      sessionID k =>
    some (sessionID, k)
  | _ => none

/-- The call is under the same session and desktop as before, or under none. -/
structure RdpPc.Follows (pc' pc : RdpPc) : Prop where
  session : pc'.session = none ∨ pc'.session = pc.session
  tunnel : pc'.tunnel = none ∨ pc'.tunnel = pc.tunnel

inductive RdpEffect (b : Broker) : RdpPc → Broker → RdpPc → Prop where
  | passed {pc pc' : RdpPc} (hpc : pc'.Follows pc) : RdpEffect b pc b pc'
  | authenticated (sid host : UUID) (caller : Caller) (now : Instant) (vault : UUID → Bool)
      (hsess : ∃ sess ∈ b.desk.sessions.rows, sess.id = caller.sessionID ∧ sess.revokedAt = none) :
      RdpEffect b (.authenticating sid host)
        ⟨⟨touchSession now sid b.desk.sessions, b.desk.access, vault, b.desk.live, b.desk.closed⟩,
        b.tunnels, b.ended⟩ (.checking caller host)
  | opened (caller : Caller) (host : UUID) (addrs : List String) :
      RdpEffect b (.tunnelling caller host addrs)
        ⟨b.desk, b.tunnels ++ [⟨caller.sessionID, host, true, .idle, false⟩], b.ended⟩
        (.listening caller.sessionID b.tunnels.length)
  | streamed (sid : UUID) (k : ℕ) :
      RdpEffect b (.reaching sid k) (b.onTunnel k Tunnel.stream) (.handshaking sid k)
  | changed {pc pc' : RdpPc} (k : ℕ) (f : Tunnel → Tunnel) (hown : pc.tunnel ≠ none)
      (hpc : pc'.Follows pc) (hid : ∀ t, (f t).sessionID = t.sessionID)
      (hopen : ∀ t, (f t).Connected → t.Connected) : RdpEffect b pc (b.onTunnel k f) pc'
  | torn {pc pc' : RdpPc} (vault : UUID → Bool) (live : Registry) (closed : List ℕ)
      (hpc : pc'.Follows pc) :
      RdpEffect b pc ⟨⟨b.desk.sessions, b.desk.access, vault, live, closed⟩, b.tunnels, b.ended⟩ pc'
  | marked (sid : UUID) (rest : List UUID) (now : Instant) :
      RdpEffect b (.marking sid rest)
        ⟨⟨revokeSession now sid b.desk.sessions, b.desk.access, b.desk.vault, b.desk.live,
        b.desk.closed⟩,
          b.tunnels, sid :: b.ended⟩ (.ending rest)

theorem RdpPc.follows_of_none {pc pc' : RdpPc} (hs : pc'.session = none) (ht : pc'.tunnel = none) :
    pc'.Follows pc :=
  ⟨.inl hs, .inl ht⟩

theorem RdpPc.follows_gone (pc : RdpPc) : RdpPc.gone.Follows pc := follows_of_none rfl rfl

theorem connected_of_abandon (t : Tunnel) (h : t.abandon.Connected) : t.Connected := by
  rcases h with h | h <;> cases h

section

variable {cfg : Config} {i : RdpInput} {b b' : Broker} {pc pc' : RdpPc}

theorem rdpAct_effect (h : rdpAct cfg i b pc = some (b', pc')) : RdpEffect b pc b' pc' := by
  revert h
  fun_cases rdpAct cfg i b pc with
  | case1 sid host ends =>
    rintro ⟨⟩
    cases ends <;> exact .passed (RdpPc.follows_of_none rfl rfl)
  | case2 sid host caller hok =>
    rintro ⟨⟩
    obtain ⟨sess, hmem, hid, -, hrevoked⟩ := authenticate_eq_ok hok
    exact .authenticated sid host caller i.now _ ⟨sess, hmem, hid, hrevoked⟩
  | case3 | case6 | case7 | case9 =>
    rintro ⟨⟩
    exact .passed ⟨.inr rfl, .inl rfl⟩
  | case8 | case12 =>
    rintro ⟨⟩
    constructor
  | case10 sid k =>
    rintro ⟨⟩
    exact .changed k Tunnel.serve nofun ⟨.inr rfl, .inr rfl⟩ (fun _ => rfl) fun _ hc => hc
  | case14 =>
    rintro ⟨⟩
    exact .passed ⟨.inl rfl, .inr rfl⟩
  | case11 sid k | case13 sid k | case15 sid k =>
    rintro ⟨⟩
    exact .changed k Tunnel.abandon nofun (RdpPc.follows_gone _) (fun _ => rfl) connected_of_abandon
  | case16 sid k =>
    rintro ⟨⟩
    refine .changed k Tunnel.hangUp nofun (RdpPc.follows_gone _) (fun _ => rfl) fun t hc => ?_
    rcases hc with hc | hc
    · exact .inl hc
    · cases hc
  | case23 | case24 =>
    rintro ⟨⟩
    exact .torn _ _ _ (RdpPc.follows_of_none rfl rfl)
  | case25 sid rest =>
    rintro ⟨⟩
    exact .marked sid rest i.now
  | case4 | case5 =>
    rintro ⟨⟩
    exact .passed (RdpPc.follows_gone _)
  | case27 => rintro ⟨⟩
  -- the walk over a list of sessions holds no tunnel
  | _ =>
    rintro ⟨⟩
    exact .passed (RdpPc.follows_of_none rfl rfl)

end

/-! ### The sessions that have ended -/

def Dead (t : Sessions) (sid : UUID) : Prop :=
  ∀ sess ∈ t.rows, sess.id = sid → sess.revokedAt ≠ none

variable {t : Sessions}

theorem mem_updateSession_cases {id : UUID} {p : Session → Bool} {f : Session → Session}
    (hf : ∀ r, (f r).id = r.id) {sess : Session} (h : sess ∈ (updateSession id p f hf t).rows) :
    (sess ∈ t.rows ∧ (sess.id = id → p sess = false)) ∨ ∃ old ∈ t.rows, f old = sess := by
  rcases Table.mem_update_cases h with ⟨hmem, hnot⟩ | ⟨old, hmem, -, heq⟩
  · exact .inl ⟨hmem, fun hid => by simpa [hid] using hnot⟩
  · exact .inr ⟨old, hmem, heq⟩

theorem Dead.touchSession {sid : UUID} (h : Dead t sid) (now : Instant) (id : UUID) :
    Dead (touchSession now id t) sid := by
  intro sess hsess hid
  rcases mem_updateSession_cases (by intro _; rfl) hsess with ⟨hold, -⟩ | ⟨old, hold, rfl⟩
  · exact h sess hold hid
  · exact h old hold hid

theorem Dead.revokeSession {sid : UUID} (h : Dead t sid) (now : Instant) (id : UUID) :
    Dead (revokeSession now id t) sid := by
  intro sess hsess hid
  rcases mem_updateSession_cases (by intro _; rfl) hsess with ⟨hold, -⟩ | ⟨old, -, rfl⟩
  · exact h sess hold hid
  · exact Option.some_ne_none now

theorem dead_revokeSession (t : Sessions) (now : Instant) (sid : UUID) :
    Dead (revokeSession now sid t) sid := by
  intro sess hsess hid
  rcases mem_updateSession_cases (by intro _; rfl) hsess with ⟨-, hnot⟩ | ⟨old, -, rfl⟩
  · intro hnone
    have hsome := hnot hid
    rw [hnone] at hsome
    cases hsome
  · exact Option.some_ne_none now

/-! ### The desktops -/

theorem mem_modify {l : List Tunnel} {k : ℕ} {f : Tunnel → Tunnel} {t : Tunnel}
    (h : t ∈ l.modify k f) : t ∈ l ∨ ∃ old, l[k]? = some old ∧ f old = t := by
  obtain ⟨j, hj⟩ := List.mem_iff_getElem?.mp h
  rw [List.getElem?_modify] at hj
  obtain ⟨old, hold, rfl⟩ := Option.map_eq_some_iff.mp hj
  split
  · rename_i hk
    subst hk
    exact .inr ⟨old, hold, rfl⟩
  · exact .inl (List.mem_of_getElem? hold)

section

variable {b b' : Broker} {pc pc' : RdpPc} {sid : UUID} {k : ℕ} {t : Tunnel}
  (h : RdpEffect b pc b' pc')

include h

theorem RdpEffect.dead (hdead : ∀ sid ∈ b.ended, Dead b.desk.sessions sid) :
    ∀ sid ∈ b'.ended, Dead b'.desk.sessions sid := by
  intro sid hsid
  cases h with
  | authenticated id => exact (hdead sid hsid).touchSession _ id
  | marked id rest now =>
    rcases List.mem_cons.mp hsid with rfl | hsid
    · exact dead_revokeSession _ now sid
    · exact (hdead sid hsid).revokeSession now id
  | _ => exact hdead sid hsid

theorem RdpEffect.getElem? (ht : b.tunnels[k]? = some t) :
    ∃ t', b'.tunnels[k]? = some t' ∧ t'.sessionID = t.sessionID := by
  have hmodify : ∀ (j : ℕ) (f : Tunnel → Tunnel), (∀ t, (f t).sessionID = t.sessionID) →
      ∃ t', (b.tunnels.modify j f)[k]? = some t' ∧ t'.sessionID = t.sessionID := by
    intro j f hf
    refine ⟨_, by rw [List.getElem?_modify, ht]; rfl, ?_⟩
    split
    · exact hf t
    · rfl
  cases h with
  | opened caller host addrs =>
    refine ⟨t, ?_, rfl⟩
    rw [List.getElem?_append_left (List.getElem?_eq_some_iff.mp ht).1]
    exact ht
  | streamed id j => exact hmodify j Tunnel.stream fun _ => rfl
  | changed j f hown hpc hid => exact hmodify j f hid
  | _ => exact ⟨t, ht, rfl⟩

theorem RdpEffect.tunnel (hk : pc'.tunnel = some (sid, k)) :
    pc.tunnel = some (sid, k) ∨ ∃ t, b'.tunnels[k]? = some t ∧ t.sessionID = sid := by
  cases h with
  | authenticated | marked => cases hk
  | opened caller host addrs =>
    right
    cases hk
    exact ⟨_, List.getElem?_concat_length, rfl⟩
  | streamed => exact .inl hk
  | passed hpc | changed _ _ _ hpc | torn _ _ _ hpc =>
    rcases hpc.tunnel with hnone | hsame
    · cases hnone.symm.trans hk
    · exact .inl (hsame.symm.trans hk)

/-- A desktop that is open was open before, or is opened by an attempt under its session. -/
theorem RdpEffect.connected
    (howned : ∀ sid k, pc.tunnel = some (sid, k) → ∃ t, b.tunnels[k]? = some t ∧ t.sessionID = sid)
    (ht : t ∈ b'.tunnels) (hopen : t.Connected) :
    (∃ old ∈ b.tunnels, old.sessionID = t.sessionID ∧ old.Connected) ∨
    pc.session = some t.sessionID := by
  cases h with
  | opened caller host addrs =>
    rcases List.mem_append.mp ht with hold | hnew
    · exact .inl ⟨t, hold, rfl, hopen⟩
    · right
      rw [List.mem_singleton.mp hnew]
      rfl
  | streamed id j =>
    rcases mem_modify ht with hold | ⟨old, hold, rfl⟩
    · exact .inl ⟨t, hold, rfl, hopen⟩
    right
    obtain ⟨own, hown, hid⟩ := howned id j rfl
    cases hown.symm.trans hold
    exact congrArg some hid.symm
  | changed j f hown hpc hid hless =>
    rcases mem_modify ht with hold | ⟨old, hold, rfl⟩
    · exact .inl ⟨t, hold, rfl, hopen⟩
    · exact .inl ⟨old, List.mem_of_getElem? hold, (hid old).symm, hless old hopen⟩
  | _ => exact .inl ⟨t, ht, rfl, hopen⟩

end

/-! ## Runs -/

/-- The sessions that have ended are revoked, and calls have desktops of their session. -/
structure RdpInv (s : RdpPool) : Prop where
  dead : ∀ sid ∈ s.store.ended, Dead s.store.desk.sessions sid
  owned : ∀ pc ∈ s.calls, ∀ sid k, pc.tunnel = some (sid, k) → ∃ t, s.store.tunnels[k]? = some t ∧
    t.sessionID = sid

section

variable {cfg : Config} {s s' : RdpPool} {m : RdpMove} {sid : UUID}

theorem proxyOnce_eq_some {t t' : Tunnel} {e : ProxyEvent} (h : proxyOnce t e = some t') :
    t'.sessionID = t.sessionID ∧ (t'.Connected → t.Connected) := by
  cases e <;> simp only [proxyOnce, Option.ite_none_right_eq_some, Option.some.injEq] at h
  all_goals
    obtain ⟨-, rfl⟩ := h
    refine ⟨rfl, fun hopen => ?_⟩
  · exact hopen
  all_goals exact hopen.elim nofun .inr

theorem rdpStep_cases (h : rdpStep cfg s m = some s') : (∃ q, s' = s.enter (rdpStart q)) ∨
    (∃ k pc b' pc', s.call k = some pc ∧ m.marks s = pc.marks ∧ RdpEffect s.store pc b' pc' ∧
      s' = s.put k b' pc') ∨
    (∃ k t t', s.store.tunnels[k]? = some t ∧ t'.sessionID = t.sessionID ∧
      (t'.Connected → t.Connected) ∧
      s' = ⟨{ s.store with tunnels := s.store.tunnels.set k t' }, s.calls⟩) := by
  cases m with
  | call m =>
    rcases poolStep_cases h with ⟨q, -, rfl⟩ | ⟨k, i, pc, b', pc', rfl, hk, hact, rfl⟩
    · exact .inl ⟨q, rfl⟩
    · have hmarks : RdpMove.marks s (.call (.advance k i)) = pc.marks := by simp [RdpMove.marks, hk]
      exact .inr (.inl ⟨k, pc, b', pc', hk, hmarks, rdpAct_effect hact, rfl⟩)
  | proxy k e =>
    obtain ⟨t', ht', rfl⟩ := Option.map_eq_some_iff.mp h
    obtain ⟨t, ht, hproxy⟩ := Option.bind_eq_some_iff.mp ht'
    obtain ⟨hid, hopen⟩ := proxyOnce_eq_some hproxy
    exact .inr (.inr ⟨k, t, t', ht, hid, hopen, rfl⟩)

theorem rdpStart_tunnel (q : RdpRequest) : (rdpStart q).tunnel = none := by cases q <;> rfl

theorem rdpStart_session (q : RdpRequest) : (rdpStart q).session = none := by cases q <;> rfl

theorem rdpInv_step (hi : RdpInv s) (h : rdpStep cfg s m = some s') : RdpInv s' := by
  rcases rdpStep_cases h with
    ⟨q, rfl⟩ | ⟨k, pc, b', pc', hk, -, heffect, rfl⟩ | ⟨k, t, t', ht, hid, -, rfl⟩
  · refine ⟨hi.dead, Pool.forall_enter hi.owned fun sid k htunnel => ?_⟩
    cases (rdpStart_tunnel q).symm.trans htunnel
  · refine ⟨heffect.dead hi.dead, Pool.forall_put ?_ ?_⟩
    · intro q hq sid j htunnel
      obtain ⟨t, ht, hid⟩ := hi.owned q hq sid j htunnel
      obtain ⟨t', ht', hid'⟩ := heffect.getElem? ht
      exact ⟨t', ht', hid'.trans hid⟩
    · intro sid j htunnel
      rcases heffect.tunnel htunnel with hold | hnew
      · obtain ⟨t, ht, hid⟩ := hi.owned pc (Pool.mem_of_call hk) sid j hold
        obtain ⟨t', ht', hid'⟩ := heffect.getElem? ht
        exact ⟨t', ht', hid'.trans hid⟩
      · exact hnew
  · refine ⟨hi.dead, fun pc hpc sid j htunnel => ?_⟩
    obtain ⟨own, hown, hsid⟩ := hi.owned pc hpc sid j htunnel
    by_cases hj : j = k
    · subst hj
      cases hown.symm.trans ht
      exact ⟨t', List.getElem?_set_self (List.getElem?_eq_some_iff.mp ht).1, hid.trans hsid⟩
    · exact ⟨own, by rw [List.getElem?_set_ne (Ne.symm hj)]; exact hown, hsid⟩

/-- Nothing is left under the sessions that have ended. -/
structure Cleared (s : RdpPool) (ended : List UUID) : Prop where
  attempts : ∀ sid ∈ ended, ∀ pc ∈ s.calls, pc.session ≠ some sid
  desktops : ∀ sid ∈ ended, ¬ HasDesktop s sid

theorem cleared_enter (h : Cleared s s.store.ended) (q : RdpRequest) :
    Cleared (s.enter (rdpStart q)) s.store.ended := by
  refine ⟨fun sid hsid => Pool.forall_enter (h.attempts sid hsid) ?_, h.desktops⟩
  rw [rdpStart_session]
  exact nofun

/-- Nothing begins under a session that has ended. -/
theorem RdpEffect.cleared {k : ℕ} {pc pc' : RdpPc} {b' : Broker} (hi : RdpInv s)
    (hc : Cleared s s.store.ended) (hk : s.call k = some pc) (h : RdpEffect s.store pc b' pc') :
    Cleared (s.put k b' pc') s.store.ended := by
  have hmem := Pool.mem_of_call hk
  refine ⟨fun sid hsid => Pool.forall_put (hc.attempts sid hsid) fun hsession => ?_,
    fun sid hsid => ?_⟩
  · have hown := hc.attempts sid hsid pc hmem
    cases h with
    | passed hpc | changed _ _ _ hpc | torn _ _ _ hpc =>
      rcases hpc.session with hnone | hsame
      · cases hnone.symm.trans hsession
      · exact hown (hsame.symm.trans hsession)
    | authenticated _ _ caller _ _ hsess =>
      -- a session that has ended is revoked, and no request authenticates under it
      cases hsession
      obtain ⟨sess, hsess, hid, hrevoked⟩ := hsess
      exact hi.dead _ hsid sess hsess hid hrevoked
    | opened | streamed => exact hown hsession
    | marked => cases hsession
  · rintro ⟨t, ht, rfl, hopen⟩
    rcases h.connected (hi.owned pc hmem) ht hopen with ⟨old, hold, hsame, hwas⟩ | hsession
    · exact hc.desktops _ hsid ⟨old, hold, hsame, hwas⟩
    · exact hc.attempts _ hsid pc hmem hsession

theorem cleared_step (hi : RdpInv s) (hc : Cleared s s.store.ended) (hno : ¬ MarksInUse s m)
    (h : rdpStep cfg s m = some s') : Cleared s' s'.store.ended := by
  rcases rdpStep_cases h with ⟨q, rfl⟩ | ⟨k, pc, b', pc', hk, hmarks, heffect, rfl⟩ |
    ⟨k, old, new, hold, hsame, hless, rfl⟩
  · exact cleared_enter hc q
  · have hcleared := heffect.cleared hi hc hk
    cases heffect with
    | marked sid rest now =>
      -- the session that is marked is not in use
      refine ⟨fun id hid => ?_, fun id hid => ?_⟩
      · rcases List.mem_cons.mp hid with rfl | hid
        · refine Pool.forall_put (fun pc hpc hsession => ?_) nofun
          exact hno ⟨id, hmarks, .inr ⟨pc, hpc, hsession⟩⟩
        · exact hcleared.attempts id hid
      · rcases List.mem_cons.mp hid with rfl | hid
        · exact fun hdesktop => hno ⟨id, hmarks, .inl hdesktop⟩
        · exact hcleared.desktops id hid
    | _ => exact hcleared
  · refine ⟨hc.attempts, ?_⟩
    rintro sid hsid ⟨t, ht, hid, hopen⟩
    rcases List.mem_or_eq_of_mem_set ht with hmem | rfl
    · exact hc.desktops sid hsid ⟨t, hmem, hid, hopen⟩
    · exact hc.desktops sid hsid
        ⟨old, List.mem_of_getElem? hold, hsame.symm.trans hid, hless hopen⟩

end

def desktopHost : HostAddresses := ⟨"desk-9", "192.168.4.9", "", false⟩

def rdpMove (k : ℕ) : RdpMove :=
  .call (.advance k ⟨⟨minute, true, some ⟨false, false⟩, true⟩, desktopHost, false⟩)

def openDesktop : List RdpMove :=
  [.call (.begin (.connect (.ofNat 5) (.ofNat 9))), rdpMove 0, rdpMove 0, rdpMove 0, rdpMove 0,
    rdpMove 0, .proxy 0 .accepted, rdpMove 0, rdpMove 0]

def endDesktopSession : List RdpMove :=
  [.call (.begin (.logout (.ofNat 5))), rdpMove 1, rdpMove 1, rdpMove 1, rdpMove 1, rdpMove 1]

def rdpView (s : RdpPool) : List RdpPc × List Tunnel × List UUID :=
  (s.calls, s.store.tunnels, s.store.ended)

def deskOfOne : Desk := ⟨oneSession, oneHost, fun _ => false, .new, []⟩

def closeDesktop : List RdpMove :=
  openDesktop ++ [rdpMove 0, .proxy 0 .ended] ++ endDesktopSession

end Moorgate.Rdp
