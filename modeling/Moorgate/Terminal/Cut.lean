import Moorgate.Auth.Timeouts
import Moorgate.Livesessions.Registry
import Moorgate.Store.HostAccess

/-!
# Cutting live connections: `terminal/terminal.go`, `auth/service.go`, `admin/users.go`

A connection attempt authenticates its session, checks the access to the host, registers itself,
dials and relays. A cut ends a session (its credential is destroyed, its registered connections are
closed, and then it is marked as revoked) or denies a host to a user (and then closes the
connections of the user's sessions to the host, one session after the other).

An attempt that has passed its checks may register when the cut has already closed what was
registered. So a cut misses a connection, unless attempts register before the connections of their
session are closed and before the host is denied.
-/

namespace Moorgate.Terminal

open Framework Models Store Livesessions Auth

/-- What the handler uses of the principal. -/
structure Caller where
  (userID sessionID : UUID)
  isSuperAdmin : Bool
deriving DecidableEq

/-- A connection that was registered. -/
structure Connection where
  caller : Caller
  hostID : UUID
  id : ℕ
deriving DecidableEq

/-- `vault` are the sessions that have a credential on this instance; `closed` are the
connections whose closing function has run. -/
structure Desk where
  sessions : Sessions
  access : AccessTables
  vault : UUID → Bool
  live : Registry
  closed : List ℕ

inductive DeskRequest where
  | connect (sessionID hostID : UUID)
  | endSession (sessionID : UUID)
  | revokeHostAccess (userID hostID : UUID)

/-- Each state stands before the step it is named for; `ended` and `cut` are cuts that
have completed. -/
inductive DeskPc where
  | authenticating (sessionID hostID : UUID)
  | checking (caller : Caller) (hostID : UUID)
  | registering (caller : Caller) (hostID : UUID)
  | dialing (c : Connection)
  | relaying (c : Connection)
  | destroying (sessionID : UUID)
  | closing (sessionID : UUID)
  | marking (sessionID : UUID)
  | ended (sessionID : UUID)
  | denying (userID hostID : UUID)
  | listing (userID hostID : UUID)
  | cutting (userID hostID : UUID) (rest : List UUID)
  | cut (userID hostID : UUID)
  | gone
deriving DecidableEq

def deskStart : DeskRequest → DeskPc
  | .connect sessionID hostID => .authenticating sessionID hostID
  | .endSession sessionID => .destroying sessionID
  | .revokeHostAccess userID hostID => .denying userID hostID

/-- What `GetUserByID` tells of the session's user. -/
structure Account where
  (isSuperAdmin isDisabled : Bool)

/-- `ok = false` is whatever makes the step fail: an invalid token, an error of the
database, a missing permission or policy, a host that cannot be dialled. `issued` is
whether a missing credential could be issued. -/
structure DeskInput where
  now : Instant
  ok : Bool
  account : Option Account
  issued : Bool

/-- `AuthenticateToken`: the caller, or `none` and whether the session is to be ended. -/
def authenticate (cfg : Config) (i : DeskInput) (t : Sessions) (sessionID : UUID) :
    Except Bool Caller :=
  match getSession t sessionID with
  | none => .error false
  | some sess =>
    if sess.revokedAt.isSome ∨ sess.expiresAt < i.now then .error false
    else if IdleOut cfg i.now sess ∨ AbsoluteOut cfg i.now sess then .error true
    else
      match i.account with
      | none => .error true
      | some u =>
        if u.isDisabled then .error true
        else if i.ok then .ok ⟨sess.userId, sess.id, u.isSuperAdmin⟩
        else .error false

def ensureCredential (i : DeskInput) (sessionID : UUID) (d : Desk) : Desk :=
  { d with vault := Function.update d.vault sessionID (d.vault sessionID || i.issued) }

def denyHostAccess (userID hostID : UUID) (t : AccessTables) : AccessTables :=
  { t with
    denials :=
      if ⟨userID, hostID⟩ ∈ t.denials then t.denials else t.denials ++ [⟨userID, hostID⟩] }

def deskAct (cfg : Config) (i : DeskInput) (d : Desk) : DeskPc → Option (Desk × DeskPc)
  | .authenticating sessionID hostID =>
    match authenticate cfg i d.sessions sessionID with
    | .error ends => some (d, if ends then .destroying sessionID else .gone)
    | .ok caller =>
      some (ensureCredential i sessionID
        { d with sessions := touchSession i.now sessionID d.sessions }, .checking caller hostID)
  | .checking caller hostID =>
    if i.ok ∧ (caller.isSuperAdmin ∨ userCanAccessHost i.now caller.userID d.access hostID) then
      some (d, .registering caller hostID)
    else some (d, .gone)
  | .registering caller hostID =>
    let (live, id) := d.live.register caller.sessionID hostID
    some ({ d with live }, .dialing ⟨caller, hostID, id⟩)
  | .dialing c =>
    -- the jump host is dialled with the credential of the session
    if i.ok ∧ d.vault c.caller.sessionID then some (d, .relaying c)
    else some ({ d with live := d.live.deregister c.caller.sessionID c.id }, .gone)
  | .relaying c => some ({ d with live := d.live.deregister c.caller.sessionID c.id }, .gone)
  | .destroying sessionID =>
    some ({ d with vault := Function.update d.vault sessionID false }, .closing sessionID)
  | .closing sessionID =>
    let (live, ids) := d.live.close sessionID
    some ({ d with live, closed := d.closed ++ ids }, .marking sessionID)
  | .marking sessionID =>
    if i.ok then
      some ({ d with sessions := revokeSession i.now sessionID d.sessions }, .ended sessionID)
    else some (d, .gone)
  | .denying userID hostID =>
    if i.ok then some ({ d with access := denyHostAccess userID hostID d.access },
      .listing userID hostID)
    else some (d, .gone)
  | .listing userID hostID =>
    if i.ok then some (d,
      .cutting userID hostID ((listUserSessions userID d.sessions).map Session.id))
    else some (d, .gone)
  | .cutting userID hostID rest =>
    match rest with
    | [] => some (d, .cut userID hostID)
    | sess :: rest =>
      let (live, ids) := d.live.closeSessionHost sess hostID
      some ({ d with live, closed := d.closed ++ ids }, .cutting userID hostID rest)
  | .ended _ | .cut _ _ | .gone => none

abbrev DeskPool := Pool Desk DeskPc
abbrev DeskMove := Move DeskRequest DeskInput

def deskStep (cfg : Config) : DeskPool → DeskMove → Option DeskPool :=
  poolStep deskStart (deskAct cfg)

def unconnected (sessions : Sessions) (access : AccessTables) : DeskPool :=
  ⟨⟨sessions, access, fun _ => false, .new, []⟩, []⟩

/-- A connection that relays and whose closing function has not run. -/
def Open (s : DeskPool) (c : Connection) : Prop := .relaying c ∈ s.calls ∧ c.id ∉ s.store.closed

/-- After a cut nothing that it cuts is open. -/
structure NothingMissed (s : DeskPool) : Prop where
  session : ∀ sessionID, .ended sessionID ∈ s.calls → ∀ c, Open s c → c.caller.sessionID ≠ sessionID
  host : ∀ userID hostID, .cut userID hostID ∈ s.calls → ∀ c, Open s c →
    ¬ (c.caller.userID = userID ∧ c.hostID = hostID)

def DeskPc.registers : DeskPc → Option (Caller × UUID)
  | .registering caller hostID => some (caller, hostID)
  | _ => none

/-- An attempt registers while no cut of its session has closed the session's
connections, and while the host is not denied to its user. -/
def RegisteredInTime (s : DeskPool) : DeskMove → Prop
  | .begin _ => True
  | .advance k _ => ∀ pc ∈ s.call k, ∀ r ∈ pc.registers,
      .marking r.1.sessionID ∉ s.calls ∧ .ended r.1.sessionID ∉ s.calls ∧
      ⟨r.1.userID, r.2⟩ ∉ s.store.access.denials

instance (s : DeskPool) (m : DeskMove) : Decidable (RegisteredInTime s m) := by
  unfold RegisteredInTime
  split <;> infer_instance

/-! ## One step -/

def DeskPc.conn : DeskPc → Option Connection
  | .dialing c | .relaying c => some c
  | _ => none

def DeskPc.caller : DeskPc → Option Caller
  | .checking caller _ | .registering caller _ => some caller
  | .dialing c | .relaying c => some c.caller
  | _ => none

/-- Steps whose failure leaves everything as it is. -/
def DeskPc.mayFail : DeskPc → Bool
  | .authenticating _ _ | .checking _ _ | .marking _ | .denying _ _ | .listing _ _ => true
  | _ => false

inductive DeskEffect (d : Desk) : DeskPc → Desk → DeskPc → Prop where
  | refused {pc : DeskPc} (hpc : pc.mayFail) : DeskEffect d pc d .gone
  | stale (sid host : UUID) : DeskEffect d (.authenticating sid host) d (.destroying sid)
  | authenticated (sid host : UUID) (caller : Caller) (now : Instant) (vault : UUID → Bool)
      (hsess : ∃ sess ∈ d.sessions.rows, sess.id = caller.sessionID ∧ sess.userId = caller.userID ∧
        sess.revokedAt = none) :
      DeskEffect d (.authenticating sid host)
        ⟨touchSession now sid d.sessions, d.access, vault, d.live, d.closed⟩ (.checking caller host)
  | checked (caller : Caller) (host : UUID) :
      DeskEffect d (.checking caller host) d (.registering caller host)
  | registered (caller : Caller) (host : UUID) :
      DeskEffect d (.registering caller host)
        ⟨d.sessions, d.access, d.vault, (d.live.register caller.sessionID host).1, d.closed⟩
        (.dialing ⟨caller, host, (d.live.register caller.sessionID host).2⟩)
  | dialed (c : Connection) : DeskEffect d (.dialing c) d (.relaying c)
  | left {pc : DeskPc} (c : Connection) (hpc : pc.conn = some c) :
      DeskEffect d pc ⟨d.sessions, d.access, d.vault, d.live.deregister c.caller.sessionID c.id,
      d.closed⟩ .gone
  | destroyed (sid : UUID) (vault : UUID → Bool) :
      DeskEffect d (.destroying sid) ⟨d.sessions, d.access, vault, d.live, d.closed⟩ (.closing sid)
  | closed (sid : UUID) :
      DeskEffect d (.closing sid)
        ⟨d.sessions, d.access, d.vault, (d.live.close sid).1, d.closed ++ (d.live.close sid).2⟩
        (.marking sid)
  | marked (sid : UUID) (now : Instant) :
      DeskEffect d (.marking sid) ⟨revokeSession now sid d.sessions, d.access, d.vault, d.live,
      d.closed⟩ (.ended sid)
  | denied (user host : UUID) :
      DeskEffect d (.denying user host)
        ⟨d.sessions, denyHostAccess user host d.access, d.vault, d.live,
        d.closed⟩ (.listing user host)
  | listed (user host : UUID) :
      DeskEffect d (.listing user host) d
      (.cutting user host ((listUserSessions user d.sessions).map Session.id))
  | cutOne (user host sess : UUID) (rest : List UUID) :
      DeskEffect d (.cutting user host (sess :: rest))
        ⟨d.sessions, d.access, d.vault, (d.live.closeSessionHost sess host).1,
          d.closed ++ (d.live.closeSessionHost sess host).2⟩ (.cutting user host rest)
  | cutAll (user host : UUID) : DeskEffect d (.cutting user host []) d (.cut user host)

section

variable {cfg : Config} {i : DeskInput} {d d' : Desk} {pc pc' : DeskPc}

variable {sid : UUID}

theorem authenticate_eq_ok {t : Sessions} {caller : Caller}
    (h : authenticate cfg i t sid = .ok caller) :
    ∃ sess ∈ t.rows, sess.id = caller.sessionID ∧ sess.userId = caller.userID ∧
    sess.revokedAt = none := by
  revert h
  fun_cases authenticate cfg i t sid with
  | case6 sess hsess hrevoked =>
    rintro ⟨⟩
    rw [not_or, Bool.not_eq_true, Option.isSome_eq_false_iff, Option.isNone_iff_eq_none] at hrevoked
    exact ⟨sess, (Table.lookup_eq_some.mp hsess).1, rfl, rfl, hrevoked.1⟩
  | _ => rintro ⟨⟩

theorem deskAct_effect (h : deskAct cfg i d pc = some (d', pc')) : DeskEffect d pc d' pc' := by
  revert h
  fun_cases deskAct cfg i d pc with
  | case1 sid host ends =>
    rintro ⟨⟩
    cases ends
    · exact .refused rfl
    · exact .stale sid host
  | case2 sid host caller hok =>
    rintro ⟨⟩
    exact .authenticated sid host caller i.now _ (authenticate_eq_ok hok)
  | case5 _ _ _ _ hlive | case10 _ _ _ hlive | case18 _ _ _ _ _ _ hlive =>
    rintro ⟨⟩
    obtain ⟨rfl, rfl⟩ := Prod.ext_iff.mp hlive
    constructor
  | case7 c | case8 c =>
    rintro ⟨⟩
    exact .left c rfl
  | case19 | case20 | case21 => rintro ⟨⟩
  | case3 | case6 | case9 | case11 | case13 | case15 | case17 =>
    rintro ⟨⟩
    constructor
  | _ =>
    rintro ⟨⟩
    exact .refused rfl

theorem mem_denyHostAccess (t : AccessTables) (user host : UUID) :
    ⟨user, host⟩ ∈ (denyHostAccess user host t).denials := by
  unfold denyHostAccess
  split_ifs with h
  · exact h
  · exact List.mem_append_right _ (List.mem_singleton_self _)

variable (h : DeskEffect d pc d' pc')

include h

theorem DeskEffect.closed_subset : ∀ id ∈ d.closed, id ∈ d'.closed := by
  intro id hid
  cases h with
  | closed sid | cutOne user host sess rest => exact List.mem_append_left _ hid
  | _ => exact hid

theorem DeskEffect.denials_subset : ∀ x ∈ d.access.denials, x ∈ d'.access.denials := by
  intro x hx
  cases h with
  | denied user host =>
    unfold denyHostAccess
    split_ifs
    · exact hx
    · exact List.mem_append_left _ hx
  | _ => exact hx

/-- The connections of a call are the ones it had, or the one it has just registered. -/
theorem DeskEffect.conn {c : Connection} (hc : pc'.conn = some c) :
    (pc.conn = some c ∧ d' = d) ∨ (pc = .registering c.caller c.hostID ∧ c.id = d.live.next + 1 ∧
        d' = ⟨d.sessions, d.access, d.vault, (d.live.register c.caller.sessionID c.hostID).1,
          d.closed⟩ ∧
        pc' = .dialing c) := by
  cases h with
  | registered caller host =>
    cases hc
    exact .inr ⟨rfl, rfl, rfl, rfl⟩
  | dialed c =>
    cases hc
    exact .inl ⟨rfl, rfl⟩
  | _ => cases hc

/-- What is registered stays so until it is closed, or its own call has ended. -/
theorem DeskEffect.live {c : LiveConn} (hc : c ∈ d.live.conns sid)
    (hother : ∀ own, pc.conn = some own → pc'.conn = none → own.id ≠ c.id) :
    c.id ∈ d'.closed ∨ c ∈ d'.live.conns sid := by
  cases h with
  | registered caller host => exact .inr (Registry.mem_register_of_mem hc)
  | left own hpc => exact .inr (Registry.mem_deregister hc (hother own hpc rfl).symm)
  | closed sid' =>
    refine (Registry.mem_close hc).imp (fun hclosed => ?_) id
    exact List.mem_append_right _ hclosed.2
  | cutOne user host sess rest =>
    refine (Registry.mem_closeSessionHost hc).imp (fun hclosed => ?_) id
    exact List.mem_append_right _ hclosed.2.2
  | _ => exact .inr hc

theorem DeskEffect.next_le : d.live.next ≤ d'.live.next := by
  cases h with
  | registered caller host => exact Nat.le_succ _
  | _ => exact Nat.le_refl _

theorem DeskEffect.sessions {sess : Session} (hs : sess ∈ d.sessions.rows) :
    ∃ sess' ∈ d'.sessions.rows, sess'.id = sess.id ∧ sess'.userId = sess.userId ∧
      (sess'.revokedAt ≠ none → sess.revokedAt ≠ none ∨ pc' = .ended sess.id) := by
  cases h with
  | authenticated sid host caller now vault hsess =>
    refine ⟨_, List.mem_map.mpr ⟨sess, hs, rfl⟩, ?_⟩
    split <;> exact ⟨rfl, rfl, .inl⟩
  | marked sid now =>
    by_cases hp : (decide (sess.id = sid) && sess.revokedAt.isNone)
    · refine ⟨{ sess with revokedAt := some now }, List.mem_map.mpr ⟨sess, hs, if_pos hp⟩,
        rfl, rfl, ?_⟩
      intro _
      rw [Bool.and_eq_true, decide_eq_true_iff] at hp
      exact .inr (congrArg DeskPc.ended hp.1.symm)
    · exact ⟨sess, List.mem_map.mpr ⟨sess, hs, if_neg hp⟩, rfl, rfl, .inl⟩
  | _ => exact ⟨sess, hs, rfl, rfl, .inl⟩

/-- Who is authenticated has been, or is so now, of a session that is not revoked. -/
theorem DeskEffect.caller {caller : Caller} (hc : pc'.caller = some caller) :
    pc.caller = some caller ∨ ∃ sess ∈ d.sessions.rows, sess.id = caller.sessionID ∧
    sess.userId = caller.userID ∧
        sess.revokedAt = none := by
  cases h with
  | authenticated sid host caller now vault hsess =>
    cases hc
    exact .inr hsess
  | checked caller host | registered caller host | dialed c => exact .inl hc
  | _ => cases hc

end

/-! ## Runs -/

def Connected (s : DeskPool) (c : Connection) : Prop := ∃ pc ∈ s.calls, pc.conn = some c

/-- The registry knows every connection that is not closed, under a number of its
own. -/
structure RegistryInv (s : DeskPool) : Prop where
  registered : ∀ {k pc c}, s.call k = some pc → pc.conn = some c →
    c.id ∈ s.store.closed ∨ ⟨c.id, c.hostID⟩ ∈ s.store.live.conns c.caller.sessionID
  numbered : ∀ {k pc c}, s.call k = some pc → pc.conn = some c → c.id ≤ s.store.live.next
  distinct : ∀ {j k p q}, j ≠ k → s.call j = some p → s.call k = some q →
    ∀ c d, p.conn = some c → q.conn = some d → c.id ≠ d.id

/-- Who was authenticated has a session, which is not revoked unless it was ended. -/
def CallersInv (s : DeskPool) : Prop :=
  ∀ pc ∈ s.calls, ∀ caller, pc.caller = some caller → ∃ sess ∈ s.store.sessions.rows,
    sess.id = caller.sessionID ∧ sess.userId = caller.userID ∧
      (sess.revokedAt ≠ none → .ended caller.sessionID ∈ s.calls)

/-- How far the cuts are. -/
structure CutsInv (s : DeskPool) : Prop where
  session : ∀ sid, .marking sid ∈ s.calls ∨ .ended sid ∈ s.calls →
    ∀ c, Connected s c → c.caller.sessionID = sid → c.id ∈ s.store.closed
  denied : ∀ user host, .listing user host ∈ s.calls ∨ (∃ rest, .cutting user host rest ∈ s.calls) ∨
    .cut user host ∈ s.calls → ⟨user, host⟩ ∈ s.store.access.denials
  cutting : ∀ user host rest, .cutting user host rest ∈ s.calls →
    ∀ c, Connected s c → c.caller.userID = user → c.hostID = host → c.id ∈ s.store.closed ∨
    c.caller.sessionID ∈ rest
  cut : ∀ user host, .cut user host ∈ s.calls →
    ∀ c, Connected s c → c.caller.userID = user → c.hostID = host → c.id ∈ s.store.closed

section

variable {cfg : Config} {s s' : DeskPool} {k : ℕ} {d' : Desk} {pc pc' : DeskPc} {m : DeskMove}
  {ms : List DeskMove}

variable {c : Connection}

theorem RegistryInv.closed_or_live (hi : RegistryInv s) (hc : Connected s c) :
    c.id ∈ s.store.closed ∨ ⟨c.id, c.hostID⟩ ∈ s.store.live.conns c.caller.sessionID := by
  obtain ⟨pc, hmem, hpc⟩ := hc
  obtain ⟨k, hk⟩ := List.mem_iff_getElem?.mp hmem
  exact hi.registered hk hpc

theorem conn_deskStart (q : DeskRequest) : (deskStart q).conn = none := by cases q <;> rfl

theorem caller_deskStart (q : DeskRequest) : (deskStart q).caller = none := by cases q <;> rfl

theorem Connected.of_enter {q : DeskRequest} (h : Connected (s.enter (deskStart q)) c) :
    Connected s c := by
  obtain ⟨pc, hmem, hc⟩ := h
  rcases Pool.mem_enter hmem with hold | rfl
  · exact ⟨pc, hold, hc⟩
  · cases (conn_deskStart q).symm.trans hc

theorem mem_of_mem_enter {q : DeskRequest} (h : pc ∈ (s.enter (deskStart q)).calls)
    (hne : ∀ q, deskStart q ≠ pc := by intro q; cases q <;> nofun) : pc ∈ s.calls :=
  (Pool.mem_enter h).resolve_right fun heq => hne q heq.symm

/-! ### A new request -/

theorem registryInv_enter (hi : RegistryInv s) (q : DeskRequest) :
    RegistryInv (s.enter (deskStart q)) := by
  have hnone := conn_deskStart q
  have hold : ∀ {k pc c}, (s.enter (deskStart q)).call k = some pc → pc.conn = some c →
      s.call k = some pc := by
    intro k pc c hk hc
    rcases Pool.call_enter hk with hold | ⟨-, rfl⟩
    · exact hold
    · cases hnone.symm.trans hc
  refine ⟨fun hk hc => hi.registered (hold hk hc) hc, fun hk hc => hi.numbered (hold hk hc) hc,
    Pool.pair_enter ?_ hi.distinct ?_⟩
  · exact fun h c d hc hd => (h d c hd hc).symm
  · intro pc _ c d hc _
    cases hnone.symm.trans hc

theorem callersInv_enter (hi : CallersInv s) (q : DeskRequest) :
    CallersInv (s.enter (deskStart q)) := by
  intro pc hpc caller hc
  rcases Pool.mem_enter hpc with hold | rfl
  · obtain ⟨sess, hsess, hid, huser, hrevoked⟩ := hi pc hold caller hc
    exact ⟨sess, hsess, hid, huser, fun h => List.mem_append_left _ (hrevoked h)⟩
  · cases (caller_deskStart q).symm.trans hc

theorem cutsInv_enter (hi : CutsInv s) (q : DeskRequest) : CutsInv (s.enter (deskStart q)) := by
  refine ⟨?_, ?_, ?_, ?_⟩
  · intro sid hcut c hc hsid
    exact hi.session sid (hcut.imp (mem_of_mem_enter ·) (mem_of_mem_enter ·)) c hc.of_enter hsid
  · intro user host hcut
    refine hi.denied user host (hcut.imp (mem_of_mem_enter ·) (.imp ?_ (mem_of_mem_enter ·)))
    exact fun ⟨rest, h⟩ => ⟨rest, mem_of_mem_enter h⟩
  · intro user host rest h c hc
    exact hi.cutting user host rest (mem_of_mem_enter h) c hc.of_enter
  · intro user host h c hc
    exact hi.cut user host (mem_of_mem_enter h) c hc.of_enter

/-- The sessions that a cut lists are those of all connections it has to close. -/
theorem closed_or_listed (hcallers : CallersInv s) (hi : CutsInv s) (hc : Connected s c) :
    c.id ∈ s.store.closed ∨
      c.caller.sessionID ∈ (listUserSessions c.caller.userID s.store.sessions).map Session.id := by
  obtain ⟨pc, hmem, hpc⟩ := hc
  have hcaller : pc.caller = some c.caller := by
    cases pc <;> cases hpc <;> rfl
  obtain ⟨sess, hsess, hid, huser, hrevoked⟩ := hcallers pc hmem c.caller hcaller
  by_cases hnone : sess.revokedAt = none
  · right
    exact List.mem_map.mpr ⟨sess, mem_listUserSessions.mpr ⟨hsess, huser, hnone⟩, hid⟩
  · left
    exact hi.session c.caller.sessionID (.inr (hrevoked hnone)) c ⟨pc, hmem, hpc⟩ rfl

/-! ### A step -/

section

variable {sid : UUID} (hk : s.call k = some pc) (h : DeskEffect s.store pc d' pc')

include hk h

theorem registryInv_put (hi : RegistryInv s) : RegistryInv (s.put k d' pc') := by
  refine ⟨?_, ?_, Pool.pair_put ?_ hi.distinct ?_⟩
  · intro j q c hj hc
    rcases Pool.call_put hj with ⟨-, rfl⟩ | ⟨hne, hj⟩
    · rcases h.conn hc with ⟨hold, rfl⟩ | ⟨-, hid, rfl, -⟩
      · exact hi.registered hk hold
      · right
        rw [hid]
        exact Registry.mem_register_self
    · rcases hi.registered hj hc with hclosed | hlive
      · exact .inl (h.closed_subset c.id hclosed)
      · exact h.live hlive fun own hown _ => hi.distinct hne.symm hk hj own c hown hc
  · intro j q c hj hc
    rcases Pool.call_put hj with ⟨-, rfl⟩ | ⟨-, hj⟩
    · rcases h.conn hc with ⟨hold, rfl⟩ | ⟨-, hid, rfl, -⟩
      · exact hi.numbered hk hold
      · exact hid.le
    · exact (hi.numbered hj hc).trans h.next_le
  · exact fun h c d hc hd => (h d c hd hc).symm
  · intro j q hne hj c d hc hd
    rcases h.conn hc with ⟨hold, -⟩ | ⟨-, hid, -⟩
    · exact hi.distinct hne.symm hk hj c d hold hd
    · have hle := hi.numbered hj hd
      omega

theorem ended_mem_put (hended : .ended sid ∈ s.calls) : .ended sid ∈ (s.put k d' pc').calls := by
  rcases Pool.mem_put_of_mem hk hended d' pc' with rfl | hmem
  · cases h with
    | refused hpc | left c hpc => cases hpc
  · exact hmem

theorem callersInv_put (hi : CallersInv s) :
    CallersInv (s.put k d' pc') := by
  -- what a row says of the session it says after the step
  have hkeep : ∀ caller : Caller, (∃ sess ∈ s.store.sessions.rows, sess.id = caller.sessionID ∧
      sess.userId = caller.userID ∧ (sess.revokedAt ≠ none → .ended caller.sessionID ∈ s.calls)) →
      ∃ sess ∈ d'.sessions.rows, sess.id = caller.sessionID ∧ sess.userId = caller.userID ∧
        (sess.revokedAt ≠ none → .ended caller.sessionID ∈ (s.put k d' pc').calls) := by
    rintro caller ⟨sess, hsess, hid, huser, hrevoked⟩
    obtain ⟨sess', hsess', hid', huser', hrevoked'⟩ := h.sessions hsess
    refine ⟨sess', hsess', hid'.trans hid, huser'.trans huser, fun hne => ?_⟩
    rcases hrevoked' hne with hbefore | hended
    · exact ended_mem_put hk h (hrevoked hbefore)
    · rw [hid] at hended
      rw [← hended]
      exact List.mem_of_getElem? (Pool.call_put_self hk d' pc')
  intro q hq caller hc
  rcases Pool.mem_put hq with hold | rfl
  · exact hkeep caller (hi q hold caller hc)
  · rcases h.caller hc with hbefore | ⟨sess, hsess, hid, huser, hnone⟩
    · exact hkeep caller (hi pc (Pool.mem_of_call hk) caller hbefore)
    · exact hkeep caller ⟨sess, hsess, hid, huser, fun hne => absurd hnone hne⟩

/-- A session whose connections have been closed was so before, or is so by this
step. -/
theorem session_origin
    (hcut : .marking sid ∈ (s.put k d' pc').calls ∨ .ended sid ∈ (s.put k d' pc').calls) :
    (.marking sid ∈ s.calls ∨ .ended sid ∈ s.calls) ∨
      (pc' = .marking sid ∧ d'.closed = s.store.closed ++ (s.store.live.close sid).2) := by
  rcases hcut with hcut | hcut
  · rcases Pool.mem_put hcut with hold | rfl
    · exact .inl (.inl hold)
    · cases h with
      | closed sid => exact .inr ⟨rfl, rfl⟩
  · rcases Pool.mem_put hcut with hold | rfl
    · exact .inl (.inr hold)
    · cases h with
      | marked sid now => exact .inl (.inl (Pool.mem_of_call hk))

/-- A host whose denial has begun was denied before, or is by this step. -/
theorem denied_origin (hi : CutsInv s)
    {user host : UUID} (hcut : .listing user host ∈ (s.put k d' pc').calls ∨
      (∃ rest, .cutting user host rest ∈ (s.put k d' pc').calls) ∨
      .cut user host ∈ (s.put k d' pc').calls) :
    ⟨user, host⟩ ∈ s.store.access.denials ∨
    (pc' = .listing user host ∧ ⟨user, host⟩ ∈ d'.access.denials) := by
  have hmem := Pool.mem_of_call hk
  rcases hcut with hcut | ⟨rest, hcut⟩ | hcut
  · rcases Pool.mem_put hcut with hold | rfl
    · exact .inl (hi.denied user host (.inl hold))
    · cases h with
      | denied user host => exact .inr ⟨rfl, mem_denyHostAccess _ user host⟩
  · rcases Pool.mem_put hcut with hold | rfl
    · exact .inl (hi.denied user host (.inr (.inl ⟨rest, hold⟩)))
    · cases h with
      | listed user host => exact .inl (hi.denied user host (.inl hmem))
      | cutOne user host sess rest => exact .inl (hi.denied user host (.inr (.inl ⟨_, hmem⟩)))
  · rcases Pool.mem_put hcut with hold | rfl
    · exact .inl (hi.denied user host (.inr (.inr hold)))
    · cases h with
      | cutAll user host => exact .inl (hi.denied user host (.inr (.inl ⟨_, hmem⟩)))

variable {i : DeskInput} (hg : RegisteredInTime s (.advance k i))

include hg

/-- A connection after the step was there before, or was registered in time. -/
theorem connected_put (hc : Connected (s.put k d' pc') c) :
    Connected s c ∨ (.marking c.caller.sessionID ∉ s.calls ∧ .ended c.caller.sessionID ∉ s.calls ∧
      ⟨c.caller.userID, c.hostID⟩ ∉ s.store.access.denials ∧ pc' = .dialing c) := by
  obtain ⟨q, hq, hqc⟩ := hc
  rcases Pool.mem_put hq with hold | rfl
  · exact .inl ⟨q, hold, hqc⟩
  rcases h.conn hqc with ⟨hbefore, -⟩ | ⟨rfl, -, -, hdialing⟩
  · exact .inl ⟨pc, Pool.mem_of_call hk, hbefore⟩
  · obtain ⟨hmarking, hended, hallowed⟩ := hg _ hk (c.caller, c.hostID) rfl
    exact .inr ⟨hmarking, hended, hallowed, hdialing⟩

theorem closed_of_session_put (hregistry : RegistryInv s) (hi : CutsInv s) {sid : UUID}
    (hcut : .marking sid ∈ (s.put k d' pc').calls ∨ .ended sid ∈ (s.put k d' pc').calls)
    (hc : Connected (s.put k d' pc') c) (hsid : c.caller.sessionID = sid) : c.id ∈ d'.closed := by
  rcases session_origin hk h hcut with hbefore | ⟨rfl, hclosed⟩
  · rcases connected_put hk h hg hc with hold | ⟨hmarking, hended, -, -⟩
    · exact h.closed_subset _ (hi.session sid hbefore c hold hsid)
    subst hsid
    rcases hbefore with hbefore | hbefore
    · exact absurd hbefore hmarking
    · exact absurd hbefore hended
  · rcases connected_put hk h hg hc with hold | ⟨-, -, -, hnot⟩
    · rcases hregistry.closed_or_live hold with hbefore | hlive
      · exact h.closed_subset _ hbefore
      · rw [hclosed]
        rw [hsid] at hlive
        exact List.mem_append_right _ (List.mem_map_of_mem (f := LiveConn.id) hlive)
    · cases hnot

/-- No connection is made to a host whose denial has begun. -/
theorem connected_of_denied (hi : CutsInv s) (hc : Connected (s.put k d' pc') c)
    (hcut : (∃ rest, .cutting c.caller.userID c.hostID rest ∈ (s.put k d' pc').calls) ∨
      .cut c.caller.userID c.hostID ∈ (s.put k d' pc').calls) : Connected s c := by
  refine (connected_put hk h hg hc).resolve_right ?_
  rintro ⟨-, -, hallowed, hdialing⟩
  rcases denied_origin hk h hi (.inr hcut) with hbefore | ⟨hlisting, -⟩
  · exact hallowed hbefore
  · cases hdialing.symm.trans hlisting

/-- While a cut goes through the sessions, what is not closed is still to come. -/
theorem closed_or_mem_rest_put (hregistry : RegistryInv s) (hcallers : CallersInv s)
    (hi : CutsInv s) {rest : List UUID}
    (hcut : .cutting c.caller.userID c.hostID rest ∈ (s.put k d' pc').calls)
    (hc : Connected (s.put k d' pc') c) : c.id ∈ d'.closed ∨ c.caller.sessionID ∈ rest := by
  have hold := connected_of_denied hk h hg hi hc (.inl ⟨rest, hcut⟩)
  rcases Pool.mem_put hcut with hbefore | rfl
  · exact (hi.cutting _ _ rest hbefore c hold rfl rfl).imp_left (h.closed_subset _)
  cases h with
  | listed user host => exact closed_or_listed hcallers hi hold
  | cutOne user host sess rest =>
    rcases hi.cutting _ _ _ (Pool.mem_of_call hk) c hold rfl rfl with hbefore | hrest
    · exact .inl (List.mem_append_left _ hbefore)
    rcases List.mem_cons.mp hrest with hsess | hrest
    · left
      rcases hregistry.closed_or_live hold with hbefore | hlive
      · exact List.mem_append_left _ hbefore
      · rw [hsess] at hlive
        refine List.mem_append_right _ (List.mem_map.mpr ⟨_, List.mem_filter.mpr ⟨hlive, ?_⟩, rfl⟩)
        exact decide_eq_true rfl
    · exact .inr hrest

theorem closed_of_cut_put (hi : CutsInv s)
    (hcut : .cut c.caller.userID c.hostID ∈ (s.put k d' pc').calls)
    (hc : Connected (s.put k d' pc') c) : c.id ∈ d'.closed := by
  have hold := connected_of_denied hk h hg hi hc (.inr hcut)
  rcases Pool.mem_put hcut with hbefore | rfl
  · exact h.closed_subset _ (hi.cut _ _ hbefore c hold rfl rfl)
  cases h with
  | cutAll user host =>
    rcases hi.cutting _ _ [] (Pool.mem_of_call hk) c hold rfl rfl with hclosed | hnil
    · exact hclosed
    · cases hnil

theorem cutsInv_put (hregistry : RegistryInv s) (hcallers : CallersInv s) (hi : CutsInv s) :
    CutsInv (s.put k d' pc') := by
  refine ⟨?_, ?_, ?_, ?_⟩
  · intro sid hcut c hc hsid
    exact closed_of_session_put hk h hg hregistry hi hcut hc hsid
  · intro user host hcut
    rcases denied_origin hk h hi hcut with hbefore | ⟨-, hnow⟩
    · exact h.denials_subset _ hbefore
    · exact hnow
  · rintro user host rest hcut c hc rfl rfl
    exact closed_or_mem_rest_put hk h hg hregistry hcallers hi hcut hc
  · rintro user host hcut c hc rfl rfl
    exact closed_of_cut_put hk h hg hi hcut hc

end

structure DeskInv (s : DeskPool) : Prop where
  registry : RegistryInv s
  callers : CallersInv s
  cuts : CutsInv s

theorem deskInv_step (hi : DeskInv s) (hg : RegisteredInTime s m) (h : deskStep cfg s m = some s') :
    DeskInv s' := by
  rcases poolStep_cases h with ⟨q, rfl, rfl⟩ | ⟨k, i, pc, d', pc', rfl, hk, hact, rfl⟩
  · exact ⟨registryInv_enter hi.registry q, callersInv_enter hi.callers q, cutsInv_enter hi.cuts q⟩
  · have heffect := deskAct_effect hact
    exact ⟨registryInv_put hk heffect hi.registry, callersInv_put hk heffect hi.callers,
      cutsInv_put hk heffect hg hi.registry hi.callers hi.cuts⟩

theorem deskInv_unconnected (sessions : Sessions) (access : AccessTables) :
    DeskInv (unconnected sessions access) := by
  refine ⟨⟨?_, ?_, ?_⟩, ?_, ⟨?_, ?_, ?_, ?_⟩⟩
  all_goals simp [CallersInv, unconnected, Pool.call]

end

/-- In every run in which connections are registered in time, a cut misses none. -/
theorem cuts_miss_nothing {cfg : Config} {sessions : Sessions} {access : AccessTables}
    {ms : List DeskMove} {s : DeskPool}
    (h : exec (deskStep cfg) (unconnected sessions access) ms = some s)
    (htime : Guarded (deskStep cfg) RegisteredInTime (unconnected sessions access) ms) :
    NothingMissed s := by
  have hi := exec_invariant deskInv_step htime h (deskInv_unconnected sessions access)
  constructor
  · rintro sid hended c ⟨hrelaying, hopen⟩ hsid
    exact hopen (hi.cuts.session sid (.inr hended) c ⟨_, hrelaying, rfl⟩ hsid)
  · rintro user host hcut c ⟨hrelaying, hopen⟩ ⟨huser, hhost⟩
    exact hopen (hi.cuts.cut user host hcut c ⟨_, hrelaying, rfl⟩ huser hhost)

def deskConfig : Config := ⟨hour, minute, hour, hour⟩

def oneSession : Sessions :=
  .single ⟨.ofNat 5, .ofNat 1, "", none, "browser", true, 0, 0, hour, none⟩

def oneHost : AccessTables where
  hosts := .single ⟨.ofNat 9, "db", "", "", "", ""⟩
  userGroups := []
  hostGroups := []
  hostUsers := [⟨.ofNat 9, .ofNat 1⟩]
  permissions := .empty
  denials := []
  hostGroups_host _ h := absurd h List.not_mem_nil
  hostUsers_host _ h := ⟨_, List.mem_singleton_self _, by rw [List.mem_singleton.mp h]⟩
  permissions_host _ h := absurd h Table.not_mem_empty

def deskMove (k : ℕ) : DeskMove := .advance k ⟨minute, true, some ⟨false, false⟩, true⟩

def deskConnect : DeskMove := .begin (.connect (.ofNat 5) (.ofNat 9))

def deskEnd : DeskMove := .begin (.endSession (.ofNat 5))

def deskDeny : DeskMove := .begin (.revokeHostAccess (.ofNat 1) (.ofNat 9))

def deskView (s : DeskPool) : List DeskPc × List ℕ := (s.calls, s.store.closed)

def firstConnection : Connection := ⟨⟨.ofNat 1, .ofNat 5, false⟩, .ofNat 9, 1⟩

/-- Registered before either cut, the connection is closed. -/
theorem cuts_miss_nothing_registered :
    ∃ s, exec (deskStep deskConfig) (unconnected oneSession oneHost)
        [deskConnect, deskEnd, deskDeny, deskMove 0, deskMove 0, deskMove 0, deskMove 0, deskMove 2,
          deskMove 2, deskMove 1, deskMove 2, deskMove 2, deskMove 1, deskMove 1] = some s ∧
      deskView s = ([.relaying firstConnection, .ended (.ofNat 5),
        .cut (.ofNat 1) (.ofNat 9)], [1]) ∧
      NothingMissed s := by
  refine exists_of_view deskView _ (by decide +kernel) fun s hs hview => ⟨hview, ?_⟩
  exact cuts_miss_nothing hs (by decide +kernel)

theorem open_of_view {s : DeskPool} {pc : DeskPc} {c : Connection}
    (h : deskView s = ([.relaying c, pc], [])) : pc ∈ s.calls ∧ Open s c := by
  obtain ⟨hcalls, hclosed⟩ := Prod.mk.inj h
  unfold Open
  rw [hcalls, hclosed]
  exact ⟨List.mem_cons_of_mem _ (List.mem_singleton_self pc), List.mem_cons_self, List.not_mem_nil⟩

/-- Either cut misses the connection: an attempt that authenticates after the session's
connections were closed and before it is marked as revoked, and one that has passed
the access check before the host is denied and registers afterwards. -/
theorem attempt_survives_cut : (∃ s, exec (deskStep deskConfig) (unconnected oneSession oneHost)
        [deskConnect, deskEnd, deskMove 1, deskMove 1, deskMove 0, deskMove 1, deskMove 0,
          deskMove 0, deskMove 0] = some s ∧ .ended (.ofNat 5) ∈ s.calls ∧ Open s firstConnection ∧
            ¬ NothingMissed s) ∧
    (∃ s, exec (deskStep deskConfig) (unconnected oneSession oneHost)
        [deskConnect, deskMove 0, deskMove 0, deskDeny, deskMove 1, deskMove 1, deskMove 1,
          deskMove 1, deskMove 0, deskMove 0] = some s ∧
      .cut (.ofNat 1) (.ofNat 9) ∈ s.calls ∧ Open s firstConnection ∧ ¬ NothingMissed s) := by
  constructor
  · refine exists_of_view deskView
      ([.relaying firstConnection, .ended (.ofNat 5)], []) (by decide +kernel) fun s _ hview => ?_
    obtain ⟨hended, hopen⟩ := open_of_view hview
    exact ⟨hended, hopen, fun hnone => hnone.session _ hended _ hopen rfl⟩
  · refine exists_of_view deskView ([.relaying firstConnection, .cut (.ofNat 1) (.ofNat 9)], [])
      (by decide +kernel) fun s _ hview => ?_
    obtain ⟨hcut, hopen⟩ := open_of_view hview
    exact ⟨hcut, hopen, fun hnone => hnone.host _ _ hcut _ hopen ⟨rfl, rfl⟩⟩

end Moorgate.Terminal
