import Moorgate.Framework.Base.Calls
import Moorgate.Store.Approvals

/-!
# Just-in-time access: `approvals/approvals.go`

Users request access, deciders approve or deny, the reaper ends what has run out and the retention
job deletes what is old, any number of calls at once. A decider reads the request, checks it and
only then decides it: what the decision relies on is checked again by the transaction, except who
asked, which never changes.
-/

namespace Moorgate.Approvals

open Framework Models Store

/-- The host and the group as `uuid.Parse` reads them. -/
structure ApprovalReq where
  (reason targetKind : String)
  (hostId groupId : Option UUID)
  requestedSecs : ℤ
  ticketRef : String

structure DecideReq where
  (decision note : String)
  grantedSecs : ℤ

inductive Decision where
  | approved | denied
deriving DecidableEq

def Decision.status : Decision → ApprovalStatus
  | .approved => .approved
  | .denied => .denied

def Decision.read (decision : String) : Option Decision :=
  if decision = "approve" ∨ decision = "approved" then some .approved
  else if decision = "deny" ∨ decision = "denied" then some .denied
  else none

/-- What a call answers: the request, an error, or what a background pass did. -/
inductive Reply where
  | request (code : ℕ) (ar : ApprovalRequest)
  | error (code : ℕ) (message : String)
  | expired (grants : List TemporaryPermission)
  | pruned (n : ℕ)
  | failed
deriving DecidableEq

/-- The checks of `create`, on the body as it was decoded. -/
def approvalRequestInput (userID : UUID) : Option ApprovalReq → Except Reply ApprovalRequestInput
  | none => .error (.error 400 "invalid request body")
  | some rq =>
    if rq.requestedSecs ≤ 0 then .error (.error 400 "requestedSecs must be positive")
    else if rq.targetKind = "host" then
      match rq.hostId with
      | none => .error (.error 400 "valid hostId is required")
      | some id => .ok ⟨userID, .host, some id, none, rq.reason, rq.ticketRef, rq.requestedSecs⟩
    else if rq.targetKind = "group" then
      match rq.groupId with
      | none => .error (.error 400 "valid groupId is required")
      | some id => .ok ⟨userID, .group, none, some id, rq.reason, rq.ticketRef, rq.requestedSecs⟩
    else .error (.error 400 "targetKind must be host or group")

/-- What `decide` passes on to the store. -/
structure Deciding where
  (id decidedBy : UUID)
  decision : Decision
  note : String
  grantedSecs : ℤ
deriving DecidableEq

def lifetime (rq : DecideReq) (decision : Decision) (existing : ApprovalRequest) : ℤ :=
  if decision = .approved ∧ rq.grantedSecs ≤ 0 then existing.requestedSecs else rq.grantedSecs

/-- The checks of `decide` on the request it has read. -/
def checkDecision (userID id : UUID) (rq : DecideReq) (decision : Decision)
    (existing : ApprovalRequest) : Except Reply Deciding :=
  if existing.status ≠ .pending then .error (.error 409 "approval request is not pending")
  else if existing.requesterId = userID then
    .error (.error 403 "you cannot decide your own access request")
  else .ok ⟨id, userID, decision, rq.note, lifetime rq decision existing⟩

inductive AccessCall where
  | create (userID : UUID) (body : Option ApprovalReq)
  | decide (userID : UUID) (id : Option UUID) (body : Option DecideReq)
  | reaper
  | retention (cutoff : Instant)

inductive AccessPc where
  | called (c : AccessCall)
  | created (id : UUID) -- `GetApprovalRequest` of the new request
  | ticketing (ar : ApprovalRequest) -- `CreateTicket` and `SetApprovalTicketRef`
  | deciding (d : Deciding) -- `DecideApprovalRequest`
  | returned (reply : Reply)

/-- What a statement takes from outside. `ok = false` is an error of the database,
which leaves the tables as they are; `ticket` is the reference of the ticket that
was opened, if one was. -/
structure AccessInput where
  now : Instant
  newID : UUID
  ok : Bool
  ticket : Option String

def accessAct (i : AccessInput) (t : ApprovalTables) : AccessPc → Option (ApprovalTables × AccessPc)
  | .called (.create userID body) =>
    match approvalRequestInput userID body with
    | .error reply => some (t, .returned reply)
    | .ok inp =>
      if i.ok then
        (createApprovalRequest i.now i.newID inp t).map fun t' => (t', .created i.newID)
      else some (t, .returned (.error 500 "could not create approval request"))
  | .created id =>
    match (if i.ok then t.requests.lookup id else none) with
    | none => some (t, .returned (.error 500 "could not create approval request"))
    | some ar => some (t, if ar.ticketRef = "" then .ticketing ar else .returned (.request 201 ar))
  | .ticketing ar =>
    match i.ticket with
    | none => some (t, .returned (.request 201 ar))
    | some ref =>
      -- the reference is shown in the answer only when it was stored
      if ref ≠ "" ∧ i.ok then
        some (setApprovalTicketRef ar.id ref t,
          .returned (.request 201 { ar with ticketRef := ref }))
      else some (t, .returned (.request 201 ar))
  | .called (.decide userID id body) =>
    match id, body with
    | none, _ => some (t, .returned (.error 400 "invalid approval id"))
    | some _, none => some (t, .returned (.error 400 "invalid request body"))
    | some id, some rq =>
      match Decision.read rq.decision with
      | none => some (t, .returned (.error 400 "decision must be approve or deny"))
      | some decision =>
        match (if i.ok then t.requests.lookup id else none) with
        | none => some (t, .returned (.error 404 "approval request not found"))
        | some existing =>
          match checkDecision userID id rq decision existing with
          | .error reply => some (t, .returned reply)
          | .ok d => some (t, .deciding d)
  | .deciding d =>
    match (if i.ok then decideApprovalRequest i.now i.newID d.id d.decidedBy
      d.decision.status d.note d.grantedSecs t else none) with
    | none => some (t, .returned (.error 500 "could not record decision"))
    | some (ar, t') => some (t', .returned (.request 200 ar))
  | .called .reaper =>
    if i.ok then
      let (grants, t') := expireTemporaryPermissions i.now t
      some (t', .returned (.expired grants))
    else some (t, .returned .failed)
  | .called (.retention cutoff) =>
    if i.ok then
      let (n, t') := pruneApprovalRequestsBefore i.now cutoff t
      some (t', .returned (.pruned n))
    else some (t, .returned .failed)
  | .returned _ => none

abbrev AccessPool := Pool ApprovalTables AccessPc
abbrev AccessMove := Move AccessCall AccessInput

def accessStep : AccessPool → AccessMove → Option AccessPool := poolStep AccessPc.called accessAct

def noRequests : AccessPool := ⟨⟨.empty, .empty, []⟩, []⟩

/-! ## What a statement writes -/

/-- What a decision relies on that the transaction does not check again: the
request, if it is still there, is another's. -/
def AccessPc.Fits (t : ApprovalTables) : AccessPc → Prop
  | .deciding d => d.id ∈ t.drawn ∧ ∀ r ∈ t.requests.rows, r.id = d.id → r.requesterId ≠ d.decidedBy
  | _ => True

inductive Writes (i : AccessInput) (t : ApprovalTables) : AccessPc → ApprovalTables → Prop where
  | create {userID : UUID} {body : Option ApprovalReq} {inp : ApprovalRequestInput}
      {t' : ApprovalTables} (h : createApprovalRequest i.now i.newID inp t = some t') :
      Writes i t (.called (.create userID body)) t'
  | ticket (ar : ApprovalRequest) (ref : String) :
      Writes i t (.ticketing ar) (setApprovalTicketRef ar.id ref t)
  | decide {d : Deciding} {ar : ApprovalRequest} {t' : ApprovalTables}
      (h : decideApprovalRequest i.now i.newID d.id d.decidedBy d.decision.status d.note
      d.grantedSecs t =
        some (ar, t')) : Writes i t (.deciding d) t'
  | expire : Writes i t (.called .reaper) (expireTemporaryPermissions i.now t).2
  | prune (cutoff : Instant) :
      Writes i t (.called (.retention cutoff)) (pruneApprovalRequestsBefore i.now cutoff t).2

theorem Decision.pending_moves (d : Decision) : ApprovalStatus.pending.Moves d.status := by
  cases d with
  | approved => exact .approve
  | denied => exact .deny

theorem Decision.status_cases (d : Decision) : d.status = .approved ∨ d.status = .denied := by
  cases d with
  | approved => exact .inl rfl
  | denied => exact .inr rfl

section

variable {i : AccessInput} {t t' : ApprovalTables} {pc pc' : AccessPc}

theorem Writes.evolves (h : Writes i t pc t') : Evolves t t' := by
  cases h with
  | create h => exact evolves_create h
  | ticket ar ref => exact evolves_setApprovalTicketRef ar.id ref t
  | @decide d _ _ h => exact evolves_decide d.decision.pending_moves h
  | expire => exact evolves_expire i.now t
  | prune cutoff => exact evolves_prune i.now cutoff t

theorem Writes.sound (ht : Sound t) (hfits : pc.Fits t) (h : Writes i t pc t') : Sound t' := by
  cases h with
  | create h => exact sound_create ht h
  | ticket ar ref => exact sound_setApprovalTicketRef ar.id ref ht
  | @decide d _ _ h => exact sound_decide ht hfits.2 d.decision.status_cases h
  | expire => exact sound_expire i.now ht
  | prune cutoff => exact sound_prune i.now cutoff ht

variable {userID id : UUID} {rq : DecideReq} {decision : Decision} {existing : ApprovalRequest}
  {d : Deciding}

theorem checkDecision_eq_ok (h : checkDecision userID id rq decision existing = .ok d) :
    d.id = id ∧ d.decidedBy = userID ∧ existing.requesterId ≠ userID := by
  unfold checkDecision at h
  split at h
  · cases h
  split at h
  · cases h
  · rename_i hother
    cases h
    exact ⟨rfl, rfl, hother⟩

theorem fits_of_answer {reply : Reply} (h : some (t, AccessPc.returned reply) = some (t', pc')) :
    t' = t ∧ pc'.Fits t := by
  cases h
  exact ⟨rfl, trivial⟩

theorem fits_of_check (ht : Sound t) (hread : t.requests.lookup id = some existing)
    (hcheck : checkDecision userID id rq decision existing = .ok d) :
    (AccessPc.deciding d).Fits t := by
  obtain ⟨hexisting, rfl⟩ := Table.lookup_eq_some.mp hread
  obtain ⟨hid, hby, hother⟩ := checkDecision_eq_ok hcheck
  constructor
  · rw [hid]
    exact ht.drawn existing hexisting
  · intro r hr hrid
    rw [Table.eq_of_key hr hexisting (hrid.trans hid), hby]
    exact hother

/-- All that a statement can do: it changes nothing, and what a decision relies on
holds when it is reached, or it writes. -/
theorem accessAct_cases (ht : Sound t) (h : accessAct i t pc = some (t', pc')) :
    (t' = t ∧ pc'.Fits t) ∨ (Writes i t pc t' ∧ ∀ t'', pc'.Fits t'') := by
  revert h
  fun_cases accessAct i t pc with
  | case2 userID body inp hinp =>
    intro h
    obtain ⟨t₁, hcreate, ⟨⟩⟩ := Option.map_eq_some_iff.mp h
    exact .inr ⟨.create hcreate, fun _ => trivial⟩
  | case5 id ar =>
    rintro ⟨⟩
    refine .inl ⟨rfl, ?_⟩
    split <;> trivial
  | case7 ar ref =>
    rintro ⟨⟩
    exact .inr ⟨.ticket ar ref, fun _ => trivial⟩
  | case14 userID id rq decision hdecision existing hread d hcheck =>
    rintro ⟨⟩
    obtain ⟨-, hread⟩ := Option.ite_none_right_eq_some.mp hread
    exact .inl ⟨rfl, fits_of_check ht hread hcheck⟩
  | case16 d ar t₁ htx =>
    rintro ⟨⟩
    obtain ⟨-, htx⟩ := Option.ite_none_right_eq_some.mp htx
    exact .inr ⟨.decide htx, fun _ => trivial⟩
  | case17 hok grants t₁ hexpire =>
    rintro ⟨⟩
    have hwrites := Writes.expire (i := i) (t := t)
    rw [hexpire] at hwrites
    exact .inr ⟨hwrites, fun _ => trivial⟩
  | case19 cutoff hok n t₁ hprune =>
    rintro ⟨⟩
    have hwrites := Writes.prune (i := i) (t := t) cutoff
    rw [hprune] at hwrites
    exact .inr ⟨hwrites, fun _ => trivial⟩
  | case21 => rintro ⟨⟩
  | _ => exact fun h => .inl (fits_of_answer h)

theorem evolves_act (ht : Sound t) (h : accessAct i t pc = some (t', pc')) : Evolves t t' := by
  rcases accessAct_cases ht h with ⟨rfl, -⟩ | ⟨hwrites, -⟩
  · exact .refl t'
  · exact hwrites.evolves

theorem sound_act (ht : Sound t) (hfits : pc.Fits t) (h : accessAct i t pc = some (t', pc')) :
    Sound t' := by
  rcases accessAct_cases ht h with ⟨rfl, -⟩ | ⟨hwrites, -⟩
  · exact ht
  · exact hwrites.sound ht hfits

theorem fits_act (ht : Sound t) (h : accessAct i t pc = some (t', pc')) : pc'.Fits t' := by
  rcases accessAct_cases ht h with ⟨rfl, hfits⟩ | ⟨-, hfits⟩
  · exact hfits
  · exact hfits t'

/-- What a decision relies on stays: no statement changes who asked, and no new
request takes an id that was drawn before. -/
theorem AccessPc.Fits.evolves (hev : Evolves t t') (h : pc.Fits t) : pc.Fits t' := by
  cases pc with
  | deciding d =>
    obtain ⟨hdrawn, hother⟩ := h
    refine ⟨hev.drawn d.id hdrawn, ?_⟩
    intro r' hr' hid
    rcases hev.requests r' hr' with ⟨r, hr, hbecomes⟩ | ⟨hfresh, -⟩
    · rw [← hbecomes.requester]
      exact hother r hr (hbecomes.id.trans hid)
    · rw [hid] at hfresh
      exact absurd hdrawn hfresh
  | _ => trivial

end

/-! ## Runs -/

structure AccessInv (s : AccessPool) : Prop where
  sound : Sound s.store
  fits : ∀ pc ∈ s.calls, pc.Fits s.store

section

variable {s s' : AccessPool} {m : AccessMove} {ms : List AccessMove}

theorem evolves_step (hs : AccessInv s) (h : accessStep s m = some s') :
    Evolves s.store s'.store := by
  rcases poolStep_cases h with ⟨c, rfl, rfl⟩ | ⟨c, i, pc, t, pc', rfl, hpc, hact, rfl⟩
  · exact .refl s.store
  · exact evolves_act hs.sound hact

theorem accessInv_step (hs : AccessInv s) (h : accessStep s m = some s') : AccessInv s' := by
  have hev := evolves_step hs h
  rcases poolStep_cases h with ⟨c, rfl, rfl⟩ | ⟨c, i, pc, t, pc', rfl, hpc, hact, rfl⟩
  · exact ⟨hs.sound, Pool.forall_enter hs.fits trivial⟩
  · have hfits := hs.fits pc (Pool.mem_of_call hpc)
    have hothers : ∀ q ∈ s.calls, q.Fits t := fun q hq => (hs.fits q hq).evolves hev
    exact ⟨sound_act hs.sound hfits hact, Pool.forall_put hothers (fits_act hs.sound hact)⟩

theorem accessInv_noRequests : AccessInv noRequests :=
  ⟨sound_empty, fun _ h => absurd h List.not_mem_nil⟩

theorem accessInv_run (h : exec accessStep noRequests ms = some s) : AccessInv s :=
  exec_invariant_of_step accessInv_step h accessInv_noRequests

/-- A request whose id has been drawn was there all the time, and its status has
come here by moves. -/
theorem status_reaches (hs : AccessInv s) (h : exec accessStep s ms = some s') :
    ∀ r' ∈ s'.store.requests.rows, r'.id ∈ s.store.drawn →
    ∃ r ∈ s.store.requests.rows, r.id = r'.id ∧
        Relation.ReflTransGen ApprovalStatus.Moves r.status r'.status := by
  induction ms generalizing s with
  | nil =>
    cases h
    intro r' hr' _
    exact ⟨r', hr', rfl, .refl⟩
  | cons m ms ih =>
    intro r' hr' hdrawn
    obtain ⟨s₁, hstep, hrest⟩ := exec_cons_eq_some.mp h
    have hev := evolves_step hs hstep
    obtain ⟨q, hq, hqid, hreach⟩ :=
      ih (accessInv_step hs hstep) hrest r' hr' (hev.drawn r'.id hdrawn)
    rcases hev.requests q hq with ⟨r, hr, hbecomes⟩ | ⟨hfresh, -⟩
    · exact ⟨r, hr, hbecomes.id.trans hqid, .head hbecomes.status hreach⟩
    · rw [hqid] at hfresh
      exact absurd hdrawn hfresh

end

/-! ## The state machine -/

def grantsOf (t : ApprovalTables) (id : UUID) : List TemporaryPermission :=
  t.permissions.select fun p => decide (p.requestId = some id)

/-- The promises of just-in-time access, in a state and from there on. -/
structure JustInTime (s : AccessPool) : Prop where
  atMostOne : ∀ r ∈ s.store.requests.rows, (grantsOf s.store r.id).length ≤ 1
  granted_iff : ∀ r ∈ s.store.requests.rows,
    (∃ p, p ∈ grantsOf s.store r.id) ↔ r.status = .approved ∨ r.status = .expired
  ungranted : ∀ r ∈ s.store.requests.rows, r.status = .denied ∨ r.status = .pending →
    grantsOf s.store r.id = []
  separate : ∀ r ∈ s.store.requests.rows, r.decidedBy ≠ some r.requesterId
  live : ∀ p ∈ s.store.permissions.rows, ∀ now, p.active now →
    ∃ r ∈ s.store.requests.rows, p.requestId = some r.id ∧ r.status = .approved
  moves : ∀ m s', accessStep s m = some s' → ∀ r' ∈ s'.store.requests.rows,
    (∃ r ∈ s.store.requests.rows, r.id = r'.id ∧ r.status.Moves r'.status) ∨
      (r'.id ∉ s.store.drawn ∧ r'.status = .pending)
  reaches : ∀ ms s', exec accessStep s ms = some s' → ∀ r ∈ s.store.requests.rows,
    ∀ r' ∈ s'.store.requests.rows, r.id = r'.id →
    Relation.ReflTransGen ApprovalStatus.Moves r.status r'.status

section

variable {t : ApprovalTables}

variable {p : TemporaryPermission}

theorem mem_grantsOf {id : UUID} :
    p ∈ grantsOf t id ↔ p ∈ t.permissions.rows ∧ p.requestId = some id := by
  rw [grantsOf, Table.mem_select, decide_eq_true_iff]

theorem length_grantsOf (ht : Sound t) (id : UUID) : (grantsOf t id).length ≤ 1 := by
  have hnodup : (grantsOf t id).Nodup := (List.Nodup.of_map _ t.permissions.nodup).filter _
  have hsame : ∀ p ∈ grantsOf t id, ∀ q ∈ grantsOf t id, p = q := by
    intro p hp q hq
    obtain ⟨hp, hpid⟩ := mem_grantsOf.mp hp
    obtain ⟨hq, hqid⟩ := mem_grantsOf.mp hq
    exact ht.unique p hp q hq (hpid.trans hqid.symm)
  cases hgrants : grantsOf t id with
  | nil => exact Nat.zero_le 1
  | cons p rest =>
    have hmem : p ∈ grantsOf t id := by
      rw [hgrants]
      exact List.mem_cons_self
    have hsub : grantsOf t id ⊆ [p] := fun q hq => List.mem_singleton.mpr (hsame q hq p hmem)
    rw [← hgrants]
    exact (hnodup.subperm hsub).length_le

theorem exists_mem_grantsOf_iff (ht : Sound t) {r : ApprovalRequest} (hr : r ∈ t.requests.rows) :
    (∃ p, p ∈ grantsOf t r.id) ↔ r.status = .approved ∨ r.status = .expired := by
  constructor
  · rintro ⟨p, hp⟩
    obtain ⟨hp, hpr⟩ := mem_grantsOf.mp hp
    exact (ht.status_of_grant hp hr hpr).imp And.left And.left
  · intro hstatus
    obtain ⟨p, hp, hpr⟩ := ht.granted r hr hstatus
    exact ⟨p, mem_grantsOf.mpr ⟨hp, hpr⟩⟩

theorem grantsOf_eq_nil (ht : Sound t) {r : ApprovalRequest} (hr : r ∈ t.requests.rows)
    (hstatus : r.status = .denied ∨ r.status = .pending) : grantsOf t r.id = [] := by
  rw [List.eq_nil_iff_forall_not_mem]
  intro p hp
  have hgranted := (exists_mem_grantsOf_iff ht hr).mp ⟨p, hp⟩
  rcases hstatus with hstatus | hstatus <;> rw [hstatus] at hgranted <;>
    rcases hgranted with hgranted | hgranted <;> cases hgranted

theorem active_iff {now : Instant} : p.active now ↔ p.revokedAt = none ∧ now < p.expiresAt := by
  simp [TemporaryPermission.active]

theorem approved_of_active (ht : Sound t) (hp : p ∈ t.permissions.rows)
    {now : Instant} (hactive : p.active now) :
    ∃ r ∈ t.requests.rows, p.requestId = some r.id ∧ r.status = .approved := by
  obtain ⟨r, hr, hpr, ⟨hstatus, -⟩ | ⟨-, hrevoked⟩⟩ := ht.owned p hp
  · exact ⟨r, hr, hpr, hstatus⟩
  · exact absurd (active_iff.mp hactive).1 hrevoked

end

/-- Whatever the calls and however their statements interleave, the promises are
kept. -/
theorem access_is_just_in_time {ms : List AccessMove} {s : AccessPool}
    (h : exec accessStep noRequests ms = some s) : JustInTime s := by
  have hs := accessInv_run h
  constructor
  · intro r _
    exact length_grantsOf hs.sound r.id
  · intro r hr
    exact exists_mem_grantsOf_iff hs.sound hr
  · intro r hr hstatus
    exact grantsOf_eq_nil hs.sound hr hstatus
  · exact hs.sound.separate
  · intro p hp now hactive
    exact approved_of_active hs.sound hp hactive
  · intro m s' hstep r' hr'
    refine ((evolves_step hs hstep).requests r' hr').imp_left ?_
    rintro ⟨r, hr, hbecomes⟩
    exact ⟨r, hr, hbecomes.id, hbecomes.status⟩
  · intro ms' s' hrest r hr r' hr' hid
    obtain ⟨q, hq, hqid, hreach⟩ := status_reaches hs hrest r' hr' (hid ▸ hs.sound.drawn r hr)
    rwa [Table.eq_of_key hr hq (hid.trans hqid.symm)]

def uuid (n : ℕ) : UUID := ⟨BitVec.ofNat 128 n⟩

def accessMove (c : ℕ) (now : Instant) (newID : ℕ) : AccessMove :=
  .advance c ⟨now, uuid newID, true, none⟩

/-- User 1 asks twice. Users 2 and 3 read the first request at the same time, and
both approve it; the second request is denied, and the time of the first is over
before the reaper comes. -/
def twoDeciders : List AccessMove :=
  let ask : AccessCall := .create (uuid 1) (some ⟨"deploy", "host", some (uuid 9), none, 60, "T-1"⟩)
  let approve (user : ℕ) : AccessCall :=
    .decide (uuid user) (some (uuid 10)) (some ⟨"approve", "", 0⟩)
  let deny : AccessCall := .decide (uuid 2) (some (uuid 11)) (some ⟨"deny", "no ticket", 0⟩)
  [.begin ask, .begin ask, .begin (approve 2), .begin (approve 3), .begin deny, .begin .reaper,
    accessMove 0 0 10, accessMove 1 0 11, accessMove 2 1 0, accessMove 3 1 0, accessMove 2 2 20,
    accessMove 3 2 21, accessMove 4 3 0, accessMove 4 4 0, accessMove 5 (2 + 60 * second) 0]

/-- One of the two approvals is recorded, and there is one grant. -/
theorem access_is_just_in_time_twoDeciders : ∃ s, exec accessStep noRequests twoDeciders = some s ∧
      s.store.requests.rows.map (fun r => (r.id, r.status)) = [(uuid 10, .expired),
        (uuid 11, .denied)] ∧
      s.store.permissions.rows.map (fun p => (p.id, p.requestId)) = [(uuid 20, some (uuid 10))] ∧
      JustInTime s := by
  exact exists_of_view (fun s : AccessPool => (s.store.requests.rows.map fun r => (r.id, r.status),
    s.store.permissions.rows.map fun p => (p.id, p.requestId))) (_, _) (by decide +kernel)
    fun s hs hview =>
      ⟨(Prod.mk.inj hview).1, (Prod.mk.inj hview).2, access_is_just_in_time hs⟩

/-! ## What an approval grants -/

section

variable {t t' : ApprovalTables} {s s' : AccessPool}

/-- For who asked, what was asked, and for the time decided. -/
def Gives (r : ApprovalRequest) (p : TemporaryPermission) : Prop :=
  p.userId = r.requesterId ∧ p.hostId = r.hostId ∧ p.groupId = r.groupId ∧
    r.decidedAt = some p.grantedAt ∧ r.decidedBy.isSome ∧
    ∃ secs ∈ r.grantedSecs, p.expiresAt = p.grantedAt + secs * second

def Matches (t : ApprovalTables) : Prop :=
  ∀ p ∈ t.permissions.rows, ∀ r ∈ t.requests.rows, p.requestId = some r.id → Gives r p

theorem Matches.update {c : ApprovalRequest → Bool} {f : ApprovalRequest → ApprovalRequest}
    {hf : ∀ r, (f r).id = r.id} {requests : Table ApprovalRequest.id} (hm : Matches t)
    (hrequests : requests = t.requests.update c f hf)
    (h : ∀ p ∈ t.permissions.rows, ∀ r ∈ t.requests.rows, p.requestId = some r.id → c r →
      Gives r p → Gives (f r) p) :
    ∀ p ∈ t.permissions.rows, ∀ r ∈ requests.rows, p.requestId = some r.id → Gives r p := by
  intro p hp r' hr' hid
  rw [hrequests] at hr'
  rcases Table.mem_update_cases hr' with ⟨hr, -⟩ | ⟨r, hr, hc, rfl⟩
  · exact hm p hp r' hr hid
  · rw [hf] at hid
    exact h p hp r hr hid hc (hm p hp r hr hid)

theorem Writes.matches {i : AccessInput} {pc : AccessPc} (ht : Sound t) (hm : Matches t)
    (h : Writes i t pc t') : Matches t' := by
  cases h with
  | create h =>
    obtain ⟨hfresh, hperm, -, r, hins, hid, -⟩ := createApprovalRequest_eq_some h
    intro p hp
    rw [hperm] at hp
    refine Table.forall_insert hins (hm p hp) fun hpr => ?_
    -- the id is new, and the request of a grant is not
    obtain ⟨q, hq, hpq, -⟩ := ht.owned p hp
    rw [← hid, ← Option.some.inj (hpq.symm.trans hpr)] at hfresh
    exact absurd (ht.drawn q hq) hfresh
  | ticket ar ref =>
    exact hm.update (requests_setApprovalTicketRef ar.id ref) fun _ _ _ _ _ _ hgives => hgives
  | @decide d _ _ h =>
    obtain ⟨-, -, -, -, -, hrequests, -⟩ := decideApprovalRequest_eq_some h
    have hold := hm.update hrequests fun p hp r hr hid hc _ => by
      -- a request with a grant is not pending
      rcases ht.status_of_grant hp hr hid with ⟨hstatus, -⟩ | ⟨hstatus, -⟩ <;>
        cases (of_decide_eq_true hc).2.symm.trans hstatus
    unfold decideApprovalRequest at h
    split at h
    · cases h
    next r hlookup =>
    obtain ⟨hr, hid⟩ := Table.lookup_eq_some.mp hlookup
    split_ifs at h with hpending happroved
    · obtain ⟨permissions, hins, ⟨⟩⟩ := Option.map_eq_some_iff.mp h
      refine Table.forall_insert hins hold fun r' hr' hsome => ?_
      have hid' := Option.some.inj hsome
      rw [hrequests] at hr'
      rcases Table.mem_update_cases hr' with ⟨hq, hc⟩ | ⟨q, hq, -, rfl⟩
      · cases Table.eq_of_key hr hq (hid.trans hid')
        exact absurd ⟨hid, hpending⟩ (of_decide_eq_false hc)
      · cases Table.eq_of_key hr hq (hid.trans hid')
        exact ⟨rfl, rfl, rfl, rfl, rfl, d.grantedSecs, if_pos happroved, rfl⟩
    · cases h
      exact hold
  | expire =>
    intro p' hp' r hr
    have hold p hp := hm.update requests_expire (fun _ _ _ _ _ _ hgives => hgives) p hp r hr
    rw [permissions_expire] at hp'
    rcases Table.mem_update_cases hp' with ⟨hp, -⟩ | ⟨p, hp, -, rfl⟩
    · exact hold p' hp
    · exact hold p hp
  | prune cutoff =>
    exact fun p hp r hr => hm p (Table.mem_delete.mp hp).1 r (Table.mem_delete.mp hr).1

structure GrantInv (s : AccessPool) : Prop extends AccessInv s where
  asked : Matches s.store

theorem grantInv_step (hs : GrantInv s) (h : accessStep s m = some s') : GrantInv s' := by
  refine ⟨accessInv_step hs.toAccessInv h, ?_⟩
  rcases poolStep_cases h with ⟨c, rfl, rfl⟩ | ⟨c, i, pc, t, pc', rfl, hpc, hact, rfl⟩
  · exact hs.asked
  rcases accessAct_cases hs.sound hact with ⟨rfl, -⟩ | ⟨hwrites, -⟩
  · exact hs.asked
  · exact hwrites.matches hs.sound hs.asked

/-- **A grant is what was asked for, and somebody else decided it.** -/
theorem grants_as_asked {ms : List AccessMove} (h : exec accessStep noRequests ms = some s) :
    ∀ p ∈ s.store.permissions.rows, ∃ r ∈ s.store.requests.rows,
      p.requestId = some r.id ∧ Gives r p ∧ ∃ d, r.decidedBy = some d ∧ d ≠ p.userId := by
  have hstart : GrantInv noRequests :=
    ⟨accessInv_noRequests, fun _ hp => absurd hp Table.not_mem_empty⟩
  have hs := exec_invariant_of_step grantInv_step h hstart
  intro p hp
  obtain ⟨r, hr, hid, -⟩ := hs.sound.owned p hp
  have hgives := hs.asked p hp r hr hid
  obtain ⟨huser, -, -, -, hdecided, -⟩ := hgives
  obtain ⟨d, hd⟩ := Option.isSome_iff_exists.mp hdecided
  refine ⟨r, hr, hid, hs.asked p hp r hr hid, d, hd, fun hself => hs.sound.separate r hr ?_⟩
  rw [hd, hself, huser]

theorem grants_as_asked_twoDeciders : ∃ s, exec accessStep noRequests twoDeciders = some s ∧
    s.store.permissions.rows ≠ [] ∧ ∀ p ∈ s.store.permissions.rows, ∃ r ∈ s.store.requests.rows,
      p.requestId = some r.id ∧ Gives r p ∧ ∃ d, r.decidedBy = some d ∧ d ≠ p.userId :=
  exists_of_view (fun s : AccessPool => s.store.permissions.rows.isEmpty) false (by decide +kernel)
    fun s hs hview =>
    ⟨List.isEmpty_eq_false_iff.mp hview, grants_as_asked hs⟩

end

end Moorgate.Approvals
