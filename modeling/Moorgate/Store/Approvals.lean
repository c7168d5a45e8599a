import Moorgate.Framework.Base.Table
import Moorgate.Models.Ids

/-!
# Access requests and grants: `store/approvals.go`, `store/retention.go`

A request is decided once; an approval inserts the grant in the same transaction. The reaper
revokes the grants whose time is over and marks their requests, and the retention job deletes
requests with their grants. `Evolves` is what a statement does to the requests, and `Sound` what
holds of the two tables between statements.
-/

namespace Moorgate.Store

open Framework Models

inductive ApprovalStatus where
  | pending | approved | denied | expired | cancelled
deriving DecidableEq

inductive TargetKind where
  | host | group
deriving DecidableEq

structure ApprovalRequest where
  (id requesterId : UUID)
  targetKind : TargetKind
  (hostId groupId : Option UUID)
  (reason ticketRef : String)
  requestedSecs : ℤ
  status : ApprovalStatus
  decidedBy : Option UUID
  decidedAt : Option Instant
  decisionNote : String
  grantedSecs : Option ℤ
  createdAt : Instant
deriving DecidableEq

structure TemporaryPermission where
  id : UUID
  requestId : Option UUID
  userId : UUID
  (hostId groupId : Option UUID)
  (grantedAt expiresAt : Instant)
  revokedAt : Option Instant
deriving DecidableEq

/-- `drawn` are the ids of requests that `gen_random_uuid()` has returned. -/
structure ApprovalTables where
  requests : Table ApprovalRequest.id
  permissions : Table TemporaryPermission.id
  drawn : List UUID

structure ApprovalRequestInput where
  requesterId : UUID
  targetKind : TargetKind
  (hostId groupId : Option UUID)
  (reason ticketRef : String)
  requestedSecs : ℤ

/-- `none` for an id that was drawn before, which `gen_random_uuid()` does not
return. -/
def createApprovalRequest (now : Instant) (newID : UUID) (inp : ApprovalRequestInput)
    (t : ApprovalTables) : Option ApprovalTables :=
  if newID ∈ t.drawn then none
  else
    (t.requests.insert ⟨newID, inp.requesterId, inp.targetKind, inp.hostId, inp.groupId, inp.reason,
      inp.ticketRef, inp.requestedSecs, .pending, none, none, "", none, now⟩).map fun requests =>
        { t with requests, drawn := newID :: t.drawn }

def setApprovalTicketRef (id : UUID) (ref : String) (t : ApprovalTables) : ApprovalTables :=
  { t with
    requests := t.requests.update (fun r => decide (r.id = id))
      (fun r => { r with ticketRef := ref }) fun _ => rfl }

/-- The row as a decision leaves it. -/
def ApprovalRequest.decided (now : Instant) (decidedBy : UUID) (status : ApprovalStatus)
    (note : String) (grantedSecs : ℤ) (r : ApprovalRequest) : ApprovalRequest :=
  { r with
    status
    decidedBy := some decidedBy
    decidedAt := some now
    decisionNote := note
    grantedSecs := if status = .approved then some grantedSecs else none }

/-- One transaction: the request as it was decided, and what is left. `none` is its
error. -/
def decideApprovalRequest (now : Instant) (newID id decidedBy : UUID) (status : ApprovalStatus)
    (note : String) (grantedSecs : ℤ) (t : ApprovalTables) :
    Option (ApprovalRequest × ApprovalTables) :=
  match t.requests.lookup id with
  | none => none
  | some r =>
    if r.status = .pending then
      let a := r.decided now decidedBy status note grantedSecs
      let requests := t.requests.update (fun r => decide (r.id = id ∧ r.status = .pending))
        (ApprovalRequest.decided now decidedBy status note grantedSecs) fun _ => rfl
      if status = .approved then
        (t.permissions.insert ⟨newID, some id, r.requesterId, r.hostId, r.groupId, now,
          now + grantedSecs * second, none⟩).map fun permissions =>
            (a, { t with requests, permissions })
      else some (a, { t with requests })
    else none

/-- The grant's time is over. -/
def TemporaryPermission.due (now : Instant) (p : TemporaryPermission) : Bool :=
  p.revokedAt.isNone && decide (p.expiresAt ≤ now)

def TemporaryPermission.revoke (now : Instant) (p : TemporaryPermission) : TemporaryPermission :=
  { p with revokedAt := some now }

/-- The request is approved and its grant is among those that expire. -/
def ApprovalRequest.bumped (expired : List TemporaryPermission) (r : ApprovalRequest) : Bool :=
  (expired.any fun p => decide (p.requestId = some r.id)) && decide (r.status = .approved)

def ApprovalRequest.expire (r : ApprovalRequest) : ApprovalRequest := { r with status := .expired }

/-- The grants that expire in this pass, and what it leaves. -/
def expireTemporaryPermissions (now : Instant) (t : ApprovalTables) :
    List TemporaryPermission × ApprovalTables :=
  let expired := t.permissions.select (TemporaryPermission.due now)
  (expired,
    { t with
      permissions := t.permissions.update (TemporaryPermission.due now)
        (TemporaryPermission.revoke now) fun _ => rfl
      requests :=
        t.requests.update (ApprovalRequest.bumped expired) ApprovalRequest.expire fun _ => rfl })

/-- The grant is active. -/
def TemporaryPermission.active (now : Instant) (p : TemporaryPermission) : Bool :=
  p.revokedAt.isNone && decide (now < p.expiresAt)

def ApprovalRequest.prunable (now cutoff : Instant) (permissions : Table TemporaryPermission.id)
    (r : ApprovalRequest) : Bool :=
  decide (r.createdAt < cutoff) && decide (r.status ≠ .pending) &&
    !(permissions.rows.any fun p => decide (p.requestId = some r.id) && p.active now)

/-- The number of requests deleted, and what is left. Their grants go with them. -/
def pruneApprovalRequestsBefore (now cutoff : Instant) (t : ApprovalTables) : ℕ × ApprovalTables :=
  let pruned := t.requests.select (ApprovalRequest.prunable now cutoff t.permissions)
  (pruned.length,
    { t with
      requests := t.requests.delete (ApprovalRequest.prunable now cutoff t.permissions)
      permissions :=
        t.permissions.delete fun p => pruned.any fun r => decide (p.requestId = some r.id) })

/-! ## What a statement does to the requests -/

inductive ApprovalStatus.Moves : ApprovalStatus → ApprovalStatus → Prop where
  | stay (s : ApprovalStatus) : Moves s s
  | approve : Moves .pending .approved
  | deny : Moves .pending .denied
  | expire : Moves .approved .expired

/-- The request `r'` is `r` later: its requester is the same and its status has
stayed or moved on. -/
structure ApprovalRequest.Becomes (r r' : ApprovalRequest) : Prop where
  id : r.id = r'.id
  requester : r.requesterId = r'.requesterId
  status : r.status.Moves r'.status

/-- A request that is there afterwards was there before, or is new and pending. -/
structure Evolves (t t' : ApprovalTables) : Prop where
  drawn : ∀ id ∈ t.drawn, id ∈ t'.drawn
  requests : ∀ r' ∈ t'.requests.rows, (∃ r ∈ t.requests.rows, r.Becomes r') ∨
    (r'.id ∉ t.drawn ∧ r'.status = .pending)

/-- What holds of requests and grants between statements. -/
structure Sound (t : ApprovalTables) : Prop where
  drawn : ∀ r ∈ t.requests.rows, r.id ∈ t.drawn
  unique : ∀ p ∈ t.permissions.rows, ∀ q ∈ t.permissions.rows, p.requestId = q.requestId → p = q
  owned : ∀ p ∈ t.permissions.rows, ∃ r ∈ t.requests.rows, p.requestId = some r.id ∧
    (r.status = .approved ∧ p.revokedAt = none ∨ r.status = .expired ∧ p.revokedAt ≠ none)
  granted : ∀ r ∈ t.requests.rows, r.status = .approved ∨ r.status = .expired →
    ∃ p ∈ t.permissions.rows, p.requestId = some r.id
  separate : ∀ r ∈ t.requests.rows, r.decidedBy ≠ some r.requesterId

theorem ApprovalRequest.Becomes.refl (r : ApprovalRequest) : r.Becomes r := ⟨rfl, rfl, .stay _⟩

theorem Evolves.refl (t : ApprovalTables) : Evolves t t :=
  ⟨fun _ h => h, fun r hr => .inl ⟨r, hr, .refl r⟩⟩

variable {t t' : ApprovalTables}

theorem Evolves.of_becomes (hdrawn : t'.drawn = t.drawn)
    (h : ∀ r' ∈ t'.requests.rows, ∃ r ∈ t.requests.rows, r.Becomes r') : Evolves t t' := by
  constructor
  · intro id hid
    rwa [hdrawn]
  · intro r' hr'
    exact .inl (h r' hr')

theorem Sound.status_of_grant (h : Sound t) {p : TemporaryPermission}
    {r : ApprovalRequest} (hp : p ∈ t.permissions.rows) (hr : r ∈ t.requests.rows)
    (hpr : p.requestId = some r.id) :
    r.status = .approved ∧ p.revokedAt = none ∨ r.status = .expired ∧ p.revokedAt ≠ none := by
  obtain ⟨q, hq, hpq, hstatus⟩ := h.owned p hp
  have hid : q.id = r.id := Option.some.inj (hpq.symm.trans hpr)
  rwa [Table.eq_of_key hq hr hid] at hstatus

/-- A statement that creates no request and decides none has to keep what ties the
requests to their grants. -/
theorem Sound.of_undecided (ht : Sound t) (hdrawn : t'.drawn = t.drawn)
    (hrows : ∀ r' ∈ t'.requests.rows, ∃ r ∈ t.requests.rows,
      r.id = r'.id ∧ r.requesterId = r'.requesterId ∧ r.decidedBy = r'.decidedBy)
    (hunique : ∀ p ∈ t'.permissions.rows, ∀ q ∈ t'.permissions.rows,
      p.requestId = q.requestId → p = q)
    (howned : ∀ p ∈ t'.permissions.rows, ∃ r ∈ t'.requests.rows, p.requestId = some r.id ∧
      (r.status = .approved ∧ p.revokedAt = none ∨ r.status = .expired ∧ p.revokedAt ≠ none))
    (hgranted : ∀ r ∈ t'.requests.rows, r.status = .approved ∨ r.status = .expired →
      ∃ p ∈ t'.permissions.rows, p.requestId = some r.id) : Sound t' where
  drawn r' hr' := by
    obtain ⟨r, hr, hid, -, -⟩ := hrows r' hr'
    rw [hdrawn, ← hid]
    exact ht.drawn r hr
  unique := hunique
  owned := howned
  granted := hgranted
  separate r' hr' := by
    obtain ⟨r, hr, -, hrequester, hdecided⟩ := hrows r' hr'
    rw [← hrequester, ← hdecided]
    exact ht.separate r hr

theorem sound_empty : Sound ⟨.empty, .empty, []⟩ where
  drawn _ h := absurd h Table.not_mem_empty
  unique _ h := absurd h Table.not_mem_empty
  owned _ h := absurd h Table.not_mem_empty
  granted _ h := absurd h Table.not_mem_empty
  separate _ h := absurd h Table.not_mem_empty

variable {now : Instant} {newID : UUID}

section

variable {inp : ApprovalRequestInput}

theorem createApprovalRequest_eq_some (h : createApprovalRequest now newID inp t = some t') :
    newID ∉ t.drawn ∧ t'.permissions = t.permissions ∧ t'.drawn = newID :: t.drawn ∧
      ∃ r : ApprovalRequest, t.requests.insert r = some t'.requests ∧ r.id = newID ∧
        r.status = .pending ∧ r.decidedBy = none := by
  unfold createApprovalRequest at h
  split at h
  · cases h
  · rename_i hfresh
    obtain ⟨requests, hins, rfl⟩ := Option.map_eq_some_iff.mp h
    exact ⟨hfresh, rfl, rfl, _, hins, rfl, rfl, rfl⟩

theorem evolves_create (h : createApprovalRequest now newID inp t = some t') : Evolves t t' := by
  obtain ⟨hfresh, -, hdrawn, r, hins, hid, hstatus, -⟩ := createApprovalRequest_eq_some h
  constructor
  · intro id hmem
    rw [hdrawn]
    exact List.mem_cons_of_mem _ hmem
  · intro r' hr'
    rcases (Table.mem_insert hins).mp hr' with hr | rfl
    · exact .inl ⟨r', hr, .refl r'⟩
    · exact .inr ⟨hid ▸ hfresh, hstatus⟩

theorem sound_create (ht : Sound t) (h : createApprovalRequest now newID inp t = some t') :
    Sound t' := by
  obtain ⟨-, hperm, hdrawn, r, hins, hid, hstatus, hundecided⟩ := createApprovalRequest_eq_some h
  constructor
  · rw [hdrawn]
    refine Table.forall_insert hins (fun q hq => List.mem_cons_of_mem _ (ht.drawn q hq)) ?_
    rw [hid]
    exact List.mem_cons_self
  · rw [hperm]
    exact ht.unique
  · intro p hp
    rw [hperm] at hp
    obtain ⟨q, hq, hown⟩ := ht.owned p hp
    exact ⟨q, (Table.mem_insert hins).mpr (.inl hq), hown⟩
  · rw [hperm]
    refine Table.forall_insert hins ht.granted ?_
    rw [hstatus]
    rintro (h | h) <;> cases h
  · refine Table.forall_insert hins ht.separate ?_
    rw [hundecided]
    exact nofun

end

section

variable (id : UUID) (ref : String)

theorem requests_setApprovalTicketRef : (setApprovalTicketRef id ref t).requests =
    t.requests.update (fun r => decide (r.id = id))
      (fun r => { r with ticketRef := ref }) fun _ => rfl :=
  rfl

theorem evolves_setApprovalTicketRef (t : ApprovalTables) :
    Evolves t (setApprovalTicketRef id ref t) := by
  refine .of_becomes rfl ?_
  intro r' hr'
  rw [requests_setApprovalTicketRef] at hr'
  rcases Table.mem_update_cases hr' with ⟨hr, -⟩ | ⟨r, hr, -, rfl⟩
  · exact ⟨r', hr, .refl r'⟩
  · exact ⟨r, hr, rfl, rfl, .stay r.status⟩

theorem sound_setApprovalTicketRef (ht : Sound t) : Sound (setApprovalTicketRef id ref t) := by
  have hsame : ∀ q : ApprovalRequest, ∃ ref',
      (if decide (q.id = id) then { q with ticketRef := ref } else q) =
        { q with ticketRef := ref' } := by
    intro q
    split
    · exact ⟨ref, rfl⟩
    · exact ⟨q.ticketRef, rfl⟩
  have hold : ∀ r ∈ (setApprovalTicketRef id ref t).requests.rows,
      ∃ q ∈ t.requests.rows, ∃ ref', { q with ticketRef := ref' } = r := by
    intro r hr
    rw [requests_setApprovalTicketRef] at hr
    obtain ⟨q, hq, rfl⟩ := Table.mem_update.mp hr
    obtain ⟨ref', heq⟩ := hsame q
    exact ⟨q, hq, ref', heq.symm⟩
  refine ht.of_undecided rfl ?_ ht.unique ?_ ?_
  · intro r hr
    obtain ⟨q, hq, ref', rfl⟩ := hold r hr
    exact ⟨q, hq, rfl, rfl, rfl⟩
  · intro p hp
    obtain ⟨q, hq, hown⟩ := ht.owned p hp
    obtain ⟨ref', heq⟩ := hsame q
    rw [requests_setApprovalTicketRef]
    exact ⟨_, Table.mem_update.mpr ⟨q, hq, heq⟩, hown⟩
  · intro r hr hstatus
    obtain ⟨q, hq, ref', rfl⟩ := hold r hr
    exact ht.granted q hq hstatus

end

/-! ## A decision -/

section

variable {id decidedBy : UUID} {status : ApprovalStatus} {note : String} {grantedSecs : ℤ}
  {ar : ApprovalRequest}

theorem decideApprovalRequest_eq_some
    (h : decideApprovalRequest now newID id decidedBy status note grantedSecs t = some (ar, t')) :
    ∃ r ∈ t.requests.rows, r.id = id ∧ r.status = .pending ∧ t'.drawn = t.drawn ∧
      t'.requests = t.requests.update (fun r => decide (r.id = id ∧ r.status = .pending))
        (ApprovalRequest.decided now decidedBy status note grantedSecs) (fun _ => rfl) ∧
      ((status = .approved ∧ ∃ p, t.permissions.insert p = some t'.permissions ∧
          p.requestId = some id ∧ p.revokedAt = none) ∨
          (status ≠ .approved ∧ t'.permissions = t.permissions)) := by
  unfold decideApprovalRequest at h
  split at h
  · cases h
  rename_i r hlookup
  obtain ⟨hr, hid⟩ := Table.lookup_eq_some.mp hlookup
  split at h
  · rename_i hpending
    split at h
    · rename_i happroved
      obtain ⟨permissions, hins, ⟨⟩⟩ := Option.map_eq_some_iff.mp h
      exact ⟨r, hr, hid, hpending, rfl, rfl, .inl ⟨happroved, _, hins, rfl, rfl⟩⟩
    · rename_i hdenied
      cases h
      exact ⟨r, hr, hid, hpending, rfl, rfl, .inr ⟨hdenied, rfl⟩⟩
  · cases h

theorem evolves_decide (hmove : ApprovalStatus.pending.Moves status)
    (h : decideApprovalRequest now newID id decidedBy status note grantedSecs t = some (ar, t')) :
    Evolves t t' := by
  obtain ⟨-, -, -, -, hdrawn, hreq, -⟩ := decideApprovalRequest_eq_some h
  apply Evolves.of_becomes hdrawn
  intro r' hr'
  rw [hreq] at hr'
  rcases Table.mem_update_cases hr' with ⟨hr, -⟩ | ⟨r, hr, hcond, rfl⟩
  · exact ⟨r', hr, .refl r'⟩
  · refine ⟨r, hr, rfl, rfl, ?_⟩
    rw [(of_decide_eq_true hcond).2]
    exact hmove

/-- A grant's request is not pending, so a decision leaves it alone. -/
theorem Sound.owned_decided (ht : Sound t) {p : TemporaryPermission} (hp : p ∈ t.permissions.rows) :
    ∃ r ∈ (t.requests.update (fun r => decide (r.id = id ∧ r.status = .pending))
        (ApprovalRequest.decided now decidedBy status note grantedSecs) (fun _ => rfl)).rows,
      p.requestId = some r.id ∧
        (r.status = .approved ∧ p.revokedAt = none ∨ r.status = .expired ∧ p.revokedAt ≠ none) := by
  obtain ⟨r, hr, hpr, hstatus⟩ := ht.owned p hp
  refine ⟨r, Table.mem_update_of_neg hr (decide_eq_false ?_), hpr, hstatus⟩
  rintro ⟨-, hpending⟩
  rcases hstatus with ⟨hstatus, -⟩ | ⟨hstatus, -⟩ <;> cases hpending.symm.trans hstatus

theorem sound_decide (ht : Sound t)
    (hother : ∀ r ∈ t.requests.rows, r.id = id → r.requesterId ≠ decidedBy)
    (hmove : status = .approved ∨ status = .denied)
    (h : decideApprovalRequest now newID id decidedBy status note grantedSecs t = some (ar, t')) :
    Sound t' := by
  obtain ⟨r, hr, hid, hpending, hdrawn, hreq, hperm⟩ := decideApprovalRequest_eq_some h
  have hnone : ∀ p ∈ t.permissions.rows, p.requestId ≠ some id := by
    intro p hp hpr
    rcases ht.status_of_grant hp hr (hid ▸ hpr) with ⟨hstatus, -⟩ | ⟨hstatus, -⟩ <;>
      cases hpending.symm.trans hstatus
  constructor
  · intro q hq
    rw [hdrawn]
    rw [hreq] at hq
    rcases Table.mem_update_cases hq with ⟨hold, -⟩ | ⟨q₀, hold, -, rfl⟩
    · exact ht.drawn q hold
    · exact ht.drawn q₀ hold
  · rcases hperm with ⟨-, g, hins, hg, -⟩ | ⟨-, hperm⟩
    · intro p hp q hq hpq
      rcases (Table.mem_insert hins).mp hp with hp | rfl <;>
        rcases (Table.mem_insert hins).mp hq with hq | rfl
      · exact ht.unique p hp q hq hpq
      · exact absurd (hpq.trans hg) (hnone p hp)
      · exact absurd (hpq.symm.trans hg) (hnone q hq)
      · rfl
    · rw [hperm]
      exact ht.unique
  · intro p hp
    rw [hreq]
    rcases hperm with ⟨happroved, g, hins, hg, hlive⟩ | ⟨-, hperm⟩
    · rcases (Table.mem_insert hins).mp hp with hp | rfl
      · exact ht.owned_decided hp
      · refine ⟨_, Table.mem_update_of_pos hr (decide_eq_true ⟨hid, hpending⟩), ?_,
          .inl ⟨happroved, hlive⟩⟩
        rw [hg, ← hid]
        rfl
    · rw [hperm] at hp
      exact ht.owned_decided hp
  · intro q hq hstatus
    rw [hreq] at hq
    have hold : ∀ p ∈ t.permissions.rows, p ∈ t'.permissions.rows := by
      intro p hp
      rcases hperm with ⟨-, g, hins, -, -⟩ | ⟨-, hperm⟩
      · exact (Table.mem_insert hins).mpr (.inl hp)
      · rwa [hperm]
    rcases Table.mem_update_cases hq with ⟨hq, -⟩ | ⟨q, hq, hcond, rfl⟩
    · obtain ⟨p, hp, hpq⟩ := ht.granted q hq hstatus
      exact ⟨p, hold p hp, hpq⟩
    · obtain ⟨hqid, -⟩ := of_decide_eq_true hcond
      rcases hperm with ⟨-, g, hins, hg, -⟩ | ⟨hdenied, -⟩
      · exact ⟨g, (Table.mem_insert hins).mpr (.inr rfl), hg.trans (congrArg some hqid.symm)⟩
      -- a denied request is neither approved nor expired
      have hdenied : status = .denied := hmove.resolve_left hdenied
      rw [ApprovalRequest.decided, hdenied] at hstatus
      rcases hstatus with hstatus | hstatus <;> cases hstatus
  · intro q hq
    rw [hreq] at hq
    rcases Table.mem_update_cases hq with ⟨hold, -⟩ | ⟨q₀, hold, hcond, rfl⟩
    · exact ht.separate q hold
    · intro hself
      exact hother q₀ hold (of_decide_eq_true hcond).1 (Option.some.inj hself).symm

end

/-! ## The reaper -/

section

theorem requests_expire : (expireTemporaryPermissions now t).2.requests =
    t.requests.update (ApprovalRequest.bumped (t.permissions.select (TemporaryPermission.due now)))
      ApprovalRequest.expire fun _ => rfl :=
  rfl

theorem permissions_expire : (expireTemporaryPermissions now t).2.permissions =
    t.permissions.update (TemporaryPermission.due now)
      (TemporaryPermission.revoke now) fun _ => rfl :=
  rfl

variable {p : TemporaryPermission}

theorem due_iff : p.due now ↔ p.revokedAt = none ∧ p.expiresAt ≤ now := by
  simp [TemporaryPermission.due]

theorem bumped_iff {r : ApprovalRequest} :
    r.bumped (t.permissions.select (TemporaryPermission.due now)) ↔
      (∃ p ∈ t.permissions.rows, p.due now ∧ p.requestId = some r.id) ∧ r.status = .approved := by
  unfold ApprovalRequest.bumped
  rw [Bool.and_eq_true, decide_eq_true_iff, List.any_eq_true]
  refine and_congr_left fun _ => ?_
  constructor
  · rintro ⟨p, hp, hpr⟩
    obtain ⟨hp, hdue⟩ := Table.mem_select.mp hp
    exact ⟨p, hp, hdue, of_decide_eq_true hpr⟩
  · rintro ⟨p, hp, hdue, hpr⟩
    exact ⟨p, Table.mem_select.mpr ⟨hp, hdue⟩, decide_eq_true hpr⟩

theorem evolves_expire (now : Instant) (t : ApprovalTables) :
    Evolves t (expireTemporaryPermissions now t).2 := by
  refine .of_becomes rfl ?_
  intro r' hr'
  rw [requests_expire] at hr'
  rcases Table.mem_update_cases hr' with ⟨hr, -⟩ | ⟨r, hr, hbumped, rfl⟩
  · exact ⟨r', hr, .refl r'⟩
  · refine ⟨r, hr, rfl, rfl, ?_⟩
    rw [(bumped_iff.mp hbumped).2]
    exact .expire

/-- A pass expires the request of a due grant and no other. -/
theorem Sound.bumped_eq_due (ht : Sound t) {r : ApprovalRequest}
    (hp : p ∈ t.permissions.rows) (hr : r ∈ t.requests.rows) (hpr : p.requestId = some r.id) :
    r.bumped (t.permissions.select (TemporaryPermission.due now)) = p.due now := by
  rw [Bool.eq_iff_iff, bumped_iff]
  constructor
  · rintro ⟨⟨q, hq, hdue, hqr⟩, -⟩
    rwa [ht.unique p hp q hq (hpr.trans hqr.symm)]
  · intro hdue
    refine ⟨⟨p, hp, hdue, hpr⟩, ?_⟩
    rcases ht.status_of_grant hp hr hpr with ⟨hstatus, -⟩ | ⟨-, hrevoked⟩
    · exact hstatus
    · exact absurd (due_iff.mp hdue).1 hrevoked

theorem exists_grant_expire (hp : p ∈ t.permissions.rows) :
    ∃ q ∈ (expireTemporaryPermissions now t).2.permissions.rows, q.requestId = p.requestId := by
  rw [permissions_expire]
  cases hdue : p.due now with
  | false => exact ⟨p, Table.mem_update_of_neg hp hdue, rfl⟩
  | true => exact ⟨p.revoke now, Table.mem_update_of_pos hp hdue, rfl⟩

theorem sound_expire (now : Instant) (ht : Sound t) :
    Sound (expireTemporaryPermissions now t).2 := by
  refine ht.of_undecided rfl ?_ ?_ ?_ ?_
  · intro r hr
    rw [requests_expire] at hr
    rcases Table.mem_update_cases hr with ⟨hold, -⟩ | ⟨q, hold, -, rfl⟩
    · exact ⟨r, hold, rfl, rfl, rfl⟩
    · exact ⟨q, hold, rfl, rfl, rfl⟩
  · intro p hp q hq hpq
    rw [permissions_expire] at hp hq
    rcases Table.mem_update_cases hp with ⟨hp₀, hpdue⟩ | ⟨p₀, hp₀, hpdue, rfl⟩ <;>
      rcases Table.mem_update_cases hq with ⟨hq₀, hqdue⟩ | ⟨q₀, hq₀, hqdue, rfl⟩
    · exact ht.unique p hp₀ q hq₀ hpq
    · rw [ht.unique p hp₀ q₀ hq₀ hpq, hqdue] at hpdue
      cases hpdue
    · rw [ht.unique p₀ hp₀ q hq₀ hpq, hqdue] at hpdue
      cases hpdue
    · rw [ht.unique p₀ hp₀ q₀ hq₀ hpq]
  · intro p hp
    rw [permissions_expire] at hp
    rw [requests_expire]
    rcases Table.mem_update_cases hp with ⟨hp₀, hdue⟩ | ⟨p₀, hp₀, hdue, rfl⟩
    · obtain ⟨r, hr, hpr, hstatus⟩ := ht.owned p hp₀
      have hkept := (ht.bumped_eq_due hp₀ hr hpr).trans hdue
      exact ⟨r, Table.mem_update_of_neg hr hkept, hpr, hstatus⟩
    · obtain ⟨r, hr, hpr, -⟩ := ht.owned p₀ hp₀
      have hbumped := (ht.bumped_eq_due hp₀ hr hpr).trans hdue
      exact ⟨r.expire, Table.mem_update_of_pos hr hbumped, hpr, .inr ⟨rfl, nofun⟩⟩
  · intro r hr hstatus
    have hgrant : ∃ p ∈ t.permissions.rows, p.requestId = some r.id := by
      rw [requests_expire] at hr
      rcases Table.mem_update_cases hr with ⟨hold, -⟩ | ⟨r₀, hold, hbumped, rfl⟩
      · exact ht.granted r hold hstatus
      · exact ht.granted r₀ hold (.inl (bumped_iff.mp hbumped).2)
    obtain ⟨p, hp, hpr⟩ := hgrant
    obtain ⟨q, hq, hqp⟩ := exists_grant_expire hp
    exact ⟨q, hq, hqp.trans hpr⟩

end

/-! ## Retention -/

theorem evolves_prune (now cutoff : Instant) (t : ApprovalTables) :
    Evolves t (pruneApprovalRequestsBefore now cutoff t).2 :=
  .of_becomes rfl fun r hr => ⟨r, (Table.mem_delete.mp hr).1, .refl r⟩

/-- A grant goes iff its request does. -/
theorem pruned_eq_prunable {now cutoff : Instant} {p : TemporaryPermission} {r : ApprovalRequest}
    (hr : r ∈ t.requests.rows) (hpr : p.requestId = some r.id) :
    ((t.requests.select (ApprovalRequest.prunable now cutoff t.permissions)).any
      fun r => decide (p.requestId = some r.id)) = r.prunable now cutoff t.permissions := by
  rw [Bool.eq_iff_iff, List.any_eq_true]
  constructor
  · rintro ⟨q, hq, hpq⟩
    obtain ⟨hq, hprunable⟩ := Table.mem_select.mp hq
    have hid : r.id = q.id := Option.some.inj (hpr.symm.trans (of_decide_eq_true hpq))
    rwa [Table.eq_of_key hr hq hid]
  · intro hprunable
    exact ⟨r, Table.mem_select.mpr ⟨hr, hprunable⟩, decide_eq_true hpr⟩

theorem sound_prune (now cutoff : Instant) (ht : Sound t) :
    Sound (pruneApprovalRequestsBefore now cutoff t).2 := by
  refine ht.of_undecided rfl ?_ ?_ ?_ ?_
  · intro r hr
    exact ⟨r, (Table.mem_delete.mp hr).1, rfl, rfl, rfl⟩
  · intro p hp q hq
    exact ht.unique p (Table.mem_delete.mp hp).1 q (Table.mem_delete.mp hq).1
  · intro p hp
    obtain ⟨hp, hkept⟩ := Table.mem_delete.mp hp
    obtain ⟨r, hr, hpr, hstatus⟩ := ht.owned p hp
    exact ⟨r, Table.mem_delete.mpr ⟨hr, (pruned_eq_prunable hr hpr).symm.trans hkept⟩, hpr, hstatus⟩
  · intro r hr hstatus
    obtain ⟨hr, hkept⟩ := Table.mem_delete.mp hr
    obtain ⟨p, hp, hpr⟩ := ht.granted r hr hstatus
    exact ⟨p, Table.mem_delete.mpr ⟨hp, (pruned_eq_prunable hr hpr).trans hkept⟩, hpr⟩

end Moorgate.Store
