import Mathlib.Logic.Function.Basic
import Moorgate.Cluster.Leadership

/-!
# Who counts as alive: the registry over whole runs

An instance is dead when no row of it has a heartbeat within the lease. The leader deletes rows
whose heartbeat is older than the grace period, which is longer. An instance that pauses for longer
than that loses its row, and since a heartbeat only updates, it counts as dead for the rest of its
life. The run keeps beside the registry when each instance last beat, and who has unregistered.
-/

namespace Moorgate.Cluster

open Framework Models Store

inductive RegistryOp where
  | register (id : UUID) (hostname version : String)
  | heartbeat (id : UUID) (isLeader : Bool)
  | prune
  | unregister (id : UUID)

/-- `beats` has the last `Heartbeat` of each instance that has not
unregistered. -/
structure Registry where
  clock : Instant
  instances : Instances
  beats : UUID → Option Instant
  left : List UUID

def Registry.fresh : Registry := ⟨0, .empty, fun _ => none, []⟩

/-- What an operation does at `now`. A heartbeat succeeds with or without a
row to update. -/
def registryEffect (s : Registry) (now : Instant) : RegistryOp → Registry
  | .register id hostname version =>
    { s with clock := now, instances := registerInstance now id hostname version s.instances }
  | .heartbeat id isLeader =>
    { s with
      clock := now
      instances := heartbeat now id isLeader s.instances
      beats := if id ∈ s.left then s.beats else Function.update s.beats id (some now) }
  | .prune => { s with clock := now, instances := pruneDeadInstances now pruneGrace s.instances }
  | .unregister id =>
    { clock := now
      instances := unregisterInstance id s.instances
      beats := Function.update s.beats id none
      left := id :: s.left }

/-- Time does not go back. -/
def registryStep (s : Registry) (l : Instant × RegistryOp) : Option Registry :=
  if s.clock ≤ l.1 then some (registryEffect s l.1 l.2) else none

/-- A heartbeat of an instance that has not unregistered finds its row. -/
def FindsRow (s : Registry) (l : Instant × RegistryOp) : Prop :=
  match l.2 with
  | .heartbeat id _ => id ∈ s.left ∨ ∃ r ∈ s.instances.rows, r.id = id
  | _ => True

instance (s : Registry) (l : Instant × RegistryOp) : Decidable (FindsRow s l) := by
  unfold FindsRow
  split <;> infer_instance

/-- An instance that beat within the lease has a row that says so. -/
structure Witnessed (s : Registry) : Prop where
  past : ∀ {id t}, s.beats id = some t → t ≤ s.clock
  row : ∀ {id t}, s.beats id = some t → s.clock < t + lease → ∃ r ∈ s.instances.rows, r.id = id ∧
    t ≤ r.lastHeartbeat

theorem witnessed_fresh : Witnessed .fresh := by
  constructor
  · intro id t h
    cases h
  · intro id t h
    cases h

theorem lease_le_pruneGrace : lease ≤ pruneGrace := by decide

theorem update_eq_some {beats : UUID → Option Instant} {id id' : UUID} {v : Option Instant}
    {t : Instant} (h : Function.update beats id v id' = some t) :
    (id' = id ∧ v = some t) ∨ (id' ≠ id ∧ beats id' = some t) := by
  by_cases hsame : id' = id
  · subst hsame
    rw [Function.update_self] at h
    exact .inl ⟨rfl, h⟩
  · rw [Function.update_of_ne hsame] at h
    exact .inr ⟨hsame, h⟩

section

variable {s : Registry} {now : Instant}

theorem Witnessed.register (h : Witnessed s) (hnow : s.clock ≤ now) (id : UUID)
    (hostname version : String) :
    Witnessed (registryEffect s now (.register id hostname version)) where
  past hb := le_trans (h.past hb) hnow
  row hb hlive := by
    obtain ⟨r, hr, hid, hbeat⟩ := h.row hb (lt_of_le_of_lt hnow hlive)
    obtain ⟨r', hr', hid', hnew | hold⟩ := exists_mem_registerInstance now id hostname version hr
    · exact ⟨r', hr', hid'.trans hid, hnew ▸ le_trans (h.past hb) hnow⟩
    · exact ⟨r', hr', hid'.trans hid, hold ▸ hbeat⟩

theorem Witnessed.heartbeat (h : Witnessed s) (hnow : s.clock ≤ now) {id : UUID} (isLeader : Bool)
    (hrow : id ∈ s.left ∨ ∃ r ∈ s.instances.rows, r.id = id) :
    Witnessed (registryEffect s now (.heartbeat id isLeader)) := by
  -- the beats of before are kept by the update, its own row included
  have hkeep : ∀ {id' t}, s.beats id' = some t → now < t + lease →
      ∃ r ∈ (Store.heartbeat now id isLeader s.instances).rows, r.id = id' ∧
      t ≤ r.lastHeartbeat := by
    intro id' t hb hlive
    obtain ⟨r, hr, hid, hbeat⟩ := h.row hb (lt_of_le_of_lt hnow hlive)
    obtain ⟨r', hr', hid', ⟨-, hnew⟩ | ⟨-, hold⟩⟩ := exists_mem_heartbeat now id isLeader hr
    · exact ⟨r', hr', hid'.trans hid, hnew ▸ le_trans (h.past hb) hnow⟩
    · exact ⟨r', hr', hid'.trans hid, hold ▸ hbeat⟩
  by_cases hleft : id ∈ s.left
  · simp only [registryEffect, if_pos hleft]
    exact ⟨fun hb => le_trans (h.past hb) hnow, hkeep⟩
  · simp only [registryEffect, if_neg hleft]
    obtain ⟨r, hr, hid⟩ := hrow.resolve_left hleft
    constructor
    · intro id' t hb
      rcases update_eq_some hb with ⟨-, heq⟩ | ⟨-, hb⟩
      · cases heq
        exact le_refl _
      · exact le_trans (h.past hb) hnow
    · intro id' t hb hlive
      rcases update_eq_some hb with ⟨rfl, heq⟩ | ⟨-, hb⟩
      · cases heq
        obtain ⟨r', hr', hid', ⟨-, hnew⟩ | ⟨hne, -⟩⟩ := exists_mem_heartbeat now id' isLeader hr
        · exact ⟨r', hr', hid'.trans hid, hnew.ge⟩
        · exact absurd hid hne
      · exact hkeep hb hlive

theorem Witnessed.prune (h : Witnessed s) (hnow : s.clock ≤ now) :
    Witnessed (registryEffect s now .prune) where
  past hb := le_trans (h.past hb) hnow
  row {id t} hb hlive := by
    obtain ⟨r, hr, hid, hbeat⟩ := h.row hb (lt_of_le_of_lt hnow hlive)
    -- a row within the lease is within the grace period
    have hkept : now - pruneGrace ≤ r.lastHeartbeat := by
      have hlive' : now < t + lease := hlive
      have hgrace := lease_le_pruneGrace
      linarith
    exact ⟨r, Table.mem_delete.mpr ⟨hr, by simpa using hkept⟩, hid, hbeat⟩

theorem Witnessed.unregister (h : Witnessed s) (hnow : s.clock ≤ now) (id : UUID) :
    Witnessed (registryEffect s now (.unregister id)) := by
  constructor
  · intro id' t hb
    rcases update_eq_some hb with ⟨-, heq⟩ | ⟨-, hb⟩
    · cases heq
    · exact le_trans (h.past hb) hnow
  · intro id' t hb hlive
    rcases update_eq_some hb with ⟨-, heq⟩ | ⟨hne, hb⟩
    · cases heq
    · obtain ⟨r, hr, hid, hbeat⟩ := h.row hb (lt_of_le_of_lt hnow hlive)
      exact ⟨r, Table.mem_delete.mpr ⟨hr, by simp [hid, hne]⟩, hid, hbeat⟩

end

theorem registryStep_witnessed {s s' : Registry} {l : Instant × RegistryOp} (h : Witnessed s)
    (hl : FindsRow s l) (hstep : registryStep s l = some s') : Witnessed s' := by
  obtain ⟨now, op⟩ := l
  unfold registryStep at hstep
  split at hstep
  · rename_i hnow
    cases hstep
    cases op with
    | register id hostname version => exact h.register hnow id hostname version
    | heartbeat id isLeader => exact h.heartbeat hnow isLeader hl
    | prune => exact h.prune hnow
    | unregister id => exact h.unregister hnow id
  · cases hstep

theorem mem_revokeDeadInstanceCertificates {now : Instant} {t : Instances} {id : UUID}
    (halive : alive now lease t id) (self : UUID) {db : CertDb} {c : Cert}
    (hc : c ∈ db.certs.rows) (hid : c.instanceId = some id) :
    c ∈ (revokeDeadInstanceCertificates now lease self t db).2.certs.rows := by
  refine mem_certs_revokeWhere.mpr ⟨c, hc, ?_⟩
  simp [hid, deadOwner_of_alive halive self]

/-- **An instance that beats is not taken for dead**, in the runs in which every
heartbeat finds its row: less than a lease after its last heartbeat it is among
the live ones, no peer's predicate applies to what it owns, and no peer revokes
its certificates. -/
theorem heartbeating_instance_alive (ls : List (Instant × RegistryOp)) (s : Registry)
    (hrun : exec registryStep .fresh ls = some s) (hg : Guarded registryStep FindsRow .fresh ls)
    (id : UUID) (beat now : Instant) (hbeat : s.beats id = some beat) (hnow : s.clock ≤ now)
    (hlease : now < beat + lease) : id ∈ liveInstanceIDs now lease s.instances ∧
    (∀ self, deadOwner now lease self s.instances (some id) = false) ∧
    (∀ self db c, c ∈ db.certs.rows → c.instanceId = some id →
      c ∈ (revokeDeadInstanceCertificates now lease self s.instances db).2.certs.rows) := by
  have h : Witnessed s := exec_invariant registryStep_witnessed hg hrun witnessed_fresh
  obtain ⟨r, hr, hid, hle⟩ := h.row hbeat (lt_of_le_of_lt hnow hlease)
  have hfresh : r.fresh now lease := by
    unfold Instance.fresh
    rw [decide_eq_true_eq]
    linarith
  have halive : alive now lease s.instances id := hid ▸ alive_eq_true hr hfresh
  refine ⟨?_, deadOwner_of_alive halive, ?_⟩
  · rw [← hid]
    exact List.mem_map_of_mem (Table.mem_select.mpr ⟨hr, hfresh⟩)
  · intro self db c hc howner
    exact mem_revokeDeadInstanceCertificates halive self hc howner

/-- An instance that pauses for four minutes, less than the grace period, while
the leader prunes. -/
def shortPause : List (Instant × RegistryOp) :=
  [(0, .register ⟨1⟩ "a" "v1"), (0, .heartbeat ⟨1⟩ false), (4 * minute, .prune),
    (4 * minute, .heartbeat ⟨1⟩ false)]

theorem heartbeating_instance_alive_pause : ∃ s, exec registryStep .fresh shortPause = some s ∧
    ⟨1⟩ ∈ liveInstanceIDs (4 * minute + second) lease s.instances := by
  refine ⟨_, rfl, ?_⟩
  exact (heartbeating_instance_alive shortPause _ rfl (by decide +kernel) ⟨1⟩ (4 * minute)
    (4 * minute + second) rfl (by decide +kernel) (by decide +kernel)).1

def ownCert : Cert where
  serial := 1
  kind := .user
  userId := none
  sessionId := none
  hostId := none
  instanceId := some ⟨1⟩
  keyId := ""
  principals := []
  issuedAt := 0
  expiresAt := hour
  revokedAt := none
  revokeReason := ""

def ownCertDb : CertDb := ⟨⟨[ownCert], by decide⟩, .empty, 1⟩

/-- After a pause of six minutes the row is gone. A second after its next
heartbeat the instance is not among the live ones, and a peer revokes its
certificate. -/
theorem resumed_instance_taken_for_dead : ∃ s, exec registryStep .fresh
      [(0, .register ⟨1⟩ "a" "v1"), (0, .heartbeat ⟨1⟩ false), (6 * minute, .prune),
        (6 * minute, .heartbeat ⟨1⟩ false)] = some s ∧ s.beats ⟨1⟩ = some (6 * minute) ∧
    ⟨1⟩ ∉ liveInstanceIDs (6 * minute + second) lease s.instances ∧
    deadOwner (6 * minute + second) lease ⟨2⟩ s.instances (some ⟨1⟩) ∧
    (revokeDeadInstanceCertificates (6 * minute + second) lease ⟨2⟩ s.instances ownCertDb).1 =
      1 := by
  refine ⟨_, rfl, rfl, ?_, ?_, ?_⟩ <;> decide +kernel

end Moorgate.Cluster
