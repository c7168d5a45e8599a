import Moorgate.Store.Certs

/-!
# The cluster registry: `store/cluster.go`

A backend process is alive to the others while the heartbeat of its row in `cluster_instances` is
within the lease. A heartbeat is an update of the row: when the row is gone it changes nothing, and
it succeeds all the same.
-/

namespace Moorgate.Store

open Framework Models

structure Instance where
  id : UUID
  (hostname version : String)
  isLeader : Bool
  (startedAt lastHeartbeat : Instant)
deriving DecidableEq

abbrev Instances := Table Instance.id

/-- A row that is there keeps everything but its heartbeat. -/
def registerInstance (now : Instant) (id : UUID) (hostname version : String) (t : Instances) :
    Instances :=
  (t.insert ⟨id, hostname, version, false, now, now⟩).getD
    (t.update (fun r => decide (r.id = id)) (fun r => { r with lastHeartbeat := now }) fun _ => rfl)

def heartbeat (now : Instant) (id : UUID) (isLeader : Bool) (t : Instances) : Instances :=
  t.update (fun r => decide (r.id = id)) (fun r => { r with lastHeartbeat := now, isLeader })
    fun _ => rfl

def unregisterInstance (id : UUID) (t : Instances) : Instances :=
  t.delete fun r => decide (r.id = id)

def Instance.fresh (now : Instant) (lease : Duration) (r : Instance) : Bool :=
  decide (now - lease < r.lastHeartbeat)

def liveInstanceIDs (now : Instant) (lease : Duration) (t : Instances) : List UUID :=
  (t.select (Instance.fresh now lease)).map Instance.id

/-- A leader other than `excludeID` with a fresh heartbeat. -/
def hasLiveLeader (now : Instant) (excludeID : UUID) (lease : Duration) (t : Instances) : Bool :=
  t.rows.any fun r => decide (r.id ≠ excludeID) && r.isLeader && r.fresh now lease

/-- The instance has a row with a fresh heartbeat. -/
def alive (now : Instant) (lease : Duration) (t : Instances) (id : UUID) : Bool :=
  t.rows.any fun r => decide (r.id = id) && r.fresh now lease

/-- `deadOwnerPredicate` on the `instance_id` of a row, as `self` evaluates it. -/
def deadOwner (now : Instant) (lease : Duration) (self : UUID) (t : Instances) : Option UUID → Bool
  | none => true
  | some owner => decide (owner ≠ self) && !alive now lease t owner

/-- Certificates without an issuer are left alone here. -/
def revokeDeadInstanceCertificates (now : Instant) (lease : Duration) (self : UUID)
    (t : Instances) : CertDb → ℕ × CertDb :=
  revokeWhere now "issuing instance died" fun c =>
    c.revokedAt.isNone && decide (now < c.expiresAt) && c.instanceId.isSome &&
      deadOwner now lease self t c.instanceId

def pruneDeadInstances (now : Instant) (olderThan : Duration) (t : Instances) : Instances :=
  t.delete fun r => decide (r.lastHeartbeat < now - olderThan)

variable {now : Instant} {lease : Duration} {t : Instances} {r : Instance}

theorem hasLiveLeader_eq_true {excludeID : UUID} (hr : r ∈ t.rows) (hid : r.id ≠ excludeID)
    (hleader : r.isLeader) (hfresh : r.fresh now lease) : hasLiveLeader now excludeID lease t := by
  unfold hasLiveLeader
  rw [List.any_eq_true]
  exact ⟨r, hr, by simp [hid, hleader, hfresh]⟩

theorem alive_eq_true (hr : r ∈ t.rows) (hfresh : r.fresh now lease) : alive now lease t r.id := by
  unfold alive
  rw [List.any_eq_true]
  exact ⟨r, hr, by simp [hfresh]⟩

theorem deadOwner_of_alive {id : UUID} (h : alive now lease t id) (self : UUID) :
    deadOwner now lease self t (some id) = false := by
  simp [deadOwner, h]

theorem exists_mem_registerInstance (now : Instant) (id : UUID) (hostname version : String)
    (hr : r ∈ t.rows) : ∃ r' ∈ (registerInstance now id hostname version t).rows, r'.id = r.id ∧
      (r'.lastHeartbeat = now ∨ r'.lastHeartbeat = r.lastHeartbeat) := by
  unfold registerInstance
  cases hins : t.insert ⟨id, hostname, version, false, now, now⟩ with
  | some t' => exact ⟨r, (Table.mem_insert hins).mpr (.inl hr), rfl, .inr rfl⟩
  | none =>
    refine ⟨_, List.mem_map_of_mem hr, ?_⟩
    by_cases hid : r.id = id
    · simp [hid]
    · simp [hid]

theorem exists_mem_heartbeat (now : Instant) (id : UUID) (isLeader : Bool) (hr : r ∈ t.rows) :
    ∃ r' ∈ (heartbeat now id isLeader t).rows, r'.id = r.id ∧
      ((r.id = id ∧ r'.lastHeartbeat = now) ∨
        (r.id ≠ id ∧ r'.lastHeartbeat = r.lastHeartbeat)) := by
  refine ⟨_, List.mem_map_of_mem hr, ?_⟩
  by_cases hid : r.id = id
  · simp [hid]
  · simp [hid]

end Moorgate.Store
