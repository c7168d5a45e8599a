import Moorgate.Framework.Base.Calls
import Moorgate.Store.Cluster

/-!
# Leader election: `cluster/cluster.go`

The leader is the instance whose connection holds an advisory lock. An instance that finds the lock
taken and no live leader in the registry takes the holder for dead, terminates its connection and
tries again. The registry learns of a leader with the heartbeat at the end of its tick. So nobody
may ask for a live leader while the holder has not announced itself, and nobody may take the lock
while another, which found no leader, is about to terminate whoever holds it. In the runs that keep
to that (`Orderly`) there is at most one leader and only connections of dead instances are
terminated.
-/

namespace Moorgate.Cluster

open Framework Models Store

def lease : Duration := 30 * second
def pruneGrace : Duration := 5 * minute

/-! ## One tick, statement by statement -/

/-- The registry, and the connection that holds the leader lock. Connections
are numbered; `terminated` are those that `pg_terminate_backend` ended. -/
structure Postgres where
  instances : Instances
  lock : Option ℕ
  terminated : List ℕ
  nextConn : ℕ

inductive Pc where
  | register | idle | tryLock | hasLiveLeader | reclaim | retryLock | heartbeat | prune | unregister
deriving DecidableEq

structure Boot where
  id : UUID
  (hostname version : String)

/-- A coordinator. `running` is false once the process has ended. -/
structure Coordinator where
  id : UUID
  (hostname version : String)
  leader : Bool
  lockConn : Option ℕ
  running : Bool
  pc : Pc
deriving DecidableEq

def boot (b : Boot) : Coordinator := ⟨b.id, b.hostname, b.version, false, none, true, .register⟩

/-- The next statement, which fails when `ok` is false; the end of the process
with its connections left open at the database; or a clean stop. -/
inductive Input where
  | next (now : Instant) (ok : Bool)
  | crash | stop

def acquire (db : Postgres) (c : Coordinator) : Postgres × Coordinator :=
  ({ db with lock := some db.nextConn, nextConn := db.nextConn + 1 },
    { c with lockConn := some db.nextConn, leader := true, pc := .heartbeat })

/-- `pg_try_advisory_lock`; `held` is where the tick goes on when it is taken. -/
def tryLock (ok : Bool) (held : Pc) (db : Postgres) (c : Coordinator) : Postgres × Coordinator :=
  if ok then
    match db.lock with
    | none => acquire db c
    | some _ => (db, { c with pc := held })
  else (db, { c with pc := .heartbeat })

/-- The statement `c` stands before, with what follows it up to the next. -/
def tick (now : Instant) (ok : Bool) (db : Postgres) (c : Coordinator) : Postgres × Coordinator :=
  match c.pc with
  | .register =>
    (if ok then
      { db with instances := registerInstance now c.id c.hostname c.version db.instances } else db,
      { c with pc := .idle })
  | .idle =>
    match c.lockConn with
    | none => tryLock ok .hasLiveLeader db c
    | some p =>
      -- the ping fails on a connection that was terminated
      if p ∈ db.terminated then (db, { c with lockConn := none, leader := false, pc := .tryLock })
      else (db, { c with pc := .heartbeat })
  | .tryLock => tryLock ok .hasLiveLeader db c
  | .hasLiveLeader =>
    if ok && !hasLiveLeader now c.id lease db.instances then (db, { c with pc := .reclaim })
    else (db, { c with pc := .heartbeat })
  | .reclaim =>
    match ok, db.lock with
    | true, some p =>
      ({ db with lock := none, terminated := p :: db.terminated }, { c with pc := .retryLock })
    | _, _ => (db, { c with pc := .heartbeat })
  | .retryLock => tryLock ok .heartbeat db c
  | .heartbeat =>
    (if ok then { db with instances := heartbeat now c.id c.leader db.instances } else db,
      { c with pc := if c.leader then .prune else .idle })
  | .prune =>
    (if ok then { db with instances := pruneDeadInstances now pruneGrace db.instances } else db,
      { c with pc := .idle })
  | .unregister =>
    (if ok then { db with instances := unregisterInstance c.id db.instances } else db,
      { c with running := false })

/-- The first half of `Stop`, which waits for the tick to end. -/
def release (db : Postgres) (c : Coordinator) : Postgres × Coordinator :=
  ({ db with lock := if c.lockConn.isSome ∧ db.lock = c.lockConn then none else db.lock },
    { c with lockConn := none, leader := false, pc := .unregister })

def clusterAct (i : Input) (db : Postgres) (c : Coordinator) : Option (Postgres × Coordinator) :=
  if c.running then
    match i with
    | .next now ok => some (tick now ok db c)
    | .crash => some (db, { c with running := false })
    | .stop => if c.pc = .idle then some (release db c) else none
  else none

abbrev ClusterPool := Pool Postgres Coordinator
abbrev ClusterMove := Move Boot Input

def clusterStep : ClusterPool → ClusterMove → Option ClusterPool := poolStep boot clusterAct

/-- No instance yet, any rows, and perhaps a lock that an earlier process left
behind. -/
def startCluster (rows : Instances) (stranded : Bool) : ClusterPool :=
  ⟨⟨rows, if stranded then some 0 else none, [], 1⟩, []⟩

/-! ## What a statement can do -/

def Pc.electing : Pc → Bool
  | .tryLock | .hasLiveLeader | .reclaim | .retryLock => true
  | _ => false

def Pc.locks : Pc → Bool
  | .idle | .tryLock | .retryLock => true
  | _ => false

/-- The lock and the connections are as they were. -/
structure SameLock (db db' : Postgres) : Prop where
  lock : db'.lock = db.lock
  terminated : db'.terminated = db.terminated
  nextConn : db'.nextConn = db.nextConn

theorem SameLock.refl (db : Postgres) : SameLock db db := ⟨rfl, rfl, rfl⟩

/-- Everything a statement can do to the lock and to its own instance. -/
inductive Effect (i : Input) (db : Postgres) (c : Coordinator) : Postgres → Coordinator → Prop where
  | goesOn {db' c'} (hdb : SameLock db db') (hid : c'.id = c.id) (hconn : c'.lockConn = c.lockConn)
      (hleader : c'.leader = c.leader) (hpc : c'.pc ≠ .reclaim)
      (helect : c'.pc.electing → c.lockConn = none ∨ c.pc.electing) :
      Effect i db c db' c'
  | stepsDown (p : ℕ) (hconn : c.lockConn = some p) (hp : p ∈ db.terminated) :
      Effect i db c db { c with lockConn := none, leader := false, pc := .tryLock }
  | acquires (hi : ∃ now ok, i = .next now ok) (hpc : c.pc.locks) (hlock : db.lock = none) :
      Effect i db c (acquire db c).1 (acquire db c).2
  | suspects (now : Instant) (ok : Bool) (hi : i = .next now ok) (hpc : c.pc = .hasLiveLeader)
      (hnone : hasLiveLeader now c.id lease db.instances = false) :
      Effect i db c db { c with pc := .reclaim }
  | terminates (p : ℕ) (hpc : c.pc = .reclaim) (hlock : db.lock = some p) :
      Effect i db c { db with lock := none, terminated := p :: db.terminated }
        { c with pc := .retryLock }
  | ends {db' c'} (hdb : SameLock db db') (hid : c'.id = c.id) (hconn : c'.lockConn = c.lockConn)
      (hrun : c'.running = false) : Effect i db c db' c'
  | releases : Effect i db c (release db c).1 (release db c).2

theorem tryLock_effect {now : Instant} {ok : Bool} {held : Pc} {db : Postgres} {c : Coordinator}
    (hpc : c.pc.locks) (hidle : c.pc = .idle → c.lockConn = none) (hheld : held ≠ .reclaim) :
    Effect (.next now ok) db c (tryLock ok held db c).1 (tryLock ok held db c).2 := by
  unfold tryLock
  have helect : c.lockConn = none ∨ c.pc.electing := by
    cases h : c.pc <;> simp_all [Pc.locks, Pc.electing]
  split
  · cases hlock : db.lock with
    | none => exact .acquires ⟨now, ok, rfl⟩ hpc hlock
    | some p => exact .goesOn (.refl db) rfl rfl rfl hheld fun _ => helect
  · exact .goesOn (.refl db) rfl rfl rfl (by simp) fun _ => helect

theorem tick_effect (now : Instant) (ok : Bool) (db : Postgres) (c : Coordinator) :
    Effect (.next now ok) db c (tick now ok db c).1 (tick now ok db c).2 := by
  fun_cases tick now ok db c with
  | case1 | case12 =>
    refine .goesOn ?_ rfl rfl rfl (by simp) (by simp [Pc.electing])
    split <;> exact ⟨rfl, rfl, rfl⟩
  | case2 _ hpc hconn => exact tryLock_effect (by rw [hpc]; rfl) (fun _ => hconn) (by decide)
  | case3 _ _ p hconn hp => exact .stepsDown p hconn hp
  | case5 _ hpc | case10 _ hpc =>
    exact tryLock_effect (by rw [hpc]; rfl) (by simp [hpc]) (by decide)
  | case6 _ hpc h =>
    have hnone : hasLiveLeader now c.id lease db.instances = false := by simp_all
    exact .suspects now ok rfl hpc hnone
  | case8 hpc p hlock => exact .terminates p hpc hlock
  | case11 =>
    refine .goesOn ?_ rfl rfl rfl ?_ ?_
    · split <;> exact ⟨rfl, rfl, rfl⟩
    · cases c.leader <;> simp
    · cases c.leader <;> simp [Pc.electing]
  | case13 =>
    refine .ends ?_ ?_ ?_ ?_
    · split <;> exact ⟨rfl, rfl, rfl⟩
    all_goals rfl
  | _ => exact .goesOn (.refl db) rfl rfl rfl (by simp) (by simp [Pc.electing])

theorem clusterAct_effect {i : Input} {db db' : Postgres} {c c' : Coordinator}
    (h : clusterAct i db c = some (db', c')) : c.running ∧ Effect i db c db' c' := by
  unfold clusterAct at h
  split at h
  · rename_i hrun
    refine ⟨hrun, ?_⟩
    cases i with
    | next now ok =>
      have heq := Option.some.inj h
      have heff := tick_effect now ok db c
      rwa [heq] at heff
    | crash =>
      cases h
      refine .ends (.refl db) ?_ ?_ ?_ <;> rfl
    | stop =>
      dsimp only at h
      split at h
      · cases h
        exact .releases
      · cases h
  · cases h

/-! ## At most one leader -/

/-- The instance is in the registry as a leader with a fresh heartbeat. -/
def Announced (now : Instant) (t : Instances) (id : UUID) : Prop :=
  ∃ r ∈ t.rows, r.id = id ∧ r.isLeader ∧ r.fresh now lease

instance (now : Instant) (t : Instances) (id : UUID) : Decidable (Announced now t id) :=
  inferInstanceAs (Decidable (∃ r ∈ t.rows, _ ∧ _ ∧ _))

/-- Ids are new. Whoever asks for a live leader finds every running holder of
the lock announced, and whoever takes the lock finds nobody about to terminate
its holder. -/
def Orderly (s : ClusterPool) : ClusterMove → Prop
  | .begin b => ∀ c ∈ s.calls, c.id ≠ b.id
  | .advance k (.next now _) => ∀ c ∈ s.call k,
      (c.pc = .hasLiveLeader → ∀ a ∈ s.calls, a.running → a.lockConn.isSome →
        Announced now s.store.instances a.id) ∧
      (c.pc.locks → s.store.lock = none → ∀ b ∈ s.calls, b.running → b.pc ≠ .reclaim)
  | .advance _ _ => True

instance (s : ClusterPool) (m : ClusterMove) : Decidable (Orderly s m) := by
  unfold Orderly
  split <;> infer_instance

structure OneHolder (s : ClusterPool) : Prop where
  ids : ∀ {i j a b}, s.call i = some a → s.call j = some b → a.id = b.id → i = j
  own : ∀ {i j a b p}, s.call i = some a → s.call j = some b → a.lockConn = some p →
    b.lockConn = some p → i = j
  known : ∀ {i a p}, s.call i = some a → a.lockConn = some p → p < s.store.nextConn
  knownLock : ∀ {p}, s.store.lock = some p → p < s.store.nextConn
  knownTerminated : ∀ p ∈ s.store.terminated, p < s.store.nextConn
  holds : ∀ {i a p}, s.call i = some a → a.running → a.lockConn = some p →
    s.store.lock = some p ∧ p ∉ s.store.terminated
  leads : ∀ {i a}, s.call i = some a → a.running → a.leader → a.lockConn.isSome
  electing : ∀ {i a}, s.call i = some a → a.running → a.pc.electing → a.lockConn = none
  reclaiming : ∀ {i j a b}, s.call i = some a → s.call j = some b → a.running →
    b.running → b.pc = .reclaim → a.lockConn = none

theorem oneHolder_start (rows : Instances) (stranded : Bool) :
    OneHolder (startCluster rows stranded) := by
  constructor
  case knownLock =>
    intro p hp
    cases stranded <;> cases hp
    exact Nat.zero_lt_one
  all_goals simp [startCluster, Pool.call]

/-- How an instance after a move goes back to one before it. -/
structure Shadow (a a' : Coordinator) : Prop where
  id : a'.id = a.id
  conn : ∀ p, a'.lockConn = some p → a.lockConn = some p
  running : a'.running → a.running
  leads : a'.running → a'.leader → a'.lockConn.isSome
  electing : a'.running → a'.pc.electing → a'.lockConn = none

section

variable {s : ClusterPool} {k : ℕ} {c : Coordinator}

variable {db' : Postgres} {c' : Coordinator}

section

variable (h : OneHolder s) (hk : s.call k = some c)

include h hk

theorem OneHolder.shadow_put (hc : Shadow c c') {i : ℕ} {a' : Coordinator}
    (hi : (s.put k db' c').call i = some a') : ∃ a, s.call i = some a ∧ Shadow a a' := by
  rcases Pool.call_put hi with ⟨rfl, rfl⟩ | ⟨-, hi⟩
  · exact ⟨c, hk, hc⟩
  · exact ⟨a', hi, rfl, fun _ => id, id, h.leads hi, h.electing hi⟩

/-- A move that gives no instance a connection it did not have. -/
theorem OneHolder.put_shadow (hc : Shadow c c') (hnext : db'.nextConn = s.store.nextConn)
    (hlock : ∀ {p}, db'.lock = some p → p < db'.nextConn)
    (hterm : ∀ p ∈ db'.terminated, p < db'.nextConn)
    (hholds : ∀ {i a p}, (s.put k db' c').call i = some a → a.running →
      a.lockConn = some p → db'.lock = some p ∧ p ∉ db'.terminated)
    (hreclaim : ∀ {i j a b}, (s.put k db' c').call i = some a → (s.put k db' c').call j = some b →
      a.running → b.running → b.pc = .reclaim →
      a.lockConn = none) : OneHolder (s.put k db' c') where
  ids hi hj hid := by
    obtain ⟨a, ha, hsa⟩ := h.shadow_put hk hc hi
    obtain ⟨b, hb, hsb⟩ := h.shadow_put hk hc hj
    exact h.ids ha hb (hsa.id.symm.trans (hid.trans hsb.id))
  own hi hj hp hq := by
    obtain ⟨a, ha, hsa⟩ := h.shadow_put hk hc hi
    obtain ⟨b, hb, hsb⟩ := h.shadow_put hk hc hj
    exact h.own ha hb (hsa.conn _ hp) (hsb.conn _ hq)
  known hi hp := by
    obtain ⟨a, ha, hsa⟩ := h.shadow_put hk hc hi
    exact lt_of_lt_of_eq (h.known ha (hsa.conn _ hp)) hnext.symm
  knownLock := hlock
  knownTerminated := hterm
  holds := hholds
  leads hi := by
    obtain ⟨a, -, hsa⟩ := h.shadow_put hk hc hi
    exact hsa.leads
  electing hi := by
    obtain ⟨a, -, hsa⟩ := h.shadow_put hk hc hi
    exact hsa.electing
  reclaiming := hreclaim

/-- A move that leaves the lock alone and finds nobody to reclaim it. -/
theorem OneHolder.put_same (hdb : SameLock s.store db') (hc : Shadow c c')
    (hpc : c'.running → c'.pc ≠ .reclaim) : OneHolder (s.put k db' c') := by
  refine h.put_shadow hk hc hdb.nextConn ?_ ?_ ?_ ?_
  · rw [hdb.lock, hdb.nextConn]
    exact h.knownLock
  · rw [hdb.terminated, hdb.nextConn]
    exact h.knownTerminated
  · intro i a' p hi hrun hp
    obtain ⟨a, ha, hsa⟩ := h.shadow_put hk hc hi
    rw [hdb.lock, hdb.terminated]
    exact h.holds ha (hsa.running hrun) (hsa.conn p hp)
  · intro i j a' b hi hj hruna hrunb hb
    obtain ⟨a, ha, hsa⟩ := h.shadow_put hk hc hi
    rcases Pool.call_put hj with ⟨-, rfl⟩ | ⟨-, hj⟩
    · exact absurd hb (hpc hrunb)
    have hnone := h.reclaiming ha hj (hsa.running hruna) hrunb hb
    rw [Option.eq_none_iff_forall_ne_some]
    intro p hp
    rw [hsa.conn p hp] at hnone
    cases hnone

theorem OneHolder.acquire (hlock : s.store.lock = none)
    (hnobody : ∀ b ∈ s.calls, b.running → b.pc ≠ .reclaim) :
    OneHolder (s.put k (acquire s.store c).1 (acquire s.store c).2) := by
  -- nobody that runs has the lock, and the new connection is nobody's
  have hfree : ∀ {i a p}, s.call i = some a → a.running → a.lockConn ≠ some p := by
    intro i a p hi hrun hp
    rw [(h.holds hi hrun hp).1] at hlock
    cases hlock
  have hnew : ∀ {i a}, s.call i = some a → a.lockConn ≠ some s.store.nextConn :=
    fun hi hp => lt_irrefl _ (h.known hi hp)
  constructor
  · intro i j a b hi hj hid
    rcases Pool.call_put hi with ⟨hik, rfl⟩ | ⟨-, hi'⟩ <;> rcases Pool.call_put hj with
      ⟨hjk, rfl⟩ | ⟨-, hj'⟩
    · exact hik.trans hjk.symm
    · exact hik.trans (h.ids hk hj' hid)
    · exact (h.ids hi' hk hid).trans hjk.symm
    · exact h.ids hi' hj' hid
  · intro i j a b p hi hj hp hq
    rcases Pool.call_put hi with ⟨hik, rfl⟩ | ⟨-, hi'⟩ <;> rcases Pool.call_put hj with
      ⟨hjk, rfl⟩ | ⟨-, hj'⟩
    · exact hik.trans hjk.symm
    · cases hp
      exact absurd hq (hnew hj')
    · cases hq
      exact absurd hp (hnew hi')
    · exact h.own hi' hj' hp hq
  · intro i a p hi hp
    rcases Pool.call_put hi with ⟨-, rfl⟩ | ⟨-, hi⟩
    · cases hp
      exact Nat.lt_succ_self _
    · exact Nat.lt_succ_of_lt (h.known hi hp)
  · intro p hp
    cases hp
    exact Nat.lt_succ_self _
  · intro p hp
    exact Nat.lt_succ_of_lt (h.knownTerminated p hp)
  · intro i a p hi hrun hp
    rcases Pool.call_put hi with ⟨-, rfl⟩ | ⟨-, hi⟩
    · cases hp
      exact ⟨rfl, fun hmem => lt_irrefl _ (h.knownTerminated _ hmem)⟩
    · exact absurd hp (hfree hi hrun)
  · intro i a hi hrun hleader
    rcases Pool.call_put hi with ⟨-, rfl⟩ | ⟨-, hi⟩
    · rfl
    · exact h.leads hi hrun hleader
  · intro i a hi hrun hpc
    rcases Pool.call_put hi with ⟨-, rfl⟩ | ⟨-, hi⟩
    · cases hpc
    · exact h.electing hi hrun hpc
  · intro i j a b hi hj hruna hrunb hb
    rcases Pool.call_put hj with ⟨-, rfl⟩ | ⟨-, hj⟩
    · cases hb
    · exact absurd hb (hnobody b (Pool.mem_of_call hj) hrunb)

theorem OneHolder.shadow_electing
    (hrun : c.running) (hpc : c.pc.electing) (pc : Pc) : Shadow c { c with pc } where
  id := rfl
  conn _ := id
  running := id
  leads _ hleader := by
    have hled : c.lockConn.isSome := h.leads hk hrun hleader
    exact hled
  electing _ _ := by
    have hnone : c.lockConn = none := h.electing hk hrun hpc
    exact hnone

/-- Whoever finds no live leader finds no running holder either. -/
theorem OneHolder.suspect (hrun : c.running)
    (hpc : c.pc = .hasLiveLeader) {now : Instant}
    (hann : ∀ a ∈ s.calls, a.running → a.lockConn.isSome → Announced now s.store.instances a.id)
    (hnone : hasLiveLeader now c.id lease s.store.instances = false) :
    OneHolder (s.put k s.store { c with pc := .reclaim }) := by
  have hconn : c.lockConn = none := h.electing hk hrun (by rw [hpc]; rfl)
  have hall : ∀ {i a}, s.call i = some a → a.running → a.lockConn = none := by
    intro i a hi ha
    by_contra hne
    obtain ⟨r, hr, hid, hleader, hfresh⟩ :=
      hann a (Pool.mem_of_call hi) ha (Option.isSome_iff_ne_none.mpr hne)
    have hother : r.id ≠ c.id := by
      intro heq
      have hik := h.ids hi hk (hid.symm.trans heq)
      subst hik
      rw [hk] at hi
      cases hi
      exact hne hconn
    rw [hasLiveLeader_eq_true hr hother hleader hfresh] at hnone
    cases hnone
  have hsh : Shadow c { c with pc := .reclaim } :=
    h.shadow_electing hk hrun (by rw [hpc]; rfl) .reclaim
  refine h.put_shadow hk hsh rfl h.knownLock h.knownTerminated ?_ ?_
  · intro i a' p hi ha hp
    obtain ⟨a, hi, hsa⟩ := h.shadow_put hk hsh hi
    exact h.holds hi (hsa.running ha) (hsa.conn p hp)
  · intro i j a' b hi _ ha _ _
    obtain ⟨a, hi, hsa⟩ := h.shadow_put hk hsh hi
    rw [Option.eq_none_iff_forall_ne_some]
    intro p hp
    have hp' := hsa.conn p hp
    rw [hall hi (hsa.running ha)] at hp'
    cases hp'

theorem OneHolder.terminate (hrun : c.running)
    (hpc : c.pc = .reclaim) {p : ℕ} (hlock : s.store.lock = some p) :
    OneHolder (s.put k { s.store with lock := none, terminated := p :: s.store.terminated }
      { c with pc := .retryLock }) := by
  have hsh : Shadow c { c with pc := .retryLock } :=
    h.shadow_electing hk hrun (by rw [hpc]; rfl) .retryLock
  have hall : ∀ {i a' q}, (s.put k
      { s.store with lock := none, terminated := p :: s.store.terminated }
      { c with pc := .retryLock }).call i = some a' → a'.running → a'.lockConn ≠ some q := by
    intro i a' q hi ha hq
    obtain ⟨a, hi, hsa⟩ := h.shadow_put hk hsh hi
    have hq' := hsa.conn q hq
    rw [h.reclaiming hi hk (hsa.running ha) hrun hpc] at hq'
    cases hq'
  refine h.put_shadow hk hsh rfl (fun hp => nomatch hp) ?_ ?_ ?_
  · exact List.forall_mem_cons.mpr ⟨h.knownLock hlock, h.knownTerminated⟩
  · intro i a q hi ha hq
    exact absurd hq (hall hi ha)
  · intro i j a b hi _ ha _ _
    rw [Option.eq_none_iff_forall_ne_some]
    intro q
    exact hall hi ha

theorem OneHolder.release :
    OneHolder (s.put k (release s.store c).1 (release s.store c).2) := by
  have hsh : Shadow c (Cluster.release s.store c).2 :=
    ⟨rfl, fun _ hp => (nomatch hp), id, fun _ hleader => (nomatch hleader), fun _ _ => rfl⟩
  refine h.put_shadow hk hsh rfl ?_ h.knownTerminated ?_ ?_
  · intro p hp
    simp only [Cluster.release] at hp
    split at hp
    · cases hp
    · exact h.knownLock hp
  · intro i a p hi ha hp
    rcases Pool.call_put hi with ⟨-, rfl⟩ | ⟨hne, hi⟩
    · cases hp
    obtain ⟨hlock, hopen⟩ := h.holds hi ha hp
    refine ⟨?_, hopen⟩
    simp only [Cluster.release]
    rw [if_neg]
    · exact hlock
    · rintro ⟨-, hsame⟩
      exact hne (h.own hi hk hp (hsame.symm.trans hlock))
  · intro i j a b hi hj ha hb hpc
    rcases Pool.call_put hj with ⟨-, rfl⟩ | ⟨-, hj⟩
    · cases hpc
    · rcases Pool.call_put hi with ⟨-, rfl⟩ | ⟨-, hi⟩
      · rfl
      · exact h.reclaiming hi hj ha hb hpc

end

theorem OneHolder.enter (h : OneHolder s) {b : Boot} (hnew : ∀ c ∈ s.calls, c.id ≠ b.id) :
    OneHolder (s.enter (boot b)) where
  ids hi hj hid := by
    rcases Pool.call_enter hi with hi' | ⟨hilast, rfl⟩ <;>
      rcases Pool.call_enter hj with hj' | ⟨hjlast, rfl⟩
    · exact h.ids hi' hj' hid
    · exact absurd hid (hnew _ (Pool.mem_of_call hi'))
    · exact absurd hid.symm (hnew _ (Pool.mem_of_call hj'))
    · exact hilast.trans hjlast.symm
  own hi hj hp hq := by
    rcases Pool.call_enter hi with hi' | ⟨-, rfl⟩
    · rcases Pool.call_enter hj with hj' | ⟨-, rfl⟩
      · exact h.own hi' hj' hp hq
      · cases hq
    · cases hp
  known hi hp := by
    rcases Pool.call_enter hi with hi | ⟨-, rfl⟩
    · exact h.known hi hp
    · cases hp
  knownLock := h.knownLock
  knownTerminated := h.knownTerminated
  holds hi ha hp := by
    rcases Pool.call_enter hi with hi | ⟨-, rfl⟩
    · exact h.holds hi ha hp
    · cases hp
  leads hi ha hleader := by
    rcases Pool.call_enter hi with hi | ⟨-, rfl⟩
    · exact h.leads hi ha hleader
    · cases hleader
  electing hi ha hpc := by
    rcases Pool.call_enter hi with hi | ⟨-, rfl⟩
    · exact h.electing hi ha hpc
    · rfl
  reclaiming hi hj ha hb hpc := by
    rcases Pool.call_enter hj with hj | ⟨-, rfl⟩
    · rcases Pool.call_enter hi with hi | ⟨-, rfl⟩
      · exact h.reclaiming hi hj ha hb hpc
      · rfl
    · cases hpc

end

/-- **One statement of one instance.** -/
theorem clusterStep_oneHolder {s s' : ClusterPool} {m : ClusterMove} (h : OneHolder s)
    (hm : Orderly s m) (hstep : clusterStep s m = some s') : OneHolder s' := by
  rcases poolStep_cases hstep with ⟨b, rfl, rfl⟩ | ⟨k, i, c, db', c', rfl, hk, hact, rfl⟩
  · exact h.enter hm
  obtain ⟨hrun, heff⟩ := clusterAct_effect hact
  cases heff with
  | goesOn hdb hid hconn hleader hpc helect =>
    refine h.put_same hk hdb ⟨hid, fun p hp => hconn ▸ hp, fun _ => hrun, ?_, ?_⟩ fun _ => hpc
    · intro _ hl
      rw [hconn]
      exact h.leads hk hrun (hleader ▸ hl)
    · intro _ hel
      rw [hconn]
      rcases helect hel with hnone | hel
      · exact hnone
      · exact h.electing hk hrun hel
  | stepsDown p hconn hp => exact absurd hp (h.holds hk hrun hconn).2
  | acquires hi hpc hlock =>
    obtain ⟨now, ok, rfl⟩ := hi
    exact h.acquire hk hlock ((hm c hk).2 hpc hlock)
  | suspects now ok hi hpc hnone =>
    subst hi
    exact h.suspect hk hrun hpc ((hm c hk).1 hpc) hnone
  | terminates p hpc hlock => exact h.terminate hk hrun hpc hlock
  | ends hdb hid hconn hend =>
    refine h.put_same hk hdb ⟨hid, fun p hp => hconn ▸ hp, ?_, ?_, ?_⟩ ?_ <;>
      · intro hr
        rw [hend] at hr
        cases hr
  | releases => exact h.release hk

/-- **No split brain** in orderly runs: at most one running instance takes
itself for the leader, and no running instance's lock connection has been
terminated. -/
theorem no_split_brain (rows : Instances) (stranded : Bool) (moves : List ClusterMove)
    (s : ClusterPool) (hrun : exec clusterStep (startCluster rows stranded) moves = some s)
    (hg : Guarded clusterStep Orderly (startCluster rows stranded) moves) :
    (∀ i j a b, s.call i = some a → s.call j = some b → a.running → b.running →
      a.leader → b.leader → i = j) ∧
    (∀ i a p, s.call i = some a → a.running → a.lockConn = some p → p ∉ s.store.terminated) := by
  have h : OneHolder s :=
    exec_invariant clusterStep_oneHolder hg hrun (oneHolder_start rows stranded)
  constructor
  · intro i j a b hi hj hruna hrunb hla hlb
    obtain ⟨p, hp⟩ := Option.isSome_iff_exists.mp (h.leads hi hruna hla)
    obtain ⟨q, hq⟩ := Option.isSome_iff_exists.mp (h.leads hj hrunb hlb)
    have hpq : some p = some q := (h.holds hi hruna hp).1.symm.trans (h.holds hj hrunb hq).1
    cases hpq
    exact h.own hi hj hp hq
  · intro i a p hi ha hp
    exact (h.holds hi ha hp).2

def bootA : Boot := ⟨⟨1⟩, "a", "v1"⟩
def bootB : Boot := ⟨⟨2⟩, "b", "v1"⟩

/-- The next `n` statements of instance `k`, all in the same second. -/
def statements (k n : ℕ) : List ClusterMove := List.replicate n (.advance k (.next second true))

/-- The first instance reclaims a stranded lock and finishes its tick, then a
second one starts and finds it as the leader. -/
def takeover : List ClusterMove := .begin bootA :: statements 0 7 ++ .begin bootB :: statements 1 4

theorem no_split_brain_takeover :
    ∃ s, exec clusterStep (startCluster .empty true) takeover = some s ∧
    (∃ a, s.call 0 = some a ∧ a.leader ∧ ∀ p ∈ a.lockConn, p ∉ s.store.terminated) ∧
    ∃ b, s.call 1 = some b ∧ b.leader = false := by
  refine ⟨_, rfl, ⟨_, rfl, rfl, fun p hp => ?_⟩, _, rfl, rfl⟩
  exact (no_split_brain .empty true takeover _ rfl (by decide +kernel)).2 0 _ p rfl rfl hp

/-- Two running instances take themselves for the leader, and the connection of
one of them has been terminated. -/
def SplitBrain (s : ClusterPool) (i j : ℕ) : Prop :=
  ∃ a b, s.call i = some a ∧ s.call j = some b ∧ a.running ∧ b.running ∧
    a.leader ∧ b.leader ∧ ∃ p ∈ a.lockConn, p ∈ s.store.terminated

/-- Both orders matter. In the first run the second instance asks for a live
leader between the lock and the first heartbeat of the first one. In the second
run two instances find a stranded lock, and one terminates the other after it
has taken the lock and announced itself. -/
theorem split_brain_reachable : (∃ s, exec clusterStep (startCluster .empty false)
        (.begin bootA :: .begin bootB :: statements 0 2 ++ statements 1 5) = some s ∧
        SplitBrain s 0 1) ∧
    (∃ s, exec clusterStep (startCluster .empty true)
        (.begin bootA :: .begin bootB :: statements 0 3 ++ statements 1 3 ++ statements 0 3 ++
          statements 1 2) = some s ∧ SplitBrain s 0 1) := by
  refine ⟨⟨_, rfl, _, _, rfl, rfl, rfl, rfl, rfl, rfl, _, rfl, ?_⟩,
    ⟨_, rfl, _, _, rfl, rfl, rfl, rfl, rfl, rfl, _, rfl, ?_⟩⟩ <;> decide +kernel

end Moorgate.Cluster
