import Moorgate.Framework.Base.Calls

/-!
# One upgrade at a time: `/apply` of `fleet-updater`

Whether an upgrade is running is read off the state in `Status`. `/apply` asks `busy` and starts
`Apply`, which writes the state later; the state is mirrored to `status.json`, and a process
that starts takes it from there, whatever became of the pipeline that wrote it.
-/

namespace Moorgate.Updater

open Framework

/-- `Status.State`. -/
inductive State where
  | idle | running | success | failed
deriving DecidableEq

/-- The status in memory, and what `status.json` decodes to. -/
structure Store where
  status : State
  persisted : Option State

/-- What `os.WriteFile` leaves, whose error is dropped. -/
inductive Persist where
  | written | kept | cut
deriving DecidableEq

def Store.set (s : Store) (d : Persist) (st : State) : Store where
  status := st
  persisted := match d with
    | .written => some st
    | .kept => s.persisted
    | .cut => none

def Store.busy (s : Store) : Bool := decide (s.status = .running)

def loadPersistedStatus (persisted : Option State) : Store := ⟨persisted.getD .idle, persisted⟩

/-- Where a request to `/apply` stands. `closing` is `Apply` after its final state: the hand-over
of a self-update and the deferred removals are still to come. -/
inductive Pc where
  | checking | refused | accepted | launched | working
  | closing (ok : Bool)
  | returned
deriving DecidableEq

inductive Event where
  | note | fail | succeed | leave

/-- `/apply` from its call of `busy` on, and the writes of `Apply` to the status. -/
def act (i : Event × Persist) (s : Store) : Pc → Option (Store × Pc)
  | .checking => some (s, if s.busy then .refused else .accepted)
  | .accepted => some (s, .launched)
  | .launched => some (s.set i.2 .running, .working)
  | .working =>
    match i.1 with
    | .note => some (s.set i.2 .running, .working)
    | .fail => some (s.set i.2 .failed, .closing false)
    | .succeed => some (s.set i.2 .success, .closing true)
    | .leave => none
  | .closing ok =>
    match i.1 with
    | .note => if ok then some (s.set i.2 .success, .closing true) else none
    | .leave => some (s, .returned)
    | _ => none
  | .refused | .returned => none

abbrev Process := Pool Store Pc

/-- `restart` ends the process at any point, by a crash or its replacement, and starts one. -/
inductive Act where
  | move (m : Move Unit (Event × Persist))
  | restart

def step (s : Process) : Act → Option Process
  | .move m => poolStep (fun _ => .checking) act s m
  | .restart => some ⟨loadPersistedStatus s.store.persisted, []⟩

def Pc.runs : Pc → Bool
  | .launched | .working | .closing _ => true
  | _ => false

def running (s : Process) : ℕ := s.calls.countP Pc.runs

/-- At most one pipeline runs, and without one a request is accepted. -/
structure Exclusive (s : Process) : Prop where
  one : running s ≤ 1
  free : running s = 0 → s.store.busy = false

instance (s : Process) : Decidable (Exclusive s) :=
  decidable_of_iff (running s ≤ 1 ∧ (running s = 0 → s.store.busy = false))
    ⟨fun h => ⟨h.1, h.2⟩, fun h => ⟨h.one, h.free⟩⟩

/-- From the check that it passes to the return of its pipeline. -/
def Pc.admitted : Pc → Bool
  | .accepted | .launched | .working | .closing _ => true
  | _ => false

/-- Admitted, and the status does not tell: the first state is still to be written, or the last one
has been. -/
def Pc.unseen : Pc → Bool
  | .accepted | .launched | .closing _ => true
  | _ => false

/-- `busy` is asked while the status does not tell of a request that was admitted, or the process
starts while the file says `running`. -/
def Harmful (s : Process) : Act → Prop
  | .move (.begin _) => False
  | .move (.advance c _) => s.call c = some .checking ∧ ∃ q ∈ s.calls, q.unseen
  | .restart => s.store.persisted = some .running

instance (s : Process) : ∀ a, Decidable (Harmful s a)
  | .move (.begin _) => .isFalse id
  | .move (.advance c _) => inferInstanceAs (Decidable (s.call c = some .checking ∧ _))
  | .restart => inferInstanceAs (Decidable (s.store.persisted = some .running))

/-! ## The state and the pipelines -/

/-- One request at most is admitted, and the state is `running` while its pipeline is at work. -/
structure Orderly (s : Process) : Prop where
  one : s.calls.countP Pc.admitted ≤ 1
  seen : s.store.status = .running ↔ .working ∈ s.calls

section

variable {s s' : Process} {a : Act} {c : ℕ} {p p' : Pc} {i : Event × Persist} {st : Store}

theorem Orderly.exclusive (h : Orderly s) : Exclusive s where
  one := by
    refine le_trans (List.countP_mono_left fun q _ => ?_) h.one
    cases q <;> simp [Pc.runs, Pc.admitted]
  free hnone := by
    refine decide_eq_false fun hrunning => ?_
    exact List.countP_eq_zero.mp hnone _ (h.seen.mp hrunning) rfl

theorem Orderly.put_same (h : Orderly s) (hc : s.call c = some p) (hp : p ≠ .working)
    (hp' : p' ≠ .working) (hone : (s.put c s.store p').calls.countP Pc.admitted ≤ 1) :
    Orderly (s.put c s.store p') := by
  refine ⟨hone, h.seen.trans ⟨fun hmem => ?_, fun hmem => ?_⟩⟩
  · exact (Pool.mem_put_of_mem hc hmem s.store p').resolve_left hp.symm
  · exact (Pool.mem_put hmem).resolve_right hp'.symm

/-- A status that is written by the one request that is admitted. -/
theorem Orderly.put_alone (h : Orderly s) (hc : s.call c = some p) (hp : p.admitted)
    (hstatus : st.status = .running ↔ p' = .working) : Orderly (s.put c st p') := by
  refine ⟨(Pool.countP_put_le hc (fun _ => hp) st).trans h.one, hstatus.trans ⟨?_, fun hmem => ?_⟩⟩
  · rintro rfl
    exact Pool.mem_of_call (Pool.call_put_self hc st _)
  · rcases Pool.eq_or_of_countP_le_one h.one hc hp hmem with heq | hnot
    · exact heq.symm
    · cases hnot

theorem Orderly.advance (h : Orderly s) (hc : s.call c = some p)
    (hno : ¬ Harmful s (.move (.advance c i))) (hact : act i s.store p = some (st, p')) :
    Orderly (s.put c st p') := by
  revert hact
  fun_cases act i s.store p with
  | case1 =>
    rintro ⟨⟩
    have hcount := Pool.countP_put Pc.admitted hc s.store
    split
    · exact h.put_same hc nofun nofun ((hcount .refused).trans_le h.one)
    · -- nobody is admitted: not at work, since the state is not `running`, and not unseen either
      next hbusy =>
      have hnone : s.calls.countP Pc.admitted = 0 := by
        refine List.countP_eq_zero.mpr fun q hq hadmitted => ?_
        cases q with
        | working => exact hbusy (decide_eq_true (h.seen.mpr hq))
        | accepted | launched | closing => exact hno ⟨hc, _, hq, rfl⟩
        | _ => cases hadmitted
      have hone : (s.put c s.store .accepted).calls.countP Pc.admitted = _ := hcount .accepted
      rw [hnone] at hone
      exact h.put_same hc nofun nofun hone.le
  | case3 | case4 =>
    rintro ⟨⟩
    exact h.put_alone hc rfl ⟨fun _ => rfl, fun _ => rfl⟩
  | case5 | case6 | case8 =>
    rintro ⟨⟩
    exact h.put_alone hc rfl ⟨nofun, nofun⟩
  | case2 | case10 =>
    rintro ⟨⟩
    exact h.put_same hc nofun nofun ((Pool.countP_put_le hc (fun _ => rfl) _).trans h.one)
  | _ => rintro ⟨⟩

theorem orderly_step (h : Orderly s) (hno : ¬ Harmful s a) (hs : step s a = some s') :
    Orderly s' := by
  cases a with
  | restart =>
    cases hs
    refine ⟨Nat.zero_le _, ⟨fun hrunning => absurd ?_ hno, nofun⟩⟩
    unfold Harmful
    cases hfile : s.store.persisted with
    | none =>
      rw [hfile] at hrunning
      cases hrunning
    | some st =>
      rw [hfile] at hrunning
      exact congrArg some hrunning
  | move m =>
    obtain ⟨-, -, rfl⟩ | ⟨c, i, p, st, p', rfl, hc, hact, rfl⟩ := poolStep_cases hs
    · refine ⟨(Pool.countP_enter s _ _).trans_le h.one, h.seen.trans ?_⟩
      simp [Pool.enter]
    · exact h.advance hc hno hact

end

def fresh : Process := ⟨loadPersistedStatus none, []⟩

/-- **One upgrade runs at a time, and the updater accepts a request when none does**, along every
run in which no step is harmful. -/
theorem updater_exclusive (as : List Act) (h : Guarded step (fun s a => ¬ Harmful s a) fresh as) :
    Throughout step Exclusive fresh as :=
  throughout_of_invariant orderly_step Orderly.exclusive ⟨Nat.zero_le _, nofun, nofun⟩ h

/-! ## What a harmful step leads to -/

/-- The state and the file say `running`, and there are only requests that were or will be refused.
-/
def Stuck (s : Process) : Prop :=
  s.store = ⟨.running, some .running⟩ ∧ ∀ q ∈ s.calls, q = .checking ∨ q = .refused

theorem stuck_step {s s' : Process} {a : Act} (hs : Stuck s) (h : step s a = some s') :
    Stuck s' := by
  obtain ⟨hstore, hcalls⟩ := hs
  cases a with
  | restart =>
    cases h
    refine ⟨?_, nofun⟩
    show loadPersistedStatus s.store.persisted = _
    rw [hstore]
    rfl
  | move m =>
    obtain ⟨-, -, rfl⟩ | ⟨c, i, p, st, p', -, hc, hact, rfl⟩ := poolStep_cases h
    · exact ⟨hstore, Pool.forall_enter hcalls (.inl rfl)⟩
    rcases hcalls p (Pool.mem_of_call hc) with rfl | rfl
    · have hbusy : s.store.busy := by
        rw [hstore]
        rfl
      cases hact
      rw [if_pos hbusy]
      exact ⟨hstore, Pool.forall_put hcalls (.inr rfl)⟩
    · cases hact

/-- Nothing gets the updater out of it, a restart neither. -/
theorem stuck_of_exec {s s' : Process} {as : List Act} (hrun : exec step s as = some s')
    (hs : Stuck s) : Stuck s' :=
  exec_invariant_of_step stuck_step hrun hs

def go (c : ℕ) (e : Event) : Act := .move (.advance c (e, .written))

def ask : Act := .move (.begin ())

def underWay : List Act := [ask, go 0 .note, go 0 .note, go 0 .note]

/-- A request is refused while an upgrade is at work, and accepted when it has returned. -/
def oneAfterAnother : List Act :=
  underWay ++ [ask, go 1 .note, go 0 .succeed, go 0 .leave, ask, go 2 .note]

theorem updater_exclusive_in_turn :
    (exec step fresh oneAfterAnother).map Pool.calls = some [.returned, .refused, .accepted] ∧
      Throughout step Exclusive fresh oneAfterAnother :=
  ⟨by decide, updater_exclusive oneAfterAnother (by decide)⟩

/-- Two requests ask before either pipeline has written its state; a request comes while an
upgrade that has succeeded is still handing over; the process ends during an upgrade, and from
then on every request is refused. -/
theorem updater_not_exclusive :
    (∃ s, exec step fresh [ask, ask, go 0 .note, go 1 .note, go 0 .note, go 1 .note] = some s ∧
      running s = 2) ∧
      (∃ s, exec step fresh (underWay ++ [go 0 .succeed, ask, go 1 .note, go 1 .note]) = some s ∧
        running s = 2) ∧
      ∃ s, exec step fresh (underWay ++ [.restart]) = some s ∧ ¬ Exclusive s ∧
        ∀ as s', exec step s as = some s' → running s' = 0 ∧ s'.store.busy := by
  refine ⟨⟨_, rfl, by decide⟩, ⟨_, rfl, by decide⟩, _, rfl, by decide, fun as s' hrun => ?_⟩
  obtain ⟨hstore, hcalls⟩ := stuck_of_exec hrun ⟨rfl, nofun⟩
  refine ⟨List.countP_eq_zero.mpr fun q hq => ?_, ?_⟩
  · rcases hcalls q hq with rfl | rfl
    · decide
    · decide
  · rw [hstore]
    rfl

end Moorgate.Updater
