import Moorgate.Framework.Base.Calls
import Moorgate.Framework.Base.Civil

/-!
# The upgrade service: `Apply`, `SetDrain` and `Status` of `upgrade/service.go`

The backend and the updater each hold a `Status`. `Apply` looks at its own in one critical section
and writes it in the next; it drains the instance before it calls the updater, and no exit after
that takes the drain back. `Status` compares the time of an outcome with the start of the process.
-/

namespace Moorgate.Upgrade.Service

open Framework

/-- `Status.State`. -/
inductive Phase where
  | idle | verifying | backingUp | dispatched | running | success | failed
deriving DecidableEq

/-- `Status`, with the number of the attempt that it tells of. -/
structure Status where
  state : Phase
  updatedAt : Option Instant
  attempt : ℕ
deriving DecidableEq

/-- `own` is `local`. `operators` is what `SetDrain` was last asked for, `attempts` how many were
recorded, and `jobs` are those the updater has accepted. -/
structure Store where
  bootAt : Instant
  own : Status
  (draining operators : Bool)
  attempts : ℕ
  updater : Status
  jobs : List ℕ
deriving DecidableEq

def Store.write (s : Store) (state : Phase) (n : ℕ) (now : Instant) : Store :=
  { s with own := ⟨state, some now, n⟩ }

def Status.terminal (st : Status) : Prop := st.state = .success ∨ st.state = .failed

instance (st : Status) : Decidable st.terminal := inferInstanceAs (Decidable (_ ∨ _))

def Store.stale (s : Store) : Prop := s.updater.terminal ∧ ∀ t ∈ s.updater.updatedAt, t < s.bootAt

instance (s : Store) : Decidable s.stale := inferInstanceAs (Decidable (_ ∧ _))

/-- `Service.Status`; whether the updater answers is not up to the service. -/
def Store.status (s : Store) (answers : Bool) : Status :=
  if answers ∧ ¬ s.stale then s.updater else s.own

/-- Where a call of `Apply` stands: at `recording` it is past its check, and `answered` has the
updater's acceptance, or has lost it. -/
inductive Pc where
  | verifying | checking | asking | recording
  | backingUp (n : ℕ)
  | draining (n : ℕ)
  | dispatching (n : ℕ)
  | answered (n : ℕ) (heard : Bool)
  | returned
deriving DecidableEq

/-- The time, whether what the statement asks for works, and whether the updater's answer arrives.
-/
structure Input where
  now : Instant
  (ok heard : Bool)

/-- `updaterStatus`, or `/apply`, finds no upgrade that runs. -/
def Store.free (s : Store) (i : Input) : Bool := i.ok && decide (s.updater.state ≠ .running)

def act (i : Input) (s : Store) : Pc → Option (Store × Pc)
  | .verifying => some (s, if i.ok then .checking else .returned)
  | .checking =>
    match s.own.state with
    | .verifying | .backingUp => some (s, .returned)
    | .dispatched => some (s, .asking)
    | _ => some (s, .recording)
  | .asking => some (s, if s.free i then .recording else .returned)
  | .recording =>
    some ({ s.write .backingUp (s.attempts + 1) i.now with attempts := s.attempts + 1 },
      .backingUp (s.attempts + 1))
  | .backingUp n => some (if i.ok then (s, .draining n) else (s.write .failed n i.now, .returned))
  | .draining n => some ({ s with draining := true }, .dispatching n)
  | .dispatching n =>
    some (if s.free i then ({ s with jobs := n :: s.jobs }, .answered n i.heard)
      else (s.write .failed n i.now, .returned))
  | .answered n heard => some (s.write (if heard then .dispatched else .failed) n i.now, .returned)
  | .returned => none

/-- A pipeline of the updater writes its state, and `restart` replaces the backend's process. -/
inductive Act where
  | move (m : Move Unit Input)
  | setDrain (on : Bool)
  | pipeline (n : ℕ) (state : Phase) (now : Instant)
  | restart (now : Instant)

abbrev Process := Pool Store Pc

def step (s : Process) : Act → Option Process
  | .move m => poolStep (fun _ => .verifying) act s m
  | .setDrain on => some ⟨{ s.store with draining := on, operators := on }, s.calls⟩
  | .pipeline n state now =>
    if n ∈ s.store.jobs ∧ state ∈ [.running, .success, .failed] then
      some ⟨{ s.store with updater := ⟨state, some now, n⟩ }, s.calls⟩
    else none
  | .restart now =>
    some ⟨{ s.store with
      bootAt := now, own := ⟨.idle, none, 0⟩, draining := false, operators := false }, []⟩

/-! ## What a call does next -/

def Pc.past : Pc → Bool
  | .verifying | .checking | .asking | .returned => false
  | _ => true

def Pc.pending : Pc → Option ℕ
  | .backingUp n | .draining n | .dispatching n => some n
  | _ => none

def ending (i : Input) (s : Store) : Pc → Option (Phase × ℕ)
  | .backingUp n => if i.ok then none else some (.failed, n)
  | .dispatching n => if s.free i then none else some (.failed, n)
  | .answered n heard => some (if heard then .dispatched else .failed, n)
  | _ => none

def past (s : Process) : ℕ := s.calls.countP Pc.past

variable {i : Input} {s : Process} {st : Store} {p p' : Pc} {a : Act} {c n : ℕ}

/-- A call goes on without a word about it, or records an attempt, or ends one. -/
theorem act_cases (h : act i s.store p = some (st, p')) :
    (ending i s.store p = none ∧ p ≠ .recording ∧ p'.pending ∈ [none, p.pending] ∧
      st.own = s.store.own ∧ st.updater = s.store.updater ∧ st.bootAt = s.store.bootAt) ∨
    (p = .recording ∧ p' = .backingUp (s.store.attempts + 1) ∧ st.own.state = .backingUp ∧
      st.updater = s.store.updater ∧ st.bootAt = s.store.bootAt) ∨
    (p' = .returned ∧ ∃ x, ending i s.store p = some x ∧ st = s.store.write x.1 x.2 i.now) := by
  cases p with
  | returned => cases h
  | verifying | asking =>
    cases h
    split
    all_goals simp [ending, Pc.pending]
  | checking =>
    simp only [act] at h
    split at h
    all_goals
      cases h
      simp [ending, Pc.pending]
  | recording =>
    cases h
    simp [Store.write]
  | backingUp n | dispatching n =>
    simp only [act, Option.some.injEq] at h
    split at h
    all_goals
      cases h
      simp_all [Pc.pending, ending]
  | draining n | answered n heard =>
    cases h
    simp [Pc.pending, ending]

theorem ending_phase {s : Store} {x : Phase × ℕ} (h : ending i s p = some x) :
    p ≠ .recording ∧ x.1 ≠ .success := by
  unfold ending at h
  grind

theorem act_of_ending {s : Store} {x : Phase × ℕ} (h : ending i s p = some x) :
    ∃ next, act i s p = some next := by
  cases p with
  | returned | checking => cases h
  | _ => exact ⟨_, rfl⟩

/-! ## Draining -/

def Store.failed (s : Store) : Prop :=
  s.own.state = .failed ∨
    (s.own.state = .dispatched ∧ s.updater.state = .failed ∧ s.updater.attempt = s.own.attempt)

/-- At most one call is past its check, and after a failure the instance is drained as the operators
asked. -/
def InService (s : Process) : Prop :=
  past s ≤ 1 ∧ (past s = 0 → s.store.failed → s.store.draining = s.store.operators)

/-- From the check on, also where it asks the updater. -/
def Pc.admitted : Pc → Bool
  | .verifying | .checking | .returned => false
  | _ => true

def Pc.recorded : Pc → Bool
  | .backingUp _ | .draining _ | .dispatching _ | .answered _ _ => true
  | _ => false

/-- `SetDrain(true)` is behind it. -/
def Pc.drained : Pc → Bool
  | .dispatching _ | .answered _ _ => true
  | _ => false

/-- The call checks while another stands between its check and its write; or the operators have not
asked for the drain, and the call begins an attempt behind one that was dispatched, or fails one
after `SetDrain(true)`. -/
def Pc.Strays (i : Input) (s : Process) : Pc → Prop
  | .checking => .asking ∈ s.calls ∨ .recording ∈ s.calls
  | .asking => s.store.free i ∧ s.store.operators = false
  | .dispatching _ => s.store.free i = false ∧ s.store.operators = false
  | .answered n heard =>
    (heard = false ∨ s.store.updater.state = .failed ∧ s.store.updater.attempt = n) ∧
      s.store.operators = false
  | _ => False

instance (i : Input) (s : Process) : ∀ p : Pc, Decidable (p.Strays i s)
  | .checking => inferInstanceAs (Decidable (_ ∨ _))
  | .asking | .dispatching _ | .answered _ _ => inferInstanceAs (Decidable (_ ∧ _))
  | .verifying | .recording | .backingUp _ | .draining _ | .returned => .isFalse id

/-- The same of all steps: the updater fails the attempt that was dispatched. -/
def LeavesDrained (s : Process) : Act → Prop
  | .move (.advance c i) => ∃ p ∈ s.call c, p.Strays i s
  | .pipeline n state _ => state = .failed ∧ s.store.own.state = .dispatched ∧
      s.store.own.attempt = n ∧ s.store.operators = false
  | _ => False

instance (s : Process) : ∀ a, Decidable (LeavesDrained s a)
  | .move (.advance c _) => inferInstanceAs (Decidable (∃ p ∈ s.call c, _))
  | .pipeline .. => inferInstanceAs (Decidable (_ ∧ _))
  | .move (.begin _) | .setDrain _ | .restart _ => .isFalse id

theorem Pc.of_not_admitted {p : Pc} (h : p.admitted = false) :
    p.past = false ∧ p.recorded = false ∧ p.drained = false := by
  cases p <;> first | exact ⟨rfl, rfl, rfl⟩ | cases h

theorem Pc.admitted_of_past {p : Pc} (h : p.past) : p.admitted := by
  cases p <;> first | rfl | cases h

/-- One call is admitted, an attempt that is recorded is seen by the next check, and the instance is
drained beyond what the operators asked for only by a call that has still to be answered, or by one
that was dispatched. -/
structure Governed (s : Process) : Prop where
  one : s.calls.countP Pc.admitted ≤ 1
  seen : ∀ q ∈ s.calls, q.recorded → s.store.own.state = .backingUp
  asked : s.store.operators → s.store.draining
  drained : s.store.draining ≠ s.store.operators →
    (∃ q ∈ s.calls, q.drained) ∨ (s.store.own.state = .dispatched ∧ ∀ q ∈ s.calls, q.past = false)
  failed : past s = 0 → s.store.failed → s.store.draining = s.store.operators

section

variable {s' : Process}

theorem past_eq_zero : past s = 0 ↔ ∀ q ∈ s.calls, q.past = false := by
  simp [past, List.countP_eq_zero]

theorem Governed.inService (h : Governed s) : InService s := by
  exact ⟨le_trans (List.countP_mono_left fun _ _ => Pc.admitted_of_past) h.one, h.failed⟩

theorem Governed.drained_as_asked (h : Governed s) (hno : ¬ s.store.operators = false) :
    s.store.draining = s.store.operators := by
  have hon := Bool.eq_true_of_not_eq_false hno
  rw [hon, h.asked hon]

theorem governed_alone (hc : s.call c = some p)
    (hone : (s.put c st p').calls.countP Pc.admitted ≤ 1)
    (hothers : ∀ q ∈ (s.put c st p').calls, q = p' ∨ q.admitted = false)
    (hseen : p'.recorded → st.own.state = .backingUp) (hasked : st.operators → st.draining)
    (hdrained : st.draining ≠ st.operators →
      p'.drained ∨ (st.own.state = .dispatched ∧ p'.past = false))
    (hfailed : p'.past = false → st.failed → st.draining = st.operators) :
    Governed (s.put c st p') := by
  have hself : p' ∈ (s.put c st p').calls := Pool.mem_of_call (Pool.call_put_self hc st p')
  refine ⟨hone, fun q hq hrec => ?_, hasked, fun hne => ?_, fun hpast => ?_⟩
  · rcases hothers q hq with rfl | hnot
    · exact hseen hrec
    · simp [(Pc.of_not_admitted hnot).2.1] at hrec
  · refine (hdrained hne).imp (fun hd => ⟨p', hself, hd⟩) fun ⟨hstate, hp'⟩ =>
      ⟨hstate, fun q hq => ?_⟩
    rcases hothers q hq with rfl | hnot
    · exact hp'
    · exact (Pc.of_not_admitted hnot).1
  · exact hfailed (past_eq_zero.mp hpast p' hself)

theorem Governed.put_same (h : Governed s) (hc : s.call c = some p) (hp : p.admitted = false)
    (hp' : p'.admitted = false) : Governed (s.put c s.store p') := by
  have hnew := Pc.of_not_admitted hp'
  have hkept (q : Pc) (hq : q ∈ s.calls) (hne : q ≠ p) : q ∈ (s.put c s.store p').calls :=
    (Pool.mem_put_of_mem hc hq s.store p').resolve_left hne
  refine ⟨(Pool.countP_put_le hc (by simp [hp']) _).trans h.one,
    Pool.forall_put h.seen (by simp [hnew]), h.asked, fun hne => ?_, fun hzero => ?_⟩
  · refine (h.drained hne).imp (fun ⟨q, hq, hd⟩ => ⟨q, hkept q hq ?_, hd⟩) fun ⟨hstate, hall⟩ =>
      ⟨hstate, Pool.forall_put hall hnew.1⟩
    rintro rfl
    simp [(Pc.of_not_admitted hp).2.2] at hd
  · refine h.failed (past_eq_zero.mpr fun q hq => ?_)
    by_cases hne : q = p
    · exact hne ▸ (Pc.of_not_admitted hp).1
    · exact past_eq_zero.mp hzero q (hkept q hq hne)

/-- A check that is passed: no other call is admitted, since one that is recorded is seen. -/
theorem Governed.put_checked (h : Governed s) (hc : s.call c = some .checking)
    (hno : ¬ Pc.Strays i s .checking) (hown : s.store.own.state ≠ .backingUp)
    (hnew : p' = .asking ∨ p' = .recording ∧ s.store.own.state ≠ .dispatched) :
    Governed (s.put c s.store p') := by
  have hnone : ∀ q ∈ s.calls, q.admitted = false := by
    intro q hq
    cases q with
    | verifying | checking | returned => rfl
    | asking => exact absurd (.inl hq) hno
    | recording => exact absurd (.inr hq) hno
    | backingUp | draining | dispatching | answered => exact absurd (h.seen _ hq rfl) hown
  have hpast : past s = 0 := past_eq_zero.mpr fun q hq => (Pc.of_not_admitted (hnone q hq)).1
  have hidle : s.store.draining ≠ s.store.operators → s.store.own.state = .dispatched := by
    intro hne
    rcases h.drained hne with ⟨q, hq, hd⟩ | ⟨hstate, -⟩
    · simp [(Pc.of_not_admitted (hnone q hq)).2.2] at hd
    · exact hstate
  have hzero : s.calls.countP Pc.admitted = 0 := List.countP_eq_zero.mpr (by simpa using hnone)
  have hcount := Pool.countP_put Pc.admitted hc s.store p'
  refine governed_alone hc ?_ (fun q hq => ?_) ?_ h.asked ?_ fun _ => h.failed hpast
  · split at hcount <;> split at hcount <;> omega
  · exact (Pool.mem_put hq).symm.imp_right (hnone q)
  · rcases hnew with rfl | ⟨rfl, -⟩ <;> nofun
  · rcases hnew with rfl | ⟨rfl, hnot⟩
    · exact fun hne => .inr ⟨hidle hne, rfl⟩
    · exact fun hne => absurd (hidle hne) hnot

theorem Governed.put_alone (h : Governed s) (hc : s.call c = some p) (hp : p.admitted)
    (hseen : p'.recorded → st.own.state = .backingUp) (hasked : st.operators → st.draining)
    (hdrained : st.draining ≠ st.operators →
      p'.drained ∨ (st.own.state = .dispatched ∧ p'.past = false))
    (hfailed : p'.past = false → st.failed → st.draining = st.operators) :
    Governed (s.put c st p') :=
  governed_alone hc ((Pool.countP_put_le hc (fun _ => hp) st).trans h.one)
    (fun _ hq => Pool.eq_or_of_countP_le_one h.one hc hp hq) hseen hasked hdrained hfailed

theorem Governed.others (h : Governed s) (hc : s.call c = some p) (hp : p.admitted) {q : Pc}
    (hq : q ∈ s.calls) : q = p ∨ q.admitted = false := by
  rcases Pool.mem_put_of_mem hc hq s.store p with heq | hput
  · exact .inl heq
  · exact Pool.eq_or_of_countP_le_one h.one hc hp hput

/-- Before its own `SetDrain(true)` a call finds the instance drained as the operators asked, unless
an attempt was dispatched. -/
theorem Governed.drained_before (h : Governed s) (hc : s.call c = some p) (hp : p.admitted)
    (hd : p.drained = false) (hne : s.store.draining ≠ s.store.operators) :
    s.store.own.state = .dispatched ∧ p.past = false := by
  rcases h.drained hne with ⟨q, hq, hqd⟩ | ⟨hstate, hall⟩
  · rcases h.others hc hp hq with rfl | hnot
    · simp [hd] at hqd
    · simp [(Pc.of_not_admitted hnot).2.2] at hqd
  · exact ⟨hstate, hall p (Pool.mem_of_call hc)⟩

theorem Governed.advance (h : Governed s) (hc : s.call c = some p) (hno : ¬ p.Strays i s)
    (hact : act i s.store p = some (st, p')) : Governed (s.put c st p') := by
  have hbefore (hp : p.past) (hd : p.drained = false) : s.store.draining = s.store.operators := by
    by_contra hne
    simp [(h.drained_before hc (Pc.admitted_of_past hp) hd hne).2] at hp
  have hseen := h.seen p (Pool.mem_of_call hc)
  cases p with
  | verifying =>
    cases hact
    exact h.put_same hc rfl (by split <;> rfl)
  | checking =>
    simp only [act] at hact
    split at hact
    all_goals cases hact
    · exact h.put_same hc rfl rfl
    · exact h.put_same hc rfl rfl
    · exact h.put_checked hc hno (by simp [*]) (.inl rfl)
    · exact h.put_checked hc hno (by simp_all) (.inr ⟨rfl, by simp_all⟩)
  | asking =>
    cases hact
    split
    · next hfree =>
      have hequal := h.drained_as_asked fun hoff => hno ⟨hfree, hoff⟩
      exact h.put_alone hc rfl nofun h.asked (absurd hequal) nofun
    · refine h.put_alone hc rfl nofun h.asked
        (fun hne => .inr ⟨(h.drained_before hc rfl rfl hne).1, rfl⟩)
        fun _ => h.failed (past_eq_zero.mpr fun q hq => ?_)
      rcases h.others hc rfl hq with rfl | hnot
      · rfl
      · exact (Pc.of_not_admitted hnot).1
  | recording =>
    cases hact
    exact h.put_alone hc rfl (fun _ => rfl) h.asked (absurd (hbefore rfl rfl)) nofun
  | backingUp n =>
    simp only [act, Option.some.injEq] at hact
    split at hact
    all_goals cases hact
    · exact h.put_alone hc rfl (fun _ => hseen rfl) h.asked (absurd (hbefore rfl rfl)) nofun
    · exact h.put_alone hc rfl nofun h.asked (absurd (hbefore rfl rfl)) fun _ _ => hbefore rfl rfl
  | draining n =>
    cases hact
    exact h.put_alone hc rfl (fun _ => hseen rfl) (fun _ => rfl) (fun _ => .inl rfl) nofun
  | dispatching n =>
    simp only [act, Option.some.injEq] at hact
    split at hact
    all_goals cases hact
    · exact h.put_alone hc rfl (fun _ => hseen rfl) h.asked (fun _ => .inl rfl) nofun
    · next hbusy =>
      have hequal := h.drained_as_asked fun hoff => hno ⟨Bool.eq_false_iff.mpr hbusy, hoff⟩
      exact h.put_alone hc rfl nofun h.asked (absurd hequal) fun _ _ => hequal
  | answered n heard =>
    cases hact
    cases heard with
    | false =>
      have hequal := h.drained_as_asked fun hoff => hno ⟨.inl rfl, hoff⟩
      exact h.put_alone hc rfl nofun h.asked (absurd hequal) fun _ _ => hequal
    | true =>
      refine h.put_alone hc rfl nofun h.asked (fun _ => .inr ⟨rfl, rfl⟩) ?_
      rintro - (hfailed | ⟨-, hfailed⟩)
      · cases hfailed
      · exact h.drained_as_asked fun hoff => hno ⟨.inr hfailed, hoff⟩
  | returned => cases hact

theorem governed_step (h : Governed s) (hno : ¬ LeavesDrained s a) (hs : step s a = some s') :
    Governed s' := by
  cases a with
  | move m =>
    rcases poolStep_cases hs with ⟨-, -, rfl⟩ | ⟨c, i, p, st, p', rfl, hc, hact, rfl⟩
    · have hpast : past (s.enter .verifying) = past s := Pool.countP_enter s _ _
      refine ⟨(Pool.countP_enter s _ _).trans_le h.one, Pool.forall_enter h.seen nofun, h.asked,
        fun hne => ?_, fun hzero => h.failed (hpast.symm.trans hzero)⟩
      refine (h.drained hne).imp (fun ⟨q, hq, hd⟩ => ⟨q, List.mem_append_left _ hq, hd⟩) ?_
      exact fun ⟨hstate, hall⟩ => ⟨hstate, Pool.forall_enter hall rfl⟩
    · exact h.advance hc (fun hstrays => hno ⟨p, hc, hstrays⟩) hact
  | setDrain on =>
    cases hs
    exact ⟨h.one, h.seen, id, absurd rfl, fun _ _ => rfl⟩
  | pipeline n state now =>
    obtain ⟨-, ⟨⟩⟩ := Option.ite_none_right_eq_some.mp hs
    refine ⟨h.one, h.seen, h.asked, h.drained, fun hzero hfailed => ?_⟩
    rcases hfailed with hfailed | ⟨hstate, hfailed, hattempt⟩
    · exact h.failed hzero (.inl hfailed)
    · exact h.drained_as_asked fun hoff => hno ⟨hfailed, hstate, hattempt.symm, hoff⟩
  | restart now =>
    cases hs
    exact ⟨Nat.zero_le _, nofun, nofun, absurd rfl, fun _ _ => rfl⟩

end

/-- A process that starts, beside an updater that has an earlier attempt behind it or under way. -/
def boot (updater : Phase) (updatedAt : Option Instant) (now : Instant) : Process :=
  ⟨⟨now, ⟨.idle, none, 0⟩, false, false, 0, ⟨updater, updatedAt, 0⟩, [0]⟩, []⟩

/-- **A failed upgrade leaves the instance in service**: along every run in which no step leaves it
drained, one attempt is made at a time, and a failed one leaves the drain as the operators asked. -/
theorem apply_in_service (updater : Phase) (updatedAt : Option Instant) (now : Instant)
    (as : List Act)
    (h : Guarded step (fun s a => ¬ LeavesDrained s a) (boot updater updatedAt now) as) :
    Throughout step InService (boot updater updatedAt now) as :=
  throughout_of_invariant governed_step Governed.inService
    ⟨Nat.zero_le _, nofun, nofun, absurd rfl, fun _ _ => rfl⟩ h

def call : Act := .move (.begin ())

def go (c : ℕ) (ok : Bool) : Act := .move (.advance c ⟨0, ok, true⟩)

/-- A backup fails; then the operators ask for the drain, and a call that does not reach the updater
leaves it. -/
def failsInTurn : List Act :=
  call :: List.replicate 3 (go 0 true) ++ [go 0 false, .setDrain true, call] ++
    List.replicate 5 (go 1 true) ++ [go 1 false]

theorem apply_in_service_in_turn :
    (exec step (boot .idle none 0) failsInTurn).map
        (fun s => (past s, s.store.own.state, s.store.draining, s.store.operators)) =
      some (0, .failed, true, true) ∧
    Throughout step InService (boot .idle none 0) failsInTurn :=
  ⟨by decide, apply_in_service .idle none 0 failsInTurn (by decide)⟩

/-- Two calls pass the check; and a call that does not reach the updater leaves the instance
drained. -/
theorem apply_leaves_drained :
    (exec step (boot .idle none 0) [call, call, go 0 true, go 1 true, go 0 true, go 1 true]).map
      past = some 2 ∧
    (exec step (boot .idle none 0) (call :: List.replicate 5 (go 0 true) ++ [go 0 false])).map
      (fun s => (past s, s.store.own.state, s.store.draining, s.store.operators)) =
        some (0, .failed, true, false) := by
  decide

/-! ## Outcomes of earlier attempts -/

def Status.outdated (st : Status) (n : ℕ) : Prop := st.terminal ∧ st.attempt < n

/-- `Status` may report how an attempt before `n` ended. -/
def Store.tells (s : Store) (n : ℕ) : Prop := ∃ answers, (s.status answers).outdated n

def Current (s : Process) : Prop := ∀ q ∈ s.calls, ∀ n ∈ q.pending, ¬ s.store.tells n

/-- An attempt is recorded while the updater tells of one that has ended since the process started,
or an earlier one ends while an attempt is pending. -/
def Misreports (s : Process) : Act → Prop
  | .move (.advance c i) => ∃ p ∈ s.call c,
      (p = .recording ∧ ¬ s.store.stale ∧ s.store.updater.outdated (s.store.attempts + 1)) ∨
      ∃ x ∈ ending i s.store p, x.1 = .failed ∧ ∃ d q, d ≠ c ∧ s.call d = some q ∧
      ∃ n ∈ q.pending, x.2 < n
  | .pipeline m state now =>
      m ∈ s.store.jobs ∧ (state = .success ∨ state = .failed) ∧ s.store.bootAt ≤ now ∧
        ∃ q ∈ s.calls, ∃ n ∈ q.pending, m < n
  | _ => False

theorem tells_iff : st.tells n ↔ st.own.outdated n ∨ (¬ st.stale ∧ st.updater.outdated n) := by
  unfold Store.tells Store.status
  by_cases hstale : st.stale
  · simp [hstale]
  · simp [hstale]

theorem current_put_iff (hs : Current s) (hc : s.call c = some p)
    (hact : act i s.store p = some (st, p')) :
    Current (s.put c st p') ↔ ¬ Misreports s (.move (.advance c i)) := by
  have hs : ∀ d q, s.call d = some q → ∀ n ∈ q.pending, ¬ s.store.tells n :=
    fun d q hq => hs q (Pool.mem_of_call hq)
  simp only [Current, Pool.forall_put_iff hc, Misreports, hc, Option.mem_def, Option.some.injEq,
    exists_eq_left']
  rw [show (s.put c st p').store = st from rfl]
  rcases act_cases hact with ⟨hnone, hne, hpend, hown, hupd, hboot⟩ | ⟨rfl, rfl, hown,
    hupd, hboot⟩ | ⟨rfl, x, hx, rfl⟩
  · have htells : ∀ n, st.tells n ↔ s.store.tells n := fun n => by
      rw [tells_iff, tells_iff, Store.stale, Store.stale, hown, hupd, hboot]
    simp only [htells, hnone]
    grind
  · have htells : ∀ n, st.tells n ↔ ¬ s.store.stale ∧ s.store.updater.outdated n := fun n => by
      rw [tells_iff, Store.stale, hupd, hboot, or_iff_right]
      · rfl
      · simp [Status.outdated, Status.terminal, hown]
    have hothers : ∀ d q, d ≠ c → s.call d = some q → ∀ n, q.pending = some n → ¬ st.tells n :=
      fun d q _ hq n hn h => hs d q hq n hn (tells_iff.mpr (.inr ((htells n).mp h)))
    rw [and_iff_left hothers]
    simp [Pc.pending, ending, htells]
  · obtain ⟨hne, hphase⟩ := ending_phase hx
    have htells : ∀ n, ¬ s.store.tells n →
        ((s.store.write x.1 x.2 i.now).tells n ↔ x.1 = .failed ∧ x.2 < n) := by
      intro n hn
      rw [tells_iff] at hn ⊢
      simp only [Store.write, Status.outdated, Status.terminal, Store.stale] at hn ⊢
      grind
    constructor
    · rintro ⟨-, hothers⟩ (⟨rfl, -⟩ | ⟨y, hy, hfailed, d, q, hd, hq, n, hn, hlt⟩)
      · exact hne rfl
      · cases hx.symm.trans hy
        exact hothers d q hd hq n hn ((htells n (hs d q hq n hn)).mpr ⟨hfailed, hlt⟩)
    · refine fun h => ⟨nofun, fun d q hd hq n hn htold => h (.inr ⟨x, hx, ?_⟩)⟩
      obtain ⟨hfailed, hlt⟩ := (htells n (hs d q hq n hn)).mp htold
      exact ⟨hfailed, d, q, hd, hq, n, hn, hlt⟩

theorem current_step_iff (hs : Current s) :
    ¬ Misreports s a ↔ ∀ s', step s a = some s' → Current s' := by
  cases a with
  | move m =>
    cases m with
    | begin r =>
      refine iff_of_true id fun s' h => ?_
      cases h
      exact Pool.forall_enter hs nofun
    | advance c i =>
      rw [step]
      refine advance_iff (fun ⟨p, hp, h⟩ => ⟨p, ?_⟩) (current_put_iff hs)
      rcases h with ⟨rfl, -⟩ | ⟨x, hx, -⟩
      · exact ⟨_, hp, rfl⟩
      · exact (act_of_ending hx).imp fun _ h => ⟨hp, h⟩
  | setDrain on =>
    refine iff_of_true id fun s' h => ?_
    cases h
    exact hs
  | pipeline m state now =>
    simp only [step, Misreports]
    split
    · have htells : ∀ n, ¬ s.store.tells n →
          (Store.tells { s.store with updater := ⟨state, some now, m⟩ } n ↔
          (state = .success ∨ state = .failed) ∧ s.store.bootAt ≤ now ∧ m < n) := by
        intro n hn
        rw [tells_iff, not_or] at *
        simp only [Status.outdated, Status.terminal, Store.stale] at hn ⊢
        grind
      grind [Current]
    · rename_i hoff
      refine iff_of_true (fun h => hoff ⟨h.1, ?_⟩) fun _ h => by cases h
      rcases h.2.1 with rfl | rfl <;> simp
  | restart now =>
    refine iff_of_true id fun s' h => ?_
    cases h
    exact fun _ h => absurd h List.not_mem_nil

/-- Along any run `Status` is about the attempt that is pending, exactly when no step misreports. -/
theorem current_iff (updater : Phase) (updatedAt : Option Instant) (now : Instant) (as : List Act) :
    Throughout step Current (boot updater updatedAt now) as ↔
      Guarded step (fun s a => ¬ Misreports s a) (boot updater updatedAt now) as :=
  throughout_iff_guarded (fun (_ : True) _ => trivial) (fun _ => current_step_iff) trivial
    fun _ h => absurd h List.not_mem_nil

/-- The updater fails the first attempt, and `Status` says so while the second is being backed up.
-/
theorem status_tells_earlier_failure :
    (exec step (boot .idle none 0) (call :: List.replicate 7 (go 0 true) ++
      [.pipeline 1 .running 5, .pipeline 1 .failed 6, call] ++ List.replicate 4 (go 1 true))).map
      (fun s => (s.calls, s.store.status true)) =
        some ([.returned, .backingUp 2], ⟨.failed, some 6, 1⟩) := by
  decide

end Moorgate.Upgrade.Service
