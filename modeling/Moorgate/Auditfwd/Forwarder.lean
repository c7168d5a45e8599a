import Moorgate.Framework.Base.Calls
import Moorgate.Framework.Base.Civil
import Moorgate.Framework.Base.Text

/-!
# Forwarding audit events: `auditfwd`

`Forward` puts an event in a bounded queue and one worker sends it, with retries. An event that
does not fit and an event that is given up are logged. But both places ask `config` first, and an
event that meets a configuration which is off is dropped without a word (`Blind`). A failed read of
the stored configuration makes it the zero value.
-/

namespace Moorgate.Auditfwd

open Framework

def queueCapacity : ℕ := 2048
def maxRetries : ℕ := 5
def cacheTTL : Duration := 30 * second

structure Config where
  enabled : Bool
  (type address : String)
deriving DecidableEq

def Config.zero : Config := ⟨false, "", ""⟩

def Config.usable (c : Config) : Bool := c.enabled && decide (trimSpace c.address ≠ "")

/-- A configuration that is enabled and has an address. -/
structure Usable where
  config : Config
  usable : config.usable

/-- An attempt of `deliver`, which makes `maxRetries` of them. -/
structure Try where
  attempt : ℕ
  le : attempt ≤ maxRetries

theorem one_le_maxRetries : 1 ≤ maxRetries := by decide

def Try.first : Try := ⟨1, one_le_maxRetries⟩

def Try.next (n : Try) (h : n.attempt ≠ maxRetries) : Try :=
  ⟨n.attempt + 1, Nat.lt_of_le_of_ne n.le h⟩

/-- What is logged, at level `Warn` or, by `givingUp`, at level `Error`. -/
inductive Record (ε : Type) where
  | queueFull (e : ε) (totalDropped : ℕ)
  | willRetry (e : ε) (type : String) (attempt : ℕ)
  | givingUp (e : ε) (type : String) (attempts : ℕ)

/-- The event of which the record says that it was not delivered. -/
def Record.undelivered {ε : Type} : Record ε → Option ε
  | .queueFull e _ | .givingUp e _ _ => some e
  | .willRetry _ _ _ => none

/-- `stored` is the row of the setting; the rest is the `Forwarder`. -/
structure FwdStore (ε : Type) where
  stored : Usable
  cached : Config
  cachedAt : Instant
  queue : List ε
  dropped : ℕ
  sent : List ε
  log : List (Record ε)

/-- `readOk = false` makes `GetSetting` fail and `ok = false` the statement or the connection;
`loadedAt` is the time after the read. -/
structure FwdInput where
  (now loadedAt : Instant)
  (readOk ok : Bool)

inductive FwdRequest (ε : Type) where
  | forward (e : ε)
  | save (c : Usable)
  | saveElsewhere (c : Usable) -- by another instance, which has a cache of its own

/-- Each state stands before the step it is named for. -/
inductive FwdPc (ε : Type) where
  | forwarding (e : ε) -- `config` in `Forward`
  | enqueuing (e : ε)
  | forwarded (e : ε)
  | idle -- the worker waits for the queue
  | delivering (e : ε) (n : Try) -- `config` in `deliver`
  | sending (cfg : Config) (e : ε) (n : Try)
  | saving (c : Usable) -- `SetSetting`
  | caching (c : Usable)
  | savingElsewhere (c : Usable)
  | returned

section

variable {ε : Type} (valid : Config → Bool)

def FwdRequest.start : FwdRequest ε → FwdPc ε
  | .forward e => .forwarding e
  | .save c => .saving c
  | .saveElsewhere c => .savingElsewhere c

def loadConfig (readOk : Bool) (stored : Usable) : Config :=
  if readOk then stored.config else Config.zero

def config (i : FwdInput) (st : FwdStore ε) : Config × FwdStore ε :=
  if i.now - st.cachedAt < cacheTTL then (st.cached, st)
  else
    let c := loadConfig i.readOk st.stored
    (c, { st with cached := c, cachedAt := i.loadedAt })

/-- `valid` is `validateTarget`, which the live path asks again. -/
def send (i : FwdInput) (cfg : Config) : Bool := valid cfg && i.ok

def fwdAct (i : FwdInput) (st : FwdStore ε) : FwdPc ε → Option (FwdStore ε × FwdPc ε)
  | .forwarding e =>
    if (config i st).1.usable then some ((config i st).2, .enqueuing e)
    else some ((config i st).2, .forwarded e)
  | .enqueuing e =>
    if st.queue.length < queueCapacity then
      some ({ st with queue := st.queue ++ [e] }, .forwarded e)
    else
      some ({ st with dropped := st.dropped + 1, log := st.log ++ [.queueFull e (st.dropped + 1)] },
        .forwarded e)
  | .idle =>
    match st.queue with
    | [] => none
    | e :: rest => some ({ st with queue := rest }, .delivering e .first)
  | .delivering e n =>
    if (config i st).1.usable then some ((config i st).2, .sending (config i st).1 e n)
    else some ((config i st).2, .idle)
  | .sending cfg e n =>
    if send valid i cfg then some ({ st with sent := st.sent ++ [e] }, .idle)
    else if h : n.attempt = maxRetries then
      some ({ st with log := st.log ++ [.givingUp e cfg.type n.attempt] }, .idle)
    else some ({ st with log := st.log ++ [.willRetry e cfg.type n.attempt] },
      .delivering e (n.next h))
  | .saving c => if valid c.config && i.ok then some ({ st with stored := c }, .caching c)
      else some (st, .returned)
  | .caching c => some ({ st with cached := c.config, cachedAt := i.now }, .returned)
  | .savingElsewhere c => some (if i.ok then { st with stored := c } else st, .returned)
  | .forwarded _ | .returned => none

abbrev FwdPool (ε : Type) := Pool (FwdStore ε) (FwdPc ε)
abbrev FwdMove (ε : Type) := Move (FwdRequest ε) FwdInput

def fwdStep : FwdPool ε → FwdMove ε → Option (FwdPool ε) := poolStep FwdRequest.start (fwdAct valid)

/-- The worker is running and nothing has been forwarded. The cache is as an earlier
configuration may have left it. -/
def fwdStart (stored : Usable) (cached : Config) (cachedAt : Instant) : FwdPool ε :=
  ⟨⟨stored, cached, cachedAt, [], 0, [], []⟩, [.idle]⟩

end

/-! ## Where the events are -/

namespace FwdPc

variable {ε : Type}

def passed : FwdPc ε → Option ε
  | .forwarding e | .enqueuing e | .forwarded e => some e
  | _ => none

def inHand : FwdPc ε → Option ε
  | .forwarding e | .enqueuing e | .delivering e _ | .sending _ e _ => some e
  | _ => none

/-- The event for which the call asks for the configuration next. -/
def asking : FwdPc ε → Option ε
  | .forwarding e | .delivering e _ => some e
  | _ => none

end FwdPc

section

variable {ε : Type} [DecidableEq ε] (e : ε)

def FwdStore.undelivered (st : FwdStore ε) : List ε := st.log.filterMap Record.undelivered

def passedOf (s : FwdPool ε) : ℕ := s.calls.countP fun pc => decide (pc.passed = some e)

/-- The times that the event is in the hand of a call or in the queue. -/
def underWay (s : FwdPool ε) : ℕ :=
  s.calls.countP (fun pc => decide (pc.inHand = some e)) + s.store.queue.count e

/-- Every event that was passed to `Forward` is under way, was sent, or is logged as not
delivered, as often as it was passed. -/
def NoneLost (s : FwdPool ε) : Prop :=
  ∀ e, passedOf e s = underWay e s + s.store.sent.count e + s.store.undelivered.count e

/-- A call asks for the configuration and is told that forwarding is off. -/
def Blind (s : FwdPool ε) : FwdMove ε → Prop
  | .begin _ => False
  | .advance k i =>
    ∃ pc e, s.call k = some pc ∧ pc.asking = some e ∧ (config i s.store).1.usable = false

end

/-! ## Steps -/

theorem undelivered_log {ε : Type} {st : FwdStore ε} (r : Record ε) :
    ({ st with log := st.log ++ [r] } : FwdStore ε).undelivered = st.undelivered ++
      r.undelivered.toList := by
  unfold FwdStore.undelivered
  rw [List.filterMap_append]
  cases h : r.undelivered with
  | none => rw [List.filterMap_cons_none h, List.filterMap_nil, Option.toList_none]
  | some e => rw [List.filterMap_cons_some h, List.filterMap_nil, Option.toList_some]

section

variable {ε : Type} {pc : FwdPc ε}

theorem inHand_of_asking {e : ε} (h : pc.asking = some e) : pc.inHand = some e := by
  cases pc <;> first
    | exact h
    | cases h

theorem exists_act_of_inHand {e : ε} (h : pc.inHand = some e) (valid : Config → Bool) (i : FwdInput)
    (st : FwdStore ε) : ∃ next, fwdAct valid i st pc = some next := by
  fun_cases fwdAct valid i st pc with
  | case5 | case16 | case17 => cases h
  | _ => exact ⟨_, rfl⟩

theorem start_passed (r : FwdRequest ε) : r.start.passed = r.start.inHand := by cases r <;> rfl

end

section

variable {ε : Type} [DecidableEq ε] {valid : Config → Bool} {i : FwdInput} {st : FwdStore ε}
  {pc : FwdPc ε} {next : FwdStore ε × FwdPc ε} {s s' : FwdPool ε} {k : ℕ}

/-- The times that the event is in the queue, was sent or is logged. -/
def kept (e : ε) (st : FwdStore ε) : ℕ :=
  st.queue.count e + st.sent.count e + st.undelivered.count e

def hand (e : ε) (pc : FwdPc ε) : ℕ := if pc.inHand = some e then 1 else 0

theorem kept_config (e : ε) : kept e (config i st).2 = kept e st := by
  unfold config
  split <;> rfl

theorem hand_of_inHand {e₀ : ε} (h : pc.inHand = some e₀) (e : ε) : hand e pc = [e₀].count e := by
  unfold hand
  rw [h, List.count_singleton]
  simp

theorem hand_of_none (h : pc.inHand = none) (e : ε) : hand e pc = 0 := by
  unfold hand
  rw [h, if_neg nofun]

/-- A step leaves the event in the hand of its call, or puts it where it is kept. -/
def Balanced (st : FwdStore ε) (pc : FwdPc ε) (next : FwdStore ε × FwdPc ε) : Prop :=
  ∀ e, hand e next.2 + kept e next.1 = hand e pc + kept e st

theorem balanced_of_eq (hhand : next.2.inHand = pc.inHand)
    (hkept : ∀ e, kept e next.1 = kept e st) : Balanced st pc next := by
  intro e
  unfold hand
  rw [hhand, hkept]

theorem balanced_of_kept {e₀ : ε} (hpc : pc.inHand = some e₀) (hnext : next.2.inHand = none)
    (hkept : ∀ e, kept e next.1 = kept e st + [e₀].count e) : Balanced st pc next := by
  intro e
  rw [hand_of_inHand hpc, hand_of_none hnext, hkept]
  omega

theorem balanced_of_taken {e₀ : ε} (hpc : pc.inHand = none) (hnext : next.2.inHand = some e₀)
    (hkept : ∀ e, kept e st = kept e next.1 + [e₀].count e) : Balanced st pc next := by
  intro e
  rw [hand_of_inHand hnext, hand_of_none hpc, hkept]
  omega

theorem kept_log (r : Record ε) (e : ε) :
    kept e { st with log := st.log ++ [r] } = kept e st + r.undelivered.toList.count e := by
  unfold kept
  rw [undelivered_log, List.count_append]
  dsimp only
  omega

theorem kept_queue (st : FwdStore ε) (queue : List ε) (e : ε) :
    kept e { st with queue := queue } + st.queue.count e = kept e st + queue.count e := by
  unfold kept FwdStore.undelivered
  dsimp only
  omega

/-- A step that asks and is told that forwarding is off drops the event; every other step is
balanced. -/
theorem fwdAct_cases (h : fwdAct valid i st pc = some next) : next.2.passed = pc.passed ∧
    ((∃ e, pc.asking = some e ∧ pc.inHand = some e ∧ (config i st).1.usable = false ∧
      next.2.inHand = none ∧
        ∀ e, kept e next.1 = kept e st) ∨
      (¬ ∃ e, pc.asking = some e ∧ (config i st).1.usable = false) ∧ Balanced st pc next) := by
  revert h
  fun_cases fwdAct valid i st pc with
  | case1 e husable | case7 e n husable =>
    rintro ⟨⟩
    refine ⟨rfl, .inr ⟨fun ⟨_, _, hoff⟩ => ?_, balanced_of_eq rfl kept_config⟩⟩
    rw [husable] at hoff
    cases hoff
  | case2 e hoff | case8 e n hoff =>
    rintro ⟨⟩
    exact ⟨rfl, .inl ⟨e, rfl, rfl, Bool.eq_false_iff.mpr hoff, rfl, kept_config⟩⟩
  | case3 e =>
    rintro ⟨⟩
    refine ⟨rfl, .inr ⟨nofun, balanced_of_kept rfl rfl fun e' => ?_⟩⟩
    have hqueue := kept_queue st (st.queue ++ [e]) e'
    rw [List.count_append] at hqueue
    dsimp only
    omega
  | case6 e rest hqueue =>
    rintro ⟨⟩
    refine ⟨rfl, .inr ⟨nofun, balanced_of_taken rfl rfl fun e' => ?_⟩⟩
    have hkept := kept_queue st rest e'
    rw [hqueue, ← List.singleton_append, List.count_append] at hkept
    dsimp only
    omega
  | case9 cfg e n =>
    rintro ⟨⟩
    refine ⟨rfl, .inr ⟨nofun, balanced_of_kept rfl rfl fun e' => ?_⟩⟩
    unfold kept FwdStore.undelivered
    dsimp only
    rw [List.count_append]
    omega
  | case4 | case10 =>
    rintro ⟨⟩
    exact ⟨rfl, .inr ⟨nofun, balanced_of_kept rfl rfl (kept_log _)⟩⟩
  | case11 =>
    rintro ⟨⟩
    exact ⟨rfl, .inr ⟨nofun, balanced_of_eq rfl (kept_log _)⟩⟩
  | case15 =>
    rintro ⟨⟩
    refine ⟨rfl, .inr ⟨nofun, balanced_of_eq rfl fun e => ?_⟩⟩
    split <;> rfl
  | case5 | case16 | case17 => exact nofun
  | _ =>
    rintro ⟨⟩
    exact ⟨rfl, .inr ⟨nofun, balanced_of_eq rfl fun _ => rfl⟩⟩

theorem noneLost_iff : NoneLost s ↔
    ∀ e, passedOf e s = s.calls.countP (fun pc => decide (pc.inHand = some e)) + kept e
      s.store := by
  refine forall_congr' fun e => ?_
  unfold underWay kept
  omega

theorem noneLost_put (hs : NoneLost s) (hk : s.call k = some pc)
    (hpassed : next.2.passed = pc.passed) :
    NoneLost (s.put k next.1 next.2) ↔ Balanced s.store pc next := by
  rw [noneLost_iff] at hs ⊢
  refine forall_congr' fun e => ?_
  have hold := hs e
  have hcalls := Pool.countP_put (fun pc => decide (pc.passed = some e)) hk next.1 next.2
  have hhand := Pool.countP_put (fun pc => decide (pc.inHand = some e)) hk next.1 next.2
  simp only [hpassed, decide_eq_true_eq] at hcalls hhand
  unfold passedOf hand at *
  have hstore : (s.put k next.1 next.2).store = next.1 := rfl
  rw [hstore]
  omega

theorem not_blind_iff {m : FwdMove ε} (hs : NoneLost s) :
    ¬ Blind s m ↔ ∀ s', fwdStep valid s m = some s' → NoneLost s' := by
  cases m with
  | begin r =>
    refine iff_of_true not_false fun s' h => ?_
    cases h
    rw [noneLost_iff] at hs ⊢
    intro e
    have hold := hs e
    have hstore : (s.enter r.start).store = s.store := rfl
    unfold passedOf at hold ⊢
    rw [Pool.countP_enter, Pool.countP_enter, start_passed, hstore]
    omega
  | advance k i =>
    rw [fwdStep, forall_advance_iff]
    constructor
    · intro hblind pc next hk hact
      obtain ⟨hpassed, ⟨e, hask, -, hoff, -⟩ | ⟨-, hbalanced⟩⟩ := fwdAct_cases hact
      · exact absurd ⟨pc, e, hk, hask, hoff⟩ hblind
      · exact (noneLost_put hs hk hpassed).mpr hbalanced
    · rintro hall ⟨pc, e, hk, hask, hoff⟩
      obtain ⟨next, hact⟩ := exists_act_of_inHand (inHand_of_asking hask) valid i s.store
      obtain ⟨hpassed, ⟨e', -, hhand, -, hnext, hkept⟩ | ⟨hsees, -⟩⟩ := fwdAct_cases hact
      · have hbalance := (noneLost_put hs hk hpassed).mp (hall pc next hk hact) e'
        rw [hand_of_none hnext, hand_of_inHand hhand, hkept, List.count_singleton_self] at hbalance
        omega
      · exact hsees ⟨e, hask, hoff⟩

end

/-! ## Nothing stays under way

Every step of a call takes it nearer to its end, and while an event is under way there is a call
that can make one. -/

section

variable {ε : Type} {valid : Config → Bool} {i : FwdInput} {st : FwdStore ε} {pc : FwdPc ε}
  {next : FwdStore ε × FwdPc ε} {s s' : FwdPool ε} {k : ℕ}

/-- The steps that an event in the queue is good for. -/
def queued : ℕ := 2 * maxRetries + 1

/-- The steps that are left to a call, with those of the worker for its event. -/
def stepsLeft : FwdPc ε → ℕ
  | .forwarding _ => queued + 2
  | .enqueuing _ => queued + 1
  | .delivering _ n => 2 * (maxRetries - n.attempt) + 2
  | .sending _ _ n => 2 * (maxRetries - n.attempt) + 1
  | .saving _ => 2
  | .caching _ | .savingElsewhere _ => 1
  | .idle | .forwarded _ | .returned => 0

def work (s : FwdPool ε) : ℕ := (s.calls.map stepsLeft).sum + queued * s.store.queue.length

theorem queue_config : (config i st).2.queue = st.queue := by
  unfold config
  split <;> rfl

theorem stepsLeft_lt (h : fwdAct valid i st pc = some next) :
    stepsLeft next.2 + queued * next.1.queue.length < stepsLeft pc + queued * st.queue.length := by
  revert h
  fun_cases fwdAct valid i st pc with
  | case3 =>
    rintro ⟨⟩
    simp only [stepsLeft, List.length_append, List.length_singleton, Nat.mul_add]
    omega
  | case6 e rest hqueue =>
    rintro ⟨⟩
    simp only [hqueue, stepsLeft, List.length_cons, Nat.mul_add, queued, Try.first, maxRetries]
    omega
  | case11 cfg e n _ hlast =>
    rintro ⟨⟩
    have hle := n.le
    simp only [stepsLeft, Try.next]
    omega
  | case15 =>
    rintro ⟨⟩
    split <;> simp [stepsLeft]
  | case5 | case16 | case17 => exact nofun
  | _ =>
    rintro ⟨⟩
    simp [stepsLeft, queue_config]

theorem work_lt (h : fwdStep valid s (.advance k i) = some s') : work s' < work s := by
  rcases poolStep_cases h with ⟨r, hm, -⟩ | ⟨_, _, pc, st, pc', hm, hk, hact, rfl⟩
  · cases hm
  cases hm
  have hlt : stepsLeft pc' + queued * st.queue.length <
      stepsLeft pc + queued * s.store.queue.length := stepsLeft_lt hact
  have hsum := Pool.sum_put stepsLeft hk st pc'
  have hstore : (s.put k st pc').store = st := rfl
  unfold work
  rw [hstore]
  omega

def FwdPc.isWorker : FwdPc ε → Bool
  | .idle | .delivering _ _ | .sending _ _ _ => true
  | _ => false

def Working (s : FwdPool ε) : Prop := ∃ pc, s.call 0 = some pc ∧ pc.isWorker

theorem isWorker_of_act (h : fwdAct valid i st pc = some next) (hpc : pc.isWorker) :
    next.2.isWorker := by
  revert h
  fun_cases fwdAct valid i st pc with
  | case6 | case7 | case8 | case9 | case10 | case11 =>
    rintro ⟨⟩
    rfl
  | case5 => exact nofun
  | _ => cases hpc

theorem working_step {m : FwdMove ε} (hw : Working s) (h : fwdStep valid s m = some s') :
    Working s' := by
  obtain ⟨pc, hpc, hworker⟩ := hw
  rcases poolStep_cases h with ⟨r, rfl, rfl⟩ | ⟨k, i, q, st, q', rfl, hk, hact, rfl⟩
  · exact ⟨pc, Pool.call_enter_of_call hpc _, hworker⟩
  by_cases hzero : k = 0
  · subst hzero
    cases Option.some.inj (hpc.symm.trans hk)
    exact ⟨q', Pool.call_put_self hk st q', isWorker_of_act hact hworker⟩
  · exact ⟨pc, (Pool.call_put_of_ne s (Ne.symm hzero) st q').trans hpc, hworker⟩

theorem exists_advance [DecidableEq ε] {e : ε} (hw : Working s) (he : underWay e s ≠ 0) :
    ∃ k, ∀ i, (fwdStep valid s (.advance k i)).isSome := by
  -- a call that has an event in hand
  have hgoes : ∀ {k pc e}, s.call k = some pc → pc.inHand = some e →
      ∀ i, (fwdStep valid s (.advance k i)).isSome := by
    intro k pc e hk hhand i
    obtain ⟨next, hact⟩ := exists_act_of_inHand hhand valid i s.store
    simp [fwdStep, poolStep, hk, hact]
  by_cases hcalls : s.calls.countP (fun pc => decide (pc.inHand = some e)) = 0
  · obtain ⟨pc, hpc, hworker⟩ := hw
    have hqueue : e ∈ s.store.queue := by
      unfold underWay at he
      exact List.count_pos_iff.mp (by omega)
    obtain ⟨e', rest, hqueue⟩ := List.exists_cons_of_ne_nil (List.ne_nil_of_mem hqueue)
    cases pc with
    | idle => exact ⟨0, fun i => by simp [fwdStep, poolStep, hpc, fwdAct, hqueue]⟩
    | delivering e n | sending cfg e n => exact ⟨0, hgoes hpc rfl⟩
    | _ => cases hworker
  · obtain ⟨pc, hmem, hhand⟩ := List.countP_pos_iff.mp (Nat.pos_of_ne_zero hcalls)
    obtain ⟨k, hk⟩ := List.mem_iff_getElem?.mp hmem
    exact ⟨k, hgoes hk (of_decide_eq_true hhand)⟩

end

/-- **No event is lost silently** exactly in the runs in which no call is told that forwarding is
off: every event that was passed to `Forward` is under way, was sent, or is logged as not delivered.
And none stays under way: a call can go on, and every one of its steps is one step less to do. -/
theorem no_event_lost_iff {ε : Type} [DecidableEq ε] (valid : Config → Bool) (stored : Usable)
    (cached : Config) (cachedAt : Instant) (ms : List (FwdMove ε)) :
    (Throughout (fwdStep valid) NoneLost (fwdStart stored cached cachedAt) ms ↔
      Guarded (fwdStep valid) (fun s m => ¬ Blind s m) (fwdStart stored cached cachedAt) ms) ∧
    ∀ s, exec (fwdStep valid) (fwdStart stored cached cachedAt) ms = some s →
      (∀ e, underWay e s ≠ 0 → ∃ k, ∀ i, (fwdStep valid s (.advance k i)).isSome) ∧
      ∀ k i s', fwdStep valid s (.advance k i) = some s' → work s' < work s := by
  constructor
  · have hstart : NoneLost (fwdStart stored cached cachedAt : FwdPool ε) := fun e => rfl
    have hinv : ∀ {s : FwdPool ε} {m s'}, True → fwdStep valid s m = some s' → True :=
      fun _ _ => trivial
    exact throughout_iff_guarded hinv (fun _ hs => not_blind_iff hs) trivial hstart
  · intro s hs
    have hworking : Working s := exec_invariant_of_step working_step hs ⟨.idle, rfl, rfl⟩
    exact ⟨fun e he => exists_advance hworking he, fun k i s' => work_lt⟩

def syslogConfig : Config := ⟨true, "syslog", "siem.example:514"⟩

theorem usable_syslogConfig : syslogConfig.usable := by decide +kernel

def collector : Usable := ⟨syslogConfig, usable_syslogConfig⟩

/-- The cache has expired and the setting cannot be read. -/
def unreadable : FwdInput := ⟨60 * second, 61 * second, false, true⟩

/-- The cached configuration expires, the read of the stored one fails, and an event is neither
sent nor in the log. -/
theorem event_lost_silently :
    ∃ s, exec (fwdStep fun _ => true) (fwdStart collector collector.config 0)
        [.begin (.forward "auth.login"), .advance 1 unreadable] = some s ∧
      passedOf "auth.login" s = 1 ∧ underWay "auth.login" s = 0 ∧ s.store.sent = [] ∧
      s.store.log = [] ∧ ¬ NoneLost s := by
  refine ⟨_, rfl, rfl, rfl, rfl, rfl, fun hlost => ?_⟩
  exact absurd (hlost "auth.login") (by decide)

end Moorgate.Auditfwd
