import Moorgate.Framework.Base.Calls
import Moorgate.Store.Schedules

/-!
# The scheduler: `scheduler/engine.go`

Any number of engines tick while users create schedules, edit them, switch them on and off, and
change the time zone. A tick claims what is due in one statement, which moves it an hour ahead,
then fires one schedule after the other and stores when each runs next.

That time is computed from the row as it was claimed, and stored whatever the row is by then; the
same goes for the other writers that read first. Without a change in between, and when no writer
stores a time that has been claimed already, every due time is fired by one engine, and the table
ends as the users left it.
-/

namespace Moorgate.Scheduler

open Framework Models Store

inductive ScheduleRequest where
  | tick
  | create (f : ScheduleFields) (requester : String)
  | update (id : UUID) (f : ScheduleFields)
  | setEnabled (id : UUID) (enabled : Bool)
  | recompute

inductive SchedulePc where
  | called
  | ticking (now : ClockTime) (todo : List Claimed)
  | fired (now : ClockTime) (c : Claimed) (status : String) (ids : List UUID) (rest : List Claimed)
  | marking (now : ClockTime) (c : Claimed) (status : String) (ids : List UUID)
      (next : Option Instant) (rest : List Claimed)
  | creating (f : ScheduleFields) (requester : String) (next : Option Instant)
  | updating (id : UUID) (f : ScheduleFields) (next : Option Instant)
  | planning (enabled : Bool) (cur : Schedule)
  | enabling (enabled : Bool) (cur : Schedule) (next : Option Instant)
  | recomputing (todo : List Schedule)
  | rewriting (sc : Schedule) (next : Option Instant) (rest : List Schedule)
  | returned

/-- What a tick has claimed, which of it is not marked as fired yet, and what it has
fired. -/
structure ScheduleCall where
  request : ScheduleRequest
  pc : SchedulePc
  (claims unmarked fires : List Claimed)

/-- `ok = false` is an error of the database; `locked` are the rows that a claim
passes over; `status` and `runIDs` are what `Fire` returned. -/
structure ScheduleInput extends Reading where
  newID : UUID
  ok : Bool
  locked : List UUID
  status : String
  runIDs : List UUID

def nextIfEnabled (i : ScheduleInput) (enabled : Bool) (r : Recurrence) : Option (Option Instant) :=
  if enabled then scheduleNextRun i.toReading r else some none

def scheduleAct (i : ScheduleInput) (t : Schedules) (call : ScheduleCall) :
    Option (Schedules × ScheduleCall) :=
  match call.pc with
  | .called =>
    match call.request with
    | .tick =>
      if i.ok then
        let (due, t') := claimDueSchedules (column i.now) i.locked t
        some (t', { call with pc := .ticking i.now due, claims := due, unmarked := due })
      else some (t, { call with pc := .returned })
    | .create f requester =>
      (nextIfEnabled i f.enabled f.recurrence).map fun next =>
        (t, { call with pc := .creating f requester next })
    | .update id f =>
      (nextIfEnabled i f.enabled f.recurrence).map fun next =>
        (t, { call with pc := .updating id f next })
    | .setEnabled id enabled =>
      match (if i.ok then getSchedule id t else none) with
      | none => some (t, { call with pc := .returned })
      | some cur => some (t, { call with pc := .planning enabled cur })
    | .recompute =>
      some (t, { call with pc := if i.ok then .recomputing (listSchedules t) else .returned })
  | .ticking now todo =>
    match todo with
    | [] => some (t, { call with pc := .returned })
    | c :: rest =>
      some (t, { call with
        pc := .fired now c i.status i.runIDs rest, fires := call.fires ++ [c] })
  | .fired now c status ids rest =>
    (scheduleNextRun i.toReading c.schedule.recurrence).map fun next =>
      (t, { call with pc := .marking now c status ids next rest })
  | .marking now c status ids next rest =>
    if i.ok then
      some (markScheduleFired c.schedule.id (column now) status next ids t,
        { call with
          pc := .ticking now rest
          unmarked := call.unmarked.filter fun d => decide (d.schedule.id ≠ c.schedule.id) })
    else some (t, { call with pc := .ticking now rest })
  | .creating f requester next =>
    match (if i.ok then createSchedule i.newID f requester next t else none) with
    | none => some (t, { call with pc := .returned })
    | some t' => some (t', { call with pc := .returned })
  | .updating id f next =>
    some (if i.ok then updateSchedule id f next t else t, { call with pc := .returned })
  | .planning enabled cur =>
    (nextIfEnabled i enabled cur.recurrence).map fun next =>
      (t, { call with pc := .enabling enabled cur next })
  | .enabling enabled cur next =>
    some (if i.ok then setScheduleEnabled cur.id enabled next t else t,
      { call with pc := .returned })
  | .recomputing todo =>
    match todo with
    | [] => some (t, { call with pc := .returned })
    | sc :: rest =>
      if sc.enabled then
        (scheduleNextRun i.toReading sc.recurrence).map fun next =>
          (t, { call with pc := .rewriting sc next rest })
      else some (t, { call with pc := .recomputing rest })
  | .rewriting sc next rest =>
    if i.ok then some (setNextRun sc.id next t, { call with pc := .recomputing rest })
    else some (t, { call with pc := .returned })
  | .returned => none

abbrev SchedulePool := Pool Schedules ScheduleCall
abbrev ScheduleMove := Move ScheduleRequest ScheduleInput

def scheduleStep : SchedulePool → ScheduleMove → Option SchedulePool :=
  poolStep (fun q => ⟨q, .called, [], [], []⟩) scheduleAct

def noSchedules : SchedulePool := ⟨.empty, []⟩

/-! ## What is asked of a run -/

/-- The claim that a tick is about to make. -/
def ScheduleCall.claimsNext (call : ScheduleCall) : Bool :=
  match call.pc, call.request with
  | .called, .tick => true
  | _, _ => false

/-- Fires end within their lease: what an engine has claimed and not marked is not due
again when another one claims. -/
def WithinLease (s : SchedulePool) : ScheduleMove → Prop
  | .begin _ => True
  | .advance k i => ∀ call ∈ s.call k, call.claimsNext →
      ∀ q ∈ s.calls, ∀ c ∈ q.unmarked, ∀ n ∈ c.schedule.nextRunAt, column i.now < n

/-- The row whose next run the statement to come writes, and what it writes there. -/
def SchedulePc.writes : SchedulePc → Option (UUID × Option Instant)
  | .marking _ c _ _ next _ => some (c.schedule.id, next)
  | .updating id _ next => some (id, next)
  | .enabling _ cur next => some (cur.id, next)
  | .rewriting sc next _ => some (sc.id, next)
  | _ => none

/-- The row is as it was when the call read it, so far as its next run goes. -/
def SchedulePc.upToDate (r : Schedule) : SchedulePc → Prop
  | .marking _ c _ _ _ _ => r.enabled ∧ r.recurrence = c.schedule.recurrence
  | .enabling enabled cur _ => enabled → r.recurrence = cur.recurrence
  | .rewriting sc _ _ => r.enabled ∧ r.recurrence = sc.recurrence
  | _ => True

def Fresh (s : SchedulePool) (id : UUID) (next : Option Instant) : Prop :=
  ∀ n ∈ next, ∀ q ∈ s.calls, ∀ c ∈ q.claims, c.schedule.id = id → c.due < n

/-- A next run is stored in a row that was not changed since it was read, and it is a
time later than those that were claimed. -/
def Undisturbed (s : SchedulePool) : ScheduleMove → Prop
  | .begin _ => True
  | .advance k _ => ∀ call ∈ s.call k, ∀ w ∈ call.pc.writes,
      (∀ r ∈ s.store.rows, r.id = w.1 → call.pc.upToDate r) ∧ Fresh s w.1 w.2

instance (r : Schedule) (pc : SchedulePc) : Decidable (pc.upToDate r) := by
  unfold SchedulePc.upToDate
  split <;> infer_instance

instance (s : SchedulePool) (id : UUID) (next : Option Instant) : Decidable (Fresh s id next) :=
  inferInstanceAs (Decidable (∀ n ∈ next, ∀ q ∈ s.calls, ∀ c ∈ q.claims, _ → _))

instance (s : SchedulePool) (m : ScheduleMove) : Decidable (WithinLease s m) := by
  unfold WithinLease
  split <;> infer_instance

instance (s : SchedulePool) (m : ScheduleMove) : Decidable (Undisturbed s m) := by
  unfold Undisturbed
  split <;> infer_instance

/-- The next run was computed from the recurrence, at a reading that was made. -/
def Planned (R : Reading → Prop) (r : Recurrence) (next : Option Instant) : Prop :=
  ∃ i, R i ∧ scheduleNextRun i r = some next

/-- As the table has to be: the next run of what is enabled, none otherwise. -/
def PlannedIf (R : Reading → Prop) (enabled : Bool) (r : Recurrence)
    (next : Option Instant) : Prop :=
  if enabled then Planned R r next else next = none

/-- Schedules fire once per due time, and what users change is not lost. -/
structure FiredOnce (R : Reading → Prop) (s : SchedulePool) : Prop where
  planned : ∀ p ∈ s.calls, ∀ c ∈ p.claims, Planned R c.schedule.recurrence (some c.due)
  once : ∀ {j k p q}, s.call j = some p → s.call k = some q → ∀ c ∈ p.claims, ∀ d ∈ q.claims,
    c.schedule.id = d.schedule.id → c.due = d.due → j = k
  each : ∀ p ∈ s.calls, (p.claims.map fun c => c.schedule.id).Nodup
  fired : ∀ p ∈ s.calls, p.fires <+: p.claims ∧ (p.pc = .returned → p.fires = p.claims)
  kept : (∀ p ∈ s.calls, p.pc = .returned ∧ p.unmarked = []) →
    ∀ r ∈ s.store.rows, PlannedIf R r.enabled r.recurrence r.nextRunAt

/-! ## One statement -/

section

variable {R : Reading → Prop} {s : SchedulePool} {i : ScheduleInput} {t t' : Schedules}
  {call call' : ScheduleCall}

theorem planned_of_nextIfEnabled (hR : R i.toReading) {enabled : Bool} {r : Recurrence}
    {next : Option Instant} (h : nextIfEnabled i enabled r = some next) :
    PlannedIf R enabled r next := by
  cases enabled with
  | false =>
    cases h
    exact rfl
  | true => exact ⟨i.toReading, hR, h⟩

def SchedulePc.todo : SchedulePc → List Claimed
  | .ticking _ todo => todo
  | .fired _ _ _ _ rest | .marking _ _ _ _ _ rest => rest
  | _ => []

def SchedulePc.Fits (R : Reading → Prop) : SchedulePc → Prop
  | .marking _ c _ _ next _ => Planned R c.schedule.recurrence next
  | .creating f _ next | .updating _ f next => PlannedIf R f.enabled f.recurrence next
  | .enabling enabled cur next => PlannedIf R enabled cur.recurrence next
  | .rewriting sc next _ => Planned R sc.recurrence next
  | _ => True

structure ScheduleCall.Fits (R : Reading → Prop) (call : ScheduleCall) : Prop where
  pc : call.pc.Fits R
  progress : call.fires ++ call.pc.todo = call.claims
  fresh : call.pc = .called → call.claims = [] ∧ call.unmarked = []

/-- What one statement does. A write to a row leaves it as it has to be, if the row
was up to date. -/
inductive ScheduleEffect (R : Reading → Prop) (i : ScheduleInput) (t : Schedules)
    (call : ScheduleCall) : Schedules → ScheduleCall → Prop where
  | quiet {call' : ScheduleCall} (claims : call'.claims = call.claims)
      (unmarked : call'.unmarked = call.unmarked) : ScheduleEffect R i t call t call'
  | claim {call' : ScheduleCall} (next : call.claimsNext)
      (claims : call'.claims = (claimDueSchedules (column i.now) i.locked t).1)
      (unmarked : call'.unmarked = (claimDueSchedules (column i.now) i.locked t).1) :
      ScheduleEffect R i t call (claimDueSchedules (column i.now) i.locked t).2 call'
  | write {call' : ScheduleCall} (id : UUID) (next : Option Instant) (f : Schedule → Schedule)
      (hf : ∀ r, (f r).id = r.id) (writes : call.pc.writes = some (id, next))
      (stored : ∀ r, (f r).nextRunAt = next)
      (planned : ∀ r, call.pc.upToDate r → PlannedIf R (f r).enabled (f r).recurrence next)
      (claims : call'.claims = call.claims)
      (unmarked : ∀ c ∈ call.unmarked, c.schedule.id ≠ id → c ∈ call'.unmarked) :
      ScheduleEffect R i t call (updateWhereID id f hf t) call'
  | create {t' : Schedules} {call' : ScheduleCall} (row : Schedule)
      (insert : t.insert row = some t')
      (planned : PlannedIf R row.enabled row.recurrence row.nextRunAt)
      (claims : call'.claims = call.claims) (unmarked : call'.unmarked = call.unmarked) :
      ScheduleEffect R i t call t' call'

variable {q : ScheduleRequest} {claims unmarked fires : List Claimed}

theorem effect_of_pc {pc pc' : SchedulePc}
    (hfits : ScheduleCall.Fits R ⟨q, pc, claims, unmarked, fires⟩) (hpc : pc'.Fits R)
    (htodo : pc'.todo = pc.todo) (hcalled : pc' ≠ .called) :
    ScheduleEffect R i t ⟨q, pc, claims, unmarked, fires⟩ t ⟨q, pc', claims, unmarked, fires⟩ ∧
      ScheduleCall.Fits R ⟨q, pc', claims, unmarked, fires⟩ := by
  refine ⟨.quiet rfl rfl, hpc, ?_, fun h => absurd h hcalled⟩
  have hprogress := hfits.progress
  rwa [htodo]

theorem scheduleAct_effect (hR : R i.toReading) (hfits : call.Fits R)
    (h : scheduleAct i t call = some (t', call')) :
    ScheduleEffect R i t call t' call' ∧ call'.Fits R := by
  obtain ⟨q, pc, claims, unmarked, fires⟩ := call
  revert h
  fun_cases scheduleAct i t ⟨q, pc, claims, unmarked, fires⟩ with
  | case1 hpc hrequest _ due t₁ hclaim =>
    cases hpc
    cases hrequest
    rintro ⟨⟩
    obtain ⟨rfl, rfl⟩ := Prod.mk.inj hclaim
    obtain ⟨rfl, -⟩ := hfits.fresh rfl
    obtain ⟨rfl, -⟩ := List.append_eq_nil_iff.mp hfits.progress
    exact ⟨.claim rfl rfl rfl, trivial, rfl, nofun⟩
  | case3 hpc | case4 hpc | case16 _ _ hpc =>
    cases hpc
    intro h
    obtain ⟨next, hnext, ⟨⟩⟩ := Option.map_eq_some_iff.mp h
    exact effect_of_pc hfits (planned_of_nextIfEnabled hR hnext) rfl nofun
  | case7 hpc =>
    cases hpc
    rintro ⟨⟩
    split <;> exact effect_of_pc hfits trivial rfl nofun
  | case9 now c rest hpc =>
    cases hpc
    rintro ⟨⟩
    exact ⟨.quiet rfl rfl, trivial, (List.append_assoc fires [c] rest).trans hfits.progress, nofun⟩
  | case10 _ _ _ _ _ hpc | case19 _ _ _ hpc =>
    cases hpc
    intro h
    obtain ⟨next, hnext, ⟨⟩⟩ := Option.map_eq_some_iff.mp h
    exact effect_of_pc hfits ⟨i.toReading, hR, hnext⟩ rfl nofun
  | case11 now c status ids next rest hpc =>
    cases hpc
    rintro ⟨⟩
    refine ⟨.write c.schedule.id next _ _ rfl (fun _ => rfl) ?_ rfl ?_, trivial,
      hfits.progress, nofun⟩
    · rintro r ⟨henabled, hrec⟩
      show PlannedIf R r.enabled r.recurrence next
      rw [henabled, hrec]
      exact hfits.pc
    · intro d hd hne
      exact List.mem_filter.mpr ⟨hd, decide_eq_true hne⟩
  | case14 f requester next hpc t₁ hins =>
    cases hpc
    rintro ⟨⟩
    rw [Option.ite_none_right_eq_some] at hins
    exact ⟨.create _ hins.2 hfits.pc rfl rfl, trivial, hfits.progress, nofun⟩
  | case15 id f next hpc =>
    cases hpc
    rintro ⟨⟩
    split
    · exact ⟨.write id next _ _ rfl (fun _ => rfl) (fun _ _ => hfits.pc) rfl (fun _ hd _ => hd),
        trivial, hfits.progress, nofun⟩
    · exact effect_of_pc hfits trivial rfl nofun
  | case17 enabled cur next hpc =>
    cases hpc
    rintro ⟨⟩
    split
    · refine ⟨.write cur.id next _ _ rfl (fun _ => rfl) ?_ rfl (fun _ hd _ => hd), trivial,
        hfits.progress, nofun⟩
      intro r hr
      show PlannedIf R enabled r.recurrence next
      cases enabled with
      | false => exact hfits.pc
      | true =>
        rw [hr rfl]
        exact hfits.pc
    · exact effect_of_pc hfits trivial rfl nofun
  | case21 sc next rest hpc =>
    cases hpc
    rintro ⟨⟩
    refine ⟨.write sc.id next _ _ rfl (fun _ => rfl) ?_ rfl (fun _ hd _ => hd), trivial,
      hfits.progress, nofun⟩
    rintro r ⟨henabled, hrec⟩
    show PlannedIf R r.enabled r.recurrence next
    rw [henabled, hrec]
    exact hfits.pc
  | case23 => rintro ⟨⟩
  -- the others write nothing, and hold what they held
  | _ =>
    cases ‹pc = _›
    rintro ⟨⟩
    exact effect_of_pc hfits trivial rfl nofun

end

/-! ## Runs -/

/-- The row stands at the lease of a claim that is not marked yet. -/
def Leased (s : SchedulePool) (r : Schedule) : Prop :=
  ∃ p ∈ s.calls, ∃ c ∈ p.unmarked, c.schedule.id = r.id ∧ c.schedule.nextRunAt = r.nextRunAt

structure ScheduleInv (R : Reading → Prop) (s : SchedulePool) : Prop where
  rows : ∀ r ∈ s.store.rows, PlannedIf R r.enabled r.recurrence r.nextRunAt ∨ Leased s r
  fits : ∀ p ∈ s.calls, p.Fits R
  behind : ∀ p ∈ s.calls, ∀ c ∈ p.claims, ∃ r ∈ s.store.rows, r.id = c.schedule.id ∧
    ∀ n ∈ r.nextRunAt, c.due < n
  planned : ∀ p ∈ s.calls, ∀ c ∈ p.claims, Planned R c.schedule.recurrence (some c.due)
  each : ∀ p ∈ s.calls, (p.claims.map fun c => c.schedule.id).Nodup
  once : ∀ {j k p q}, j ≠ k → s.call j = some p → s.call k = some q →
    ∀ c ∈ p.claims, ∀ d ∈ q.claims, c.schedule.id = d.schedule.id → c.due ≠ d.due

/-- Each step is guarded, and its reading is one of the readings. -/
def Watched (R : Reading → Prop) (s : SchedulePool) (m : ScheduleMove) : Prop :=
  (WithinLease s m ∧ Undisturbed s m) ∧ ∀ k i, m = .advance k i → R i.toReading

section

variable {R : Reading → Prop} {s s' : SchedulePool} {m : ScheduleMove}
  {ms : List ScheduleMove} {k : ℕ} {i : ScheduleInput} {t' : Schedules} {call call' : ScheduleCall}

theorem Leased.put {r : Schedule} (h : Leased s r) (hk : s.call k = some call)
    (hkeep : ∀ c ∈ call.unmarked, c.schedule.id = r.id → c ∈ call'.unmarked) :
    Leased (s.put k t' call') r := by
  obtain ⟨p, hp, c, hc, hid, hnext⟩ := h
  rcases Pool.mem_put_of_mem hk hp t' call' with rfl | hmem
  · refine ⟨call', List.mem_of_getElem? (Pool.call_put_self hk t' call'), c, hkeep c hc hid,
      hid, hnext⟩
  · exact ⟨p, hmem, c, hc, hid, hnext⟩

theorem distinct_symm {p q : ScheduleCall}
    (h : ∀ c ∈ p.claims, ∀ d ∈ q.claims, c.schedule.id = d.schedule.id → c.due ≠ d.due) :
    ∀ c ∈ q.claims, ∀ d ∈ p.claims, c.schedule.id = d.schedule.id → c.due ≠ d.due :=
  fun c hc d hd hid => (h d hd c hc hid.symm).symm

theorem scheduleInv_enter (hi : ScheduleInv R s) (q : ScheduleRequest) :
    ScheduleInv R (s.enter ⟨q, .called, [], [], []⟩) where
  rows r hr := by
    refine (hi.rows r hr).imp_right ?_
    rintro ⟨p, hp, hleased⟩
    exact ⟨p, List.mem_append_left _ hp, hleased⟩
  fits := Pool.forall_enter hi.fits ⟨trivial, rfl, fun _ => ⟨rfl, rfl⟩⟩
  behind := Pool.forall_enter hi.behind fun _ hc => absurd hc List.not_mem_nil
  planned := Pool.forall_enter hi.planned fun _ hc => absurd hc List.not_mem_nil
  each := Pool.forall_enter hi.each List.nodup_nil
  once := Pool.pair_enter distinct_symm hi.once fun _ _ _ hc => absurd hc List.not_mem_nil

variable {now : Instant} {locked : List UUID}

/-- A due time that is claimed was planned: it is no lease, as those that are out are
not due. -/
theorem planned_of_claimed (hi : ScheduleInv R s)
    (hlease : ∀ q ∈ s.calls, ∀ c ∈ q.unmarked, ∀ n ∈ c.schedule.nextRunAt, now < n) {c : Claimed}
    (hc : c ∈ (claimDueSchedules now locked s.store).1) :
    Planned R c.schedule.recurrence (some c.due) := by
  obtain ⟨r, hr, henabled, hnext, hle, hschedule, -⟩ := mem_claimDueSchedules hc
  have hrec : c.schedule.recurrence = r.recurrence := by rw [hschedule]; rfl
  rcases hi.rows r hr with hplanned | ⟨q, hq, d, hd, -, hsame⟩
  · rw [henabled, hnext] at hplanned
    rw [hrec]
    exact hplanned
  · rw [hnext] at hsame
    have hlt := hlease q hq d hd c.due hsame
    exact absurd hle (not_le.mpr hlt)

theorem lt_lease (now : Instant) : now < now + scheduleClaimLease :=
  Int.lt_add_of_pos_right now (by decide)

theorem behind_claim (hi : ScheduleInv R s) {p : ScheduleCall} (hp : p ∈ s.calls) {c : Claimed}
    (hc : c ∈ p.claims) :
    ∃ r ∈ (claimDueSchedules now locked s.store).2.rows, r.id = c.schedule.id ∧
    ∀ n ∈ r.nextRunAt, c.due < n := by
  obtain ⟨r, hr, hid, hlater⟩ := hi.behind p hp c hc
  obtain ⟨r', hr', hid', rfl | ⟨rfl, hdue⟩⟩ := exists_mem_claimDueSchedules now locked hr
  · exact ⟨_, hr', hid, hlater⟩
  refine ⟨_, hr', hid, ?_⟩
  rintro n hn
  cases hn
  obtain ⟨-, next, hnext, hle⟩ := schedule_due_iff.mp hdue
  exact (hlater next hnext).trans_le hle |>.trans (lt_lease now)

section

variable (hi : ScheduleInv R s) (hk : s.call k = some call) (hfits : call'.Fits R)

include hi hk hfits

theorem scheduleInv_claim
    (hnone : call.unmarked = [])
    (hlease : ∀ q ∈ s.calls, ∀ c ∈ q.unmarked, ∀ n ∈ c.schedule.nextRunAt, now < n)
    (hclaims : call'.claims = (claimDueSchedules now locked s.store).1)
    (hunmarked : call'.unmarked = (claimDueSchedules now locked s.store).1) :
    ScheduleInv R (s.put k (claimDueSchedules now locked s.store).2 call') := by
  constructor
  · intro r' hr'
    rcases mem_claimDueSchedules_snd hr' with hold | ⟨c, hc, rfl⟩
    · refine (hi.rows r' hold).imp_right fun hleased => hleased.put hk ?_
      rw [hnone]
      exact fun c hc _ => absurd hc List.not_mem_nil
    · refine .inr ⟨call', List.mem_of_getElem? (Pool.call_put_self hk _ call'), c, ?_, rfl, rfl⟩
      rwa [hunmarked]
  · exact Pool.forall_put hi.fits hfits
  · refine Pool.forall_put (fun p hp c hc => behind_claim hi hp hc) ?_
    rw [hclaims]
    intro c hc
    obtain ⟨r, -, -, -, hle, hschedule, hmem⟩ := mem_claimDueSchedules hc
    refine ⟨c.schedule, hmem, rfl, ?_⟩
    rw [hschedule]
    rintro n hn
    cases hn
    exact hle.trans_lt (lt_lease now)
  · refine Pool.forall_put hi.planned ?_
    rw [hclaims]
    exact fun c hc => planned_of_claimed hi hlease hc
  · refine Pool.forall_put hi.each ?_
    rw [hclaims]
    exact nodup_claimDueSchedules
  · refine Pool.pair_put distinct_symm hi.once ?_
    intro j q hne hq
    rw [hclaims]
    intro c hc d hd hid
    obtain ⟨r, hr, -, hnext, -, hschedule, -⟩ := mem_claimDueSchedules hc
    obtain ⟨r₀, hr₀, hid₀, hlater⟩ := hi.behind q (Pool.mem_of_call hq) d hd
    have hrid : r.id = c.schedule.id := by rw [hschedule]; rfl
    rw [Table.eq_of_key hr₀ hr (hid₀.trans (hid.symm.trans hrid.symm))] at hlater
    exact (hlater c.due hnext).ne'

variable (hclaims : call'.claims = call.claims)

include hclaims

/-- A step after which all claims are as they were, and every row is planned or
leased and later than what was claimed of it. -/
theorem scheduleInv_put
    (hrows : ∀ r ∈ t'.rows, PlannedIf R r.enabled r.recurrence r.nextRunAt ∨
      Leased (s.put k t' call') r)
    (hbehind : ∀ p ∈ s.calls, ∀ c ∈ p.claims, ∃ r ∈ t'.rows, r.id = c.schedule.id ∧
      ∀ n ∈ r.nextRunAt, c.due < n) :
    ScheduleInv R (s.put k t' call') := by
  have hmem := Pool.mem_of_call hk
  constructor
  · exact hrows
  · exact Pool.forall_put hi.fits hfits
  · refine Pool.forall_put hbehind ?_
    rw [hclaims]
    exact hbehind call hmem
  · refine Pool.forall_put hi.planned ?_
    rw [hclaims]
    exact hi.planned call hmem
  · refine Pool.forall_put hi.each ?_
    rw [hclaims]
    exact hi.each call hmem
  · refine Pool.pair_put distinct_symm hi.once ?_
    intro d q hne hq
    rw [hclaims]
    exact hi.once (Ne.symm hne) hk hq

theorem scheduleInv_quiet (hunmarked : call'.unmarked = call.unmarked) :
    ScheduleInv R (s.put k s.store call') := by
  refine scheduleInv_put hi hk hfits hclaims ?_ hi.behind
  intro r hr
  refine (hi.rows r hr).imp_right fun hleased => hleased.put hk ?_
  rw [hunmarked]
  exact fun c hc _ => hc

theorem scheduleInv_create {row : Schedule} (hins : s.store.insert row = some t')
    (hplanned : PlannedIf R row.enabled row.recurrence row.nextRunAt)
    (hunmarked : call'.unmarked = call.unmarked) : ScheduleInv R (s.put k t' call') := by
  refine scheduleInv_put hi hk hfits hclaims ?_ ?_
  · intro r hr
    rcases (Table.mem_insert hins).mp hr with hold | rfl
    · refine (hi.rows r hold).imp_right fun hleased => hleased.put hk ?_
      rw [hunmarked]
      exact fun c hc _ => hc
    · exact .inl hplanned
  · intro p hp c hc
    obtain ⟨r, hr, hid, hlater⟩ := hi.behind p hp c hc
    exact ⟨r, (Table.mem_insert hins).mpr (.inl hr), hid, hlater⟩

theorem scheduleInv_write {id : UUID} {next : Option Instant} {f : Schedule → Schedule}
    {hf : ∀ r, (f r).id = r.id} (hstored : ∀ r, (f r).nextRunAt = next)
    (hplanned : ∀ r ∈ s.store.rows, r.id = id → PlannedIf R (f r).enabled (f r).recurrence next)
    (hfresh : Fresh s id next)
    (hunmarked : ∀ c ∈ call.unmarked, c.schedule.id ≠ id → c ∈ call'.unmarked) :
    ScheduleInv R (s.put k (updateWhereID id f hf s.store) call') := by
  refine scheduleInv_put hi hk hfits hclaims ?_ ?_
  · intro r' hr'
    rcases mem_updateWhereID hr' with ⟨hold, hne⟩ | ⟨r, hr, hid, rfl⟩
    · refine (hi.rows r' hold).imp_right fun hleased => hleased.put hk ?_
      intro c hc hid
      exact hunmarked c hc (hid ▸ hne)
    · left
      rw [hstored]
      exact hplanned r hr hid
  · intro p hp c hc
    obtain ⟨r, hr, hid, hlater⟩ := hi.behind p hp c hc
    by_cases hrow : r.id = id
    · refine ⟨f r, mem_updateWhereID_of_eq hr hrow, (hf r).trans hid, ?_⟩
      rw [hstored]
      intro n hn
      exact hfresh n hn p hp c hc (hid.symm.trans hrow)
    · exact ⟨r, mem_updateWhereID_of_ne hr hrow, hid, hlater⟩

end

theorem scheduleInv_step (hi : ScheduleInv R s) (hw : Watched R s m)
    (h : scheduleStep s m = some s') : ScheduleInv R s' := by
  rcases poolStep_cases h with ⟨q, rfl, rfl⟩ | ⟨k, i, call, t', call', rfl, hk, hact, rfl⟩
  · exact scheduleInv_enter hi q
  obtain ⟨⟨hlease, hcalm⟩, hR⟩ := hw
  have hfits := hi.fits call (Pool.mem_of_call hk)
  obtain ⟨heffect, hfits'⟩ := scheduleAct_effect (hR k i rfl) hfits hact
  cases heffect with
  | quiet claims unmarked => exact scheduleInv_quiet hi hk hfits' claims unmarked
  | claim next claims unmarked =>
    have hcalled : call.pc = .called := by
      unfold ScheduleCall.claimsNext at next
      split at next
      · assumption
      · cases next
    exact scheduleInv_claim hi hk hfits' (hfits.fresh hcalled).2 (hlease call hk next)
      claims unmarked
  | write id next f hf writes stored planned claims unmarked =>
    obtain ⟨hupToDate, hfresh⟩ := hcalm call hk (id, next) writes
    exact scheduleInv_write hi hk hfits' claims stored
      (fun r hr hid => planned r (hupToDate r hr hid)) hfresh unmarked
  | create row insert planned claims unmarked =>
    exact scheduleInv_create hi hk hfits' claims insert planned unmarked

theorem scheduleInv_noSchedules : ScheduleInv R noSchedules where
  rows _ h := absurd h Table.not_mem_empty
  fits _ h := absurd h List.not_mem_nil
  behind _ h := absurd h List.not_mem_nil
  planned _ h := absurd h List.not_mem_nil
  each _ h := absurd h List.not_mem_nil
  once _ hp := absurd (Pool.mem_of_call hp) List.not_mem_nil

theorem firedOnce_of_inv (hi : ScheduleInv R s) : FiredOnce R s := by
  constructor
  · exact hi.planned
  · intro j k p q hp hq c hc d hd hid hdue
    by_contra hne
    exact hi.once hne hp hq c hc d hd hid hdue
  · exact hi.each
  · intro p hp
    have hprogress := (hi.fits p hp).progress
    refine ⟨⟨_, hprogress⟩, fun hreturned => ?_⟩
    rw [hreturned] at hprogress
    exact (List.append_nil _).symm.trans hprogress
  · intro hall r hr
    rcases hi.rows r hr with hplanned | ⟨p, hp, c, hc, -⟩
    · exact hplanned
    · rw [(hall p hp).2] at hc
      exact absurd hc List.not_mem_nil

end

def ReadIn (ms : List ScheduleMove) (i : Reading) : Prop :=
  ∃ k j, Move.advance k j ∈ ms ∧ ScheduleInput.toReading j = i

/-- In every run in which fires end within their lease and no next run is stored in a
row that has changed, nor a time that was claimed already, schedules fire once per due
time and no change is lost. -/
theorem schedules_fire_once {ms : List ScheduleMove} {s : SchedulePool}
    (h : exec scheduleStep noSchedules ms = some s)
    (hlease : Guarded scheduleStep WithinLease noSchedules ms)
    (hcalm : Guarded scheduleStep Undisturbed noSchedules ms) : FiredOnce (ReadIn ms) s := by
  have hread : Guarded scheduleStep (fun _ m => ∀ k i, m = .advance k i → ReadIn ms i.toReading)
      noSchedules ms :=
    guarded_of_forall_mem fun m hm k i hmove => ⟨k, i, hmove ▸ hm, rfl⟩
  exact firedOnce_of_inv
    (exec_invariant scheduleInv_step ((hlease.and hcalm).and hread) h scheduleInv_noSchedules)

def everyMinutes (n : ℤ) : Recurrence := ⟨.interval, n, "", 0⟩

def scanEvery (minutes : ℤ) : ScheduleFields :=
  ⟨"scan", "scan", true, "host", some (.ofNat 9), "web", everyMinutes minutes, ""⟩

def scheduleMove (k : ℕ) (seconds : ℤ) : ScheduleMove :=
  .advance k ⟨⟨nanos seconds, ⟨fun _ => 0⟩, 0⟩, .ofNat 10, true, [], "started", []⟩

def hourlyFired : List ScheduleMove :=
  [.begin (.create (scanEvery 60) "admin"), scheduleMove 0 0, scheduleMove 0 0, .begin .tick,
    scheduleMove 1 3600, scheduleMove 1 3600]

def marked : List ScheduleMove := [scheduleMove 1 3602, scheduleMove 1 3602, scheduleMove 1 3602]

/-- Another engine ticks while the first one fires, and then again when the scan has
become due by an edit after the fire. -/
def editedAfterFire : List ScheduleMove :=
  hourlyFired ++ [.begin .tick, scheduleMove 2 3601, scheduleMove 2 3601] ++ marked ++
    [.begin (.update (.ofNat 10) (scanEvery 10)), scheduleMove 3 3700, scheduleMove 3 3700,
    .begin .tick,
      scheduleMove 4 4300, scheduleMove 4 4300, scheduleMove 4 4301, scheduleMove 4 4301,
      scheduleMove 4 4301]

theorem schedules_fire_once_editedAfterFire :
    ∃ s, exec scheduleStep noSchedules editedAfterFire = some s ∧
      s.calls.map (fun p => p.fires.map Claimed.due) = [[], [3600 * second], [], [],
        [4300 * second]] ∧
      FiredOnce (ReadIn editedAfterFire) s := by
  exact exists_of_view (fun s => s.calls.map fun p => p.fires.map Claimed.due) _ (by decide +kernel)
    fun s hs hfires => ⟨hfires, schedules_fire_once hs (by decide +kernel) (by decide +kernel)⟩

def editedDuringFire : List ScheduleMove :=
  hourlyFired ++ [.begin (.update (.ofNat 10) (scanEvery 10)), scheduleMove 2 3601,
    scheduleMove 2 3601] ++ marked

def disabledDuringFire : List ScheduleMove :=
  hourlyFired ++ [.begin (.setEnabled (.ofNat 10) false), scheduleMove 2 3601, scheduleMove 2 3601,
    scheduleMove 2 3601] ++ marked

/-- Whether all calls are done, and what the rows say. -/
def scheduleView (s : SchedulePool) : Bool × List (Bool × Recurrence × Option Instant) :=
  (s.calls.all fun p => (p.pc matches .returned) && p.unmarked.isEmpty,
    s.store.rows.map fun r => (r.enabled, r.recurrence, r.nextRunAt))

theorem not_firedOnce_of_view {R : Reading → Prop} {s : SchedulePool} {enabled : Bool}
    {r : Recurrence} {next : Option Instant} (hview : scheduleView s = (true, [(enabled, r, next)]))
    (hnot : ¬ PlannedIf R enabled r next) : ¬ FiredOnce R s := by
  intro hfired
  obtain ⟨hdone, hrows⟩ := Prod.mk.inj hview
  obtain ⟨row, hstore, hrow⟩ := List.map_eq_singleton_iff.mp hrows
  have hreturned : ∀ p ∈ s.calls, p.pc = .returned ∧ p.unmarked = [] := by
    intro p hp
    obtain ⟨hpc, hempty⟩ := Bool.and_eq_true_iff.mp (List.all_eq_true.mp hdone p hp)
    refine ⟨?_, List.isEmpty_iff.mp hempty⟩
    split at hpc
    · assumption
    · cases hpc
  have hkept := hfired.kept hreturned row (by rw [hstore]; exact List.mem_singleton_self row)
  cases hrow
  exact hnot hkept

/-- Every fire ends within its lease and every call returns, but after the edit there
is the next run of the old recurrence, and what was switched off has a next run. -/
theorem changes_lost_during_fire : (Guarded scheduleStep WithinLease noSchedules editedDuringFire ∧
      ∃ s, exec scheduleStep noSchedules editedDuringFire = some s ∧
        scheduleView s = (true, [(true, everyMinutes 10, some (7202 * second))]) ∧
        ¬ FiredOnce (ReadIn editedDuringFire) s) ∧
          (Guarded scheduleStep WithinLease noSchedules disabledDuringFire ∧
      ∃ s, exec scheduleStep noSchedules disabledDuringFire = some s ∧
        scheduleView s = (true, [(false, everyMinutes 60, some (7202 * second))]) ∧
        ¬ FiredOnce (ReadIn disabledDuringFire) s) := by
  refine ⟨⟨by decide +kernel, ?_⟩, ⟨by decide +kernel, ?_⟩⟩
  · refine exists_of_view scheduleView _ (by decide +kernel) fun s _ hview =>
      ⟨hview, not_firedOnce_of_view hview ?_⟩
    rintro ⟨i, ⟨k, j, hmem, rfl⟩, hnext⟩
    have hnone : ∀ m ∈ editedDuringFire, (match m with
        | .begin _ => true
        | .advance _ j => decide (scheduleNextRun (ScheduleInput.toReading j) (everyMinutes 10) ≠
            some (some (7202 * second)))) = true := by
      decide +kernel
    exact of_decide_eq_true (hnone _ hmem) hnext
  · refine exists_of_view scheduleView _ (by decide +kernel) fun s _ hview =>
      ⟨hview, not_firedOnce_of_view hview ?_⟩
    intro hnone
    cases hnone

end Moorgate.Scheduler
