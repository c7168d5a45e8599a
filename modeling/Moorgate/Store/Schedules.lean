import Moorgate.Framework.Base.Table
import Moorgate.Framework.Base.Text
import Moorgate.Models.Ids

/-!
# Schedules: `store/schedules.go`

When a schedule runs next, and the statements on the table. `NextRun` computes in
nanoseconds, as `time.Time` does; a column of the table holds microseconds. A
location is what its offset from UTC is at every second.
-/

namespace Moorgate.Store

open Framework Models

inductive RecurrenceType where
  | interval | daily | weekly
  | other (name : String)
deriving DecidableEq

structure Recurrence where
  type : RecurrenceType
  everyMinutes : ℤ
  timeOfDay : String
  weekday : ℤ
deriving DecidableEq

/-! ## `NextRun` -/

/-- Nanoseconds since 1970-01-01T00:00:00Z. -/
abbrev ClockTime := ℤ

def nanos (seconds : ℤ) : ClockTime := seconds * 1000000000

/-- `time.Time{}`, the first of January of the year 1. -/
def zeroTime : ClockTime := nanos (-62135596800)

/-- What a `timestamptz` column holds of it. -/
def column (t : ClockTime) : Instant := t / 1000

/-- Seconds east of UTC, at a second since 1970-01-01T00:00:00Z. -/
structure Location where
  offset : ℤ → ℤ

namespace Location

variable (loc : Location)

/-- `time.Date`, of a reading of the clock on the wall as if it were UTC. The offset
is looked up at the reading, and again where that offset leads. -/
def date (wall : ℤ) : ℤ :=
  let offset := loc.offset wall
  if offset = 0 then wall else wall - loc.offset (wall - offset)

def day (seconds : ℤ) : ℤ := (seconds + loc.offset seconds) / 86400

/-- `t.Weekday()`; the first of January 1970 was a Thursday. -/
def weekday (seconds : ℤ) : ℤ := (loc.day seconds + 4) % 7

end Location

/-- White space before a number; a newline there is an error. -/
def skipSpace : List Char → Option (List Char)
  | [] => some []
  | c :: l => if c = '\n' then none else if isSpace c then skipSpace l else some (c :: l)

def digitsValue (digits : List Char) : ℤ :=
  digits.foldl (fun n c => 10 * n + ((c.toNat : ℤ) - 48)) 0

/-- The verb `%d` of `fmt.Sscanf`, for an `int`. -/
def scanInt (l : List Char) : Option (ℤ × List Char) :=
  (skipSpace l).bind fun l =>
    let (negative, l) := match l with
      | '-' :: l => (true, l)
      | '+' :: l | l => (false, l)
    let digits := l.takeWhile Char.isDigit
    let value := if negative then - digitsValue digits else digitsValue digits
    if digits = [] ∨ value < -2 ^ 63 ∨ 2 ^ 63 ≤ value then none
      else some (value, l.dropWhile Char.isDigit)

/-- `fmt.Sscanf(s, "%d:%d", &h, &m)`, whose error is dropped: what was not scanned
stays zero. -/
def scanHM (s : String) : ℤ × ℤ :=
  match scanInt s.toList with
  | none => (0, 0)
  | some (h, ':' :: rest) =>
    match scanInt rest with
    | none => (h, 0)
    | some (m, _) => (h, m)
  | some (h, _) => (h, 0)

def parseHM (s : String) : ℤ × ℤ :=
  let (h, m) := scanHM s
  (if h < 0 ∨ 23 < h then 0 else h, if m < 0 ∨ 59 < m then 0 else m)

example : parseHM "02:30" = (2, 30) ∧ parseHM " 7" = (7, 0) ∧
    parseHM "25:10" = (0, 10) := by decide +kernel

/-- The loop of a weekly recurrence, over seconds; `none` when it has not ended after
the given number of rounds. It never does for a weekday that there is not. -/
def nextWeekly (loc : Location) (weekday : ℤ) (src : ClockTime) : ℕ → ℤ → Option ℤ
  | 0, _ => none
  | n + 1, next =>
    if loc.weekday next ≠ weekday ∨
      ¬ src < nanos next then nextWeekly loc weekday src n (next + 86400)
    else some next

/-- `NextRun` after the time `src`. The minutes of an interval are multiplied in an
`int64`. -/
def nextRun (rounds : ℕ) (loc : Location) (r : Recurrence) (src : ClockTime) : Option ClockTime :=
  match r.type with
  | .interval =>
    let mins := if r.everyMinutes < 1 then 60 else r.everyMinutes
    some (src + (mins * nanos 60).bmod (2 ^ 64))
  | .daily =>
    let (h, m) := parseHM r.timeOfDay
    let next := loc.date (loc.day (src / nanos 1) * 86400 + h * 3600 + m * 60)
    some (nanos (if src < nanos next then next else next + 86400))
  | .weekly =>
    let (h, m) := parseHM r.timeOfDay
    let next := loc.date (loc.day (src / nanos 1) * 86400 + h * 3600 + m * 60)
    (nextWeekly loc r.weekday src rounds next).map nanos
  | .other _ => some zeroTime

/-- What `ScheduleNextRun` reads: the clock, and the location that is configured. -/
structure Reading where
  now : ClockTime
  loc : Location
  rounds : ℕ

/-- `ScheduleNextRun`, as its callers store it: no time for the zero time. -/
def scheduleNextRun (i : Reading) (r : Recurrence) : Option (Option Instant) :=
  (nextRun i.rounds i.loc r i.now).map fun next => if next = zeroTime then none
    else some (column next)

/-! ## The table -/

structure Schedule where
  id : UUID
  (name kind : String)
  enabled : Bool
  targetKind : String
  targetId : Option UUID
  targetName : String
  recurrence : Recurrence
  (payload requester : String)
  lastRunAt : Option Instant
  lastStatus : String
  nextRunAt : Option Instant
  lastRunIds : List UUID
deriving DecidableEq

abbrev Schedules := Table Schedule.id

/-- The fields that a user edits. -/
structure ScheduleFields where
  (name kind : String)
  enabled : Bool
  targetKind : String
  targetId : Option UUID
  targetName : String
  recurrence : Recurrence
  payload : String

def payloadOrEmpty (payload : String) : String := if payload = "" then emptyObject else payload

def ScheduleFields.row (f : ScheduleFields) (id : UUID) (requester : String)
    (next : Option Instant) : Schedule where
  id
  name := f.name
  kind := f.kind
  enabled := f.enabled
  targetKind := f.targetKind
  targetId := f.targetId
  targetName := f.targetName
  recurrence := f.recurrence
  payload := payloadOrEmpty f.payload
  requester
  lastRunAt := none
  lastStatus := ""
  nextRunAt := next
  lastRunIds := []

def createSchedule (id : UUID) (f : ScheduleFields) (requester : String) (next : Option Instant)
    (t : Schedules) : Option Schedules :=
  t.insert (f.row id requester next)

def updateWhereID (id : UUID) (f : Schedule → Schedule) (hf : ∀ r, (f r).id = r.id)
    (t : Schedules) : Schedules :=
  t.update (fun r => decide (r.id = id)) f hf

def Schedule.edit (f : ScheduleFields) (next : Option Instant) (r : Schedule) : Schedule :=
  { f.row r.id r.requester next with
    lastRunAt := r.lastRunAt, lastStatus := r.lastStatus, lastRunIds := r.lastRunIds }

def Schedule.setEnabled (enabled : Bool) (next : Option Instant) (r : Schedule) : Schedule :=
  { r with enabled, nextRunAt := next }

def Schedule.setNext (next : Option Instant) (r : Schedule) : Schedule :=
  { r with nextRunAt := next }

def Schedule.markFired (firedAt : Instant) (status : String) (next : Option Instant)
    (runIDs : List UUID) (r : Schedule) : Schedule :=
  { r with
    lastRunAt := some firedAt, lastStatus := status, nextRunAt := next, lastRunIds := runIDs }

def updateSchedule (id : UUID) (f : ScheduleFields) (next : Option Instant) :
    Schedules → Schedules :=
  updateWhereID id (Schedule.edit f next) fun _ => rfl

def setScheduleEnabled (id : UUID) (enabled : Bool) (next : Option Instant) :
    Schedules → Schedules :=
  updateWhereID id (Schedule.setEnabled enabled next) fun _ => rfl

def setNextRun (id : UUID) (next : Option Instant) : Schedules → Schedules :=
  updateWhereID id (Schedule.setNext next) fun _ => rfl

def markScheduleFired (id : UUID) (firedAt : Instant) (status : String) (next : Option Instant)
    (runIDs : List UUID) : Schedules → Schedules :=
  updateWhereID id (Schedule.markFired firedAt status next runIDs) fun _ => rfl

def getSchedule (id : UUID) (t : Schedules) : Option Schedule := t.lookup id

def listSchedules (t : Schedules) : List Schedule := t.rows.insertionSort fun a b => a.name ≤ b.name

def scheduleClaimLease : Duration := hour

def Schedule.due (now : Instant) (r : Schedule) : Bool :=
  r.enabled && r.nextRunAt.any fun next => decide (next ≤ now)

/-- A claimed schedule as it is returned, and when it was due: the time that the
lease took the place of. -/
structure Claimed where
  schedule : Schedule
  due : Instant

def Schedule.claim (now : Instant) (r : Schedule) : Option Claimed :=
  if r.due now then r.nextRunAt.map fun due => ⟨r.setNext (some (now + scheduleClaimLease)), due⟩
    else none

/-- The statement of `ClaimDueSchedules`. Rows that other statements have locked are
passed over. -/
def claimDueSchedules (now : Instant) (locked : List UUID) (t : Schedules) :
    List Claimed × Schedules :=
  let p := fun r : Schedule => r.due now && !locked.contains r.id
  ((t.select p).filterMap (Schedule.claim now),
    t.update p (Schedule.setNext (some (now + scheduleClaimLease))) fun _ => rfl)

/-! ## Rows of the table afterwards -/

section

variable {t t' : Schedules} {id : UUID} {f : Schedule → Schedule} {hf : ∀ r, (f r).id = r.id}
  {now : Instant} {locked : List UUID}

theorem mem_updateWhereID {r' : Schedule} (h : r' ∈ (updateWhereID id f hf t).rows) :
    (r' ∈ t.rows ∧ r'.id ≠ id) ∨ ∃ r ∈ t.rows, r.id = id ∧ f r = r' := by
  rcases Table.mem_update_cases h with ⟨hold, hp⟩ | ⟨r, hold, hp, rfl⟩
  · exact .inl ⟨hold, of_decide_eq_false hp⟩
  · exact .inr ⟨r, hold, of_decide_eq_true hp, rfl⟩

variable {r : Schedule}

theorem mem_updateWhereID_of_ne (hr : r ∈ t.rows) (hne : r.id ≠ id) :
    r ∈ (updateWhereID id f hf t).rows :=
  Table.mem_update_of_neg hr (decide_eq_false hne)

theorem mem_updateWhereID_of_eq (hr : r ∈ t.rows) (hid : r.id = id) :
    f r ∈ (updateWhereID id f hf t).rows :=
  Table.mem_update_of_pos hr (decide_eq_true hid)

theorem schedule_due_iff :
    r.due now ↔ r.enabled ∧ ∃ next, r.nextRunAt = some next ∧ next ≤ now := by
  unfold Schedule.due
  rw [Bool.and_eq_true, Option.any_eq_true]
  simp

theorem id_setNext (next : Option Instant) (r : Schedule) : (r.setNext next).id = r.id := rfl

theorem claimDueSchedules_snd : (claimDueSchedules now locked t).2 =
    t.update (fun r => r.due now && !locked.contains r.id)
      (Schedule.setNext (some (now + scheduleClaimLease))) (id_setNext _) :=
  rfl

theorem mem_claimDueSchedules {c : Claimed} (h : c ∈ (claimDueSchedules now locked t).1) :
    ∃ r ∈ t.rows, r.enabled ∧ r.nextRunAt = some c.due ∧ c.due ≤ now ∧
      c.schedule = r.setNext (some (now + scheduleClaimLease)) ∧
      c.schedule ∈ (claimDueSchedules now locked t).2.rows := by
  obtain ⟨r, hr, hclaim⟩ := List.mem_filterMap.mp h
  obtain ⟨hmem, hp⟩ := Table.mem_select.mp hr
  obtain ⟨hdue, hfree⟩ := Bool.and_eq_true_iff.mp hp
  obtain ⟨henabled, next, hnext, hle⟩ := schedule_due_iff.mp hdue
  rw [Schedule.claim, if_pos hdue, hnext, Option.map_some, Option.some.injEq] at hclaim
  subst hclaim
  refine ⟨r, hmem, henabled, hnext, hle, rfl, ?_⟩
  rw [claimDueSchedules_snd]
  exact Table.mem_update_of_pos hmem hp

/-- A row after a claim was passed over, or it is one of the claimed. -/
theorem mem_claimDueSchedules_snd {r' : Schedule}
    (h : r' ∈ (claimDueSchedules now locked t).2.rows) :
    r' ∈ t.rows ∨ ∃ c ∈ (claimDueSchedules now locked t).1, c.schedule = r' := by
  rw [claimDueSchedules_snd] at h
  rcases Table.mem_update_cases h with ⟨hold, -⟩ | ⟨r, hr, hp, rfl⟩
  · exact .inl hold
  obtain ⟨hdue, -⟩ := Bool.and_eq_true_iff.mp hp
  obtain ⟨-, next, hnext, -⟩ := schedule_due_iff.mp hdue
  refine .inr ⟨⟨r.setNext (some (now + scheduleClaimLease)), next⟩, ?_, rfl⟩
  refine List.mem_filterMap.mpr ⟨r, Table.mem_select.mpr ⟨hr, hp⟩, ?_⟩
  rw [Schedule.claim, if_pos hdue, hnext, Option.map_some]

/-- A row that is there before a claim is there afterwards, with the lease perhaps. -/
theorem exists_mem_claimDueSchedules (now : Instant) (locked : List UUID) (hr : r ∈ t.rows) :
    ∃ r' ∈ (claimDueSchedules now locked t).2.rows, r'.id = r.id ∧
      (r' = r ∨ (r' = r.setNext (some (now + scheduleClaimLease)) ∧ r.due now)) := by
  rw [claimDueSchedules_snd]
  cases hp : (r.due now && !locked.contains r.id) with
  | true => exact ⟨_, Table.mem_update_of_pos hr hp, rfl,
      .inr ⟨rfl, (Bool.and_eq_true_iff.mp hp).1⟩⟩
  | false => exact ⟨r, Table.mem_update_of_neg hr hp, rfl, .inl rfl⟩

theorem nodup_claimDueSchedules :
    ((claimDueSchedules now locked t).1.map fun c => c.schedule.id).Nodup := by
  have hsub : ((claimDueSchedules now locked t).1.map fun c => c.schedule.id).Sublist
      (t.rows.map Schedule.id) := by
    have hclaim : ∀ l : List Schedule,
        ((l.filterMap (Schedule.claim now)).map fun c => c.schedule.id).Sublist
        (l.map Schedule.id) := by
      intro l
      induction l with
      | nil => exact .slnil
      | cons r l ih =>
        rw [List.filterMap_cons, List.map_cons]
        cases hr : r.claim now with
        | none => exact ih.cons _
        | some c =>
          have hid : c.schedule.id = r.id := by
            unfold Schedule.claim at hr
            split at hr
            · obtain ⟨due, -, rfl⟩ := Option.map_eq_some_iff.mp hr
              rfl
            · cases hr
          rw [List.map_cons, hid]
          exact ih.cons_cons _
    exact (hclaim _).trans (List.filter_sublist.map _)
  exact t.nodup.sublist hsub

end

end Moorgate.Store
