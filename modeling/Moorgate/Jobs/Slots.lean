import Moorgate.Framework.Base.Runs

/-!
# Hosts that hang: `command/run.go`

A run has six slots and one context for all of its hosts. `perHostTimeout` goes into the timeout of
that context only, so six hosts that hang hold the slots until the run is over. A command that ends
does so promptly: time passes only when nothing else can happen, and then until the run's timeout.
-/

namespace Moorgate.Jobs

open Framework

def commandConcurrency : ℕ := 6

/-- The time for a host times the number of batches of six, and some more. -/
def batchTime (perHost slack : ℤ) (hosts : ℕ) : ℤ :=
  perHost * max 1 ((hosts + commandConcurrency - 1) / commandConcurrency : ℕ) + slack

def perHostTimeout : ℤ := 10

/-- `runTimeout` for a number of hosts whose product does not overflow. -/
def runTimeout (hosts : ℕ) : ℤ := batchTime perHostTimeout 2 hosts

/-- The host that the loop of `Run` takes next, and those that have a slot. -/
structure Slots (α : Type) where
  next : ℕ
  running : List α

inductive SlotEvent (α : Type) where
  | start
  | finish (h : α)

section

variable {α : Type} [DecidableEq α] (hosts : List α) (hung : α → Bool)

def slotStep (s : Slots α) : SlotEvent α → Option (Slots α)
  | .start =>
    match hosts[s.next]? with
    | some h => if s.running.length < commandConcurrency then some ⟨s.next + 1, s.running ++ [h]⟩
        else none
    | none => none
  | .finish h => if h ∈ s.running ∧ hung h = false then some { s with running := s.running.erase h }
      else none

/-- Nothing more happens before the run's timeout. -/
def Waits (s : Slots α) : Prop :=
  (∃ evs, exec (slotStep hosts hung) ⟨0, []⟩ evs = some s) ∧ ∀ e, slotStep hosts hung s e = none

/-- Every host that does not hang has started and is not running any more. -/
def OthersComplete : Prop := ∀ s, Waits hosts hung s → ∀ h ∈ hosts.drop s.next ++ s.running, hung h

/-- What is still running runs until the timeout. -/
def NoneOverdue : Prop :=
  ∀ s, Waits hosts hung s → s.running ≠ [] → runTimeout hosts.length ≤ perHostTimeout

variable {hosts hung} {s s' : Slots α} {e : SlotEvent α}

/-- A host that hangs keeps its slot, and there was a free one whenever a host started. -/
structure SlotInv (hosts : List α) (hung : α → Bool) (s : Slots α) : Prop where
  held : s.running.countP hung = (hosts.take s.next).countP hung
  free : ∀ n < s.next, (hosts.take n).countP hung < commandConcurrency

def slotsLeft (hosts : List α) (s : Slots α) : ℕ := 2 * (hosts.length - s.next) + s.running.length

theorem slotStep_spec (hi : SlotInv hosts hung s) (h : slotStep hosts hung s e = some s') :
    SlotInv hosts hung s' ∧ slotsLeft hosts s' < slotsLeft hosts s := by
  revert h
  fun_cases slotStep hosts hung s e with
  | case1 x hx hslot =>
    rintro ⟨⟩
    obtain ⟨hlt, -⟩ := List.getElem?_eq_some_iff.mp hx
    refine ⟨⟨?_, ?_⟩, ?_⟩
    · rw [List.countP_append, hi.held, List.take_add_one, hx, List.countP_append]
      rfl
    · intro n hn
      rcases Nat.lt_succ_iff_lt_or_eq.mp hn with hold | rfl
      · exact hi.free n hold
      · exact hi.held ▸ lt_of_le_of_lt List.countP_le_length hslot
    · simp only [slotsLeft, List.length_append, List.length_singleton]
      omega
  | case4 x hx =>
    rintro ⟨⟩
    refine ⟨⟨?_, hi.free⟩, ?_⟩
    · rw [List.countP_erase, if_neg (by simp [hx.2]), Nat.sub_zero, hi.held]
    · have hpos := List.length_pos_of_mem hx.1
      simp only [slotsLeft, List.length_erase_of_mem hx.1]
      omega
  | _ => rintro ⟨⟩

omit [DecidableEq α] in
theorem slotInv_start (hosts : List α) (hung : α → Bool) : SlotInv hosts hung ⟨0, []⟩ :=
  ⟨rfl, nofun⟩

theorem Waits.inv (h : Waits hosts hung s) : SlotInv hosts hung s := by
  obtain ⟨evs, hrun⟩ := h.1
  exact exec_invariant_of_step (fun hi hstep => (slotStep_spec hi hstep).1) hrun
    (slotInv_start hosts hung)

theorem length_le_slotsLeft {evs : List (SlotEvent α)} (hi : SlotInv hosts hung s)
    (h : exec (slotStep hosts hung) s evs = some s') : evs.length ≤ slotsLeft hosts s := by
  induction evs generalizing s with
  | nil => exact Nat.zero_le _
  | cons e evs ih =>
    obtain ⟨s₁, hstep, hrun⟩ := exec_cons_eq_some.mp h
    obtain ⟨hi₁, hlt⟩ := slotStep_spec hi hstep
    exact lt_of_le_of_lt (ih hi₁ hrun) hlt

theorem exists_rest (s : Slots α) (hi : SlotInv hosts hung s) :
    ∃ evs s', exec (slotStep hosts hung) s evs = some s' ∧
    ∀ e, slotStep hosts hung s' e = none := by
  by_cases hrest : ∀ e, slotStep hosts hung s e = none
  · exact ⟨[], s, rfl, hrest⟩
  · obtain ⟨e, he⟩ := not_forall.mp hrest
    obtain ⟨s₁, hstep⟩ := Option.ne_none_iff_exists'.mp he
    obtain ⟨hi₁, hlt⟩ := slotStep_spec hi hstep
    obtain ⟨evs, s', hrun, hrest⟩ := exists_rest s₁ hi₁
    exact ⟨e :: evs, s', exec_cons_eq_some.mpr ⟨s₁, hstep, hrun⟩, hrest⟩
termination_by slotsLeft hosts s

theorem exists_waits (hosts : List α) (hung : α → Bool) : ∃ s, Waits hosts hung s := by
  obtain ⟨evs, s, hrun, hrest⟩ := exists_rest _ (slotInv_start hosts hung)
  exact ⟨s, ⟨evs, hrun⟩, hrest⟩

/-- Who is running hangs, and who has not started finds no slot. -/
theorem Waits.full (h : Waits hosts hung s) : s.running.countP hung = s.running.length ∧
    (s.next < hosts.length → commandConcurrency ≤ s.running.length) := by
  refine ⟨List.countP_eq_length.mpr fun x hx => ?_, fun hlt => ?_⟩
  · by_contra hprompt
    have hfinish := h.2 (.finish x)
    simp [slotStep, hx, hprompt] at hfinish
  · by_contra hslot
    have hstart := h.2 .start
    simp [slotStep, List.getElem?_eq_getElem hlt, not_le.mp hslot] at hstart

theorem othersComplete_iff : OthersComplete hosts hung ↔
    ∀ before h after, hosts = before ++ h :: after → hung h = false →
    before.countP hung < commandConcurrency := by
  constructor
  · rintro hall before h after rfl hh
    obtain ⟨s, hs⟩ := exists_waits (before ++ h :: after) hung
    by_contra hmany
    -- the loop has not got past the host
    have hnext : s.next ≤ before.length := by
      by_contra hpast
      have hfree := hs.inv.free before.length (not_le.mp hpast)
      rw [List.take_left] at hfree
      exact hmany hfree
    have hleft : h ∈ (before ++ h :: after).drop s.next := by
      rw [List.drop_append_of_le_length hnext]
      simp
    rw [hall s hs h (List.mem_append_left _ hleft)] at hh
    cases hh
  · intro hfew s hs h hh
    obtain ⟨hrunning, hwaiting⟩ := hs.full
    rcases List.mem_append.mp hh with hleft | hrun
    · by_contra hprompt
      obtain ⟨a, b, hab⟩ := List.append_of_mem hleft
      have hhosts : hosts = (hosts.take s.next ++ a) ++ h :: b := by
        rw [List.append_assoc, ← hab, List.take_append_drop]
      have hcount := hfew _ h b hhosts (Bool.eq_false_iff.mpr hprompt)
      rw [List.countP_append, ← hs.inv.held, hrunning] at hcount
      have hlt : s.next < hosts.length := by
        by_contra hge
        rw [List.drop_eq_nil_of_le (not_lt.mp hge)] at hleft
        cases hleft
      omega
    · exact List.countP_eq_length.mp hrunning h hrun

theorem noneOverdue_iff : NoneOverdue hosts hung ↔ ∀ h ∈ hosts, hung h = false := by
  have hzero : (∀ h ∈ hosts, hung h = false) ↔ hosts.countP hung = 0 := by
    simp [List.countP_eq_zero]
  rw [hzero]
  constructor
  · intro hcapped
    obtain ⟨s, hs⟩ := exists_waits hosts hung
    have hlong : perHostTimeout < runTimeout hosts.length := by
      unfold runTimeout batchTime perHostTimeout
      omega
    have hnil : s.running = [] := by
      by_contra hne
      exact absurd (hcapped s hs hne) (not_le.mpr hlong)
    have hall : hosts.length ≤ s.next := by
      by_contra hlt
      have hslots := hs.full.2 (not_le.mp hlt)
      rw [hnil] at hslots
      cases hslots
    rw [← List.take_of_length_le hall, ← hs.inv.held, hnil]
    rfl
  · intro hnone s hs hne
    have hheld := hs.inv.held
    have hle := (List.take_sublist s.next hosts).countP_le (p := hung)
    have hpos := List.length_pos_of_ne_nil hne
    have hrunning := hs.full.1
    omega

end

/-- **Hung hosts spare the others** exactly if fewer than six of them stand before each of the
others, and none is overdue exactly if none hangs. No run has more than two events for a host. -/
theorem hung_hosts_spare_iff {α : Type} [DecidableEq α] (hosts : List α) (hung : α → Bool) :
    (OthersComplete hosts hung ↔ ∀ before h after, hosts = before ++ h :: after → hung h = false →
      before.countP hung < commandConcurrency) ∧
    (NoneOverdue hosts hung ↔ ∀ h ∈ hosts, hung h = false) ∧
    ∀ evs s, exec (slotStep hosts hung) ⟨0, []⟩ evs = some s → evs.length ≤ 2 * hosts.length :=
  ⟨othersComplete_iff, noneOverdue_iff,
    fun _ _ hrun => length_le_slotsLeft (slotInv_start hosts hung) hrun⟩

/-- Six hosts that hang before one that does not, and one alone. -/
theorem hung_hosts_starve : ¬ OthersComplete [0, 1, 2, 3, 4, 5, 6] (fun h => decide (h < 6)) ∧
    ¬ NoneOverdue [0] fun h => decide (h < 6) := by
  rw [othersComplete_iff, noneOverdue_iff]
  exact ⟨fun hfew => absurd (hfew [0, 1, 2, 3, 4, 5] 6 [] rfl rfl) (by decide), by decide⟩

end Moorgate.Jobs
