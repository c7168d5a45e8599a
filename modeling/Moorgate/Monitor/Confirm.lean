import Mathlib.Data.Set.Basic

/-!
# Confirming an outage: `monitor/monitor.go`

A sweep probes a host again while the result is a degradation, up to `offlineConfirmations` probes
in all, and records the last result. An online host that is found offline and one whose tunnel is
found down both count, so a run of probes that mixes the two ends in an outage that was seen once.
And a host without an overlay address is not probed again for its tunnel.
-/

namespace Moorgate.Monitor

inductive Status where
  | unknown | offline | online
deriving DecidableEq

/-- What `probe` returns: only a host that answers has its tunnel looked at, for `WGOK`. -/
inductive Probe where
  | offline | overlayDown | overlayUp
deriving DecidableEq

/-- `MonitorOfflineConfirmations`, or 3. -/
def offlineConfirmations (configured : ℤ) : ℕ := if 1 ≤ configured then configured.toNat else 3

def confirmNeeded (wgAddress : String) (prev : Status) (prevWG : Bool) : Probe → Bool
  | .offline => prev = .online
  | .overlayDown => wgAddress ≠ "" ∧ prevWG
  | .overlayUp => false

/-- The loop of `probeConfirmed`, with the number of probes it may still make: the number of
the probe that stands. -/
def reprobe (needed : Probe → Bool) (probes : ℕ → Probe) : ℕ → ℕ → ℕ
  | 0, k => k
  | left + 1, k => if needed (probes k) then reprobe needed probes left (k + 1) else k

/-- `probes` are the results of the sweep, in turn. -/
def probeConfirmed (configured : ℤ) (wgAddress : String) (prev : Status) (prevWG : Bool)
    (probes : ℕ → Probe) : ℕ :=
  reprobe (confirmNeeded wgAddress prev prevWG) probes (offlineConfirmations configured - 1) 0

/-- What a sweep records of an online host is confirmed by `n` probes; `r` is the number of
the one that stands. -/
structure OutageConfirmed (n r : ℕ) (prev : Status) (prevWG : Bool) (probes : ℕ → Probe) :
    Prop where
  offline : prev = .online → (probes r = .offline ↔ r + 1 = n ∧ ∀ k < n, probes k = .offline)
  overlay : prev = .online → prevWG → probes r = .overlayDown → r + 1 = n ∧
    ∀ k < n, probes k ≠ .overlayUp

/-- All `n` probes are degraded, in both ways, and the last is offline. -/
def Mixed (n : ℕ) (probes : ℕ → Probe) : Prop :=
  (∀ k < n, probes k ≠ .overlayUp) ∧ (∃ k < n, probes k = .overlayDown) ∧ probes (n - 1) = .offline

/-- The first answer comes before the last probe, and the tunnel is down. -/
def DownAtOnce (n : ℕ) (probes : ℕ → Probe) : Prop :=
  ∃ k, k + 1 < n ∧ (∀ j < k, probes j = .offline) ∧ probes k = .overlayDown

theorem offlineConfirmations_pos (configured : ℤ) : 0 < offlineConfirmations configured := by
  unfold offlineConfirmations
  split <;> omega

variable (needed : Probe → Bool) (probes : ℕ → Probe)

/-- The probe that stands is the first that needs no confirmation, or the last. -/
theorem reprobe_spec (left k : ℕ) :
    k ≤ reprobe needed probes left k ∧ reprobe needed probes left k ≤ k + left ∧
    (∀ j, k ≤ j → j < reprobe needed probes left k → needed (probes j)) ∧
      (reprobe needed probes left k < k + left →
        needed (probes (reprobe needed probes left k)) = false) := by
  induction left generalizing k with
  | zero => exact ⟨le_rfl, le_rfl, fun j h h' => absurd h h'.not_ge,
      fun h => absurd h (lt_irrefl _)⟩
  | succ left ih =>
    unfold reprobe
    split
    · next hneeded =>
      obtain ⟨hle, hge, hbefore, hstop⟩ := ih (k + 1)
      refine ⟨by omega, by omega, ?_, fun h => hstop (by omega)⟩
      intro j hj hj'
      rcases hj.eq_or_lt with rfl | hlt
      · exact hneeded
      · exact hbefore j hlt hj'
    · next h => exact ⟨le_rfl,
        by omega, fun j h h' => absurd h h'.not_ge, fun _ => by simpa using h⟩

theorem confirmNeeded_iff {wgAddress : String} {prevWG : Bool} {p : Probe} :
    confirmNeeded wgAddress .online prevWG p ↔ p = .offline ∨ (wgAddress ≠ "" ∧ prevWG) ∧
    p = .overlayDown := by
  cases p <;> simp [confirmNeeded]

/-- An outage is confirmed iff the host was not online with its tunnel up, or the probes do
not mix the two degradations; without an overlay address, iff the tunnel is not down at once. -/
theorem outageConfirmed_iff (configured : ℤ) (wgAddress : String) (prev : Status) (prevWG : Bool)
    (probes : ℕ → Probe) :
    OutageConfirmed (offlineConfirmations configured)
      (probeConfirmed configured wgAddress prev prevWG probes) prev
        prevWG probes ↔
      (prev = .online → prevWG → if wgAddress = ""
        then ¬DownAtOnce (offlineConfirmations configured) probes
        else ¬Mixed (offlineConfirmations configured) probes) := by
  by_cases hprev : prev ≠ .online
  · exact ⟨fun _ h => absurd h hprev, fun _ => ⟨fun h => absurd h hprev, fun h => absurd h hprev⟩⟩
  rw [not_not] at hprev
  subst hprev
  have hpos := offlineConfirmations_pos configured
  obtain ⟨-, hle, hbefore, hstop⟩ := reprobe_spec (confirmNeeded wgAddress .online prevWG) probes
    (offlineConfirmations configured - 1) 0
  rw [← probeConfirmed] at hle hbefore hstop
  simp only [confirmNeeded_iff, ← Bool.not_eq_true, Nat.zero_add, Nat.zero_le] at hle hbefore hstop
  generalize offlineConfirmations configured = n at *
  generalize probeConfirmed configured wgAddress .online prevWG probes = r at *
  -- Whether a tunnel that is down is probed again.
  by_cases hw : wgAddress ≠ "" ∧ prevWG
  · have hlast : probes r ≠ .overlayUp → r + 1 = n := by
      cases hr : probes r <;> grind
    rw [if_neg hw.1]
    constructor
    · rintro ⟨hoffline, -⟩ - - ⟨hnone, ⟨k, hk, hdown⟩, hend⟩
      grind
    · intro h
      unfold Mixed at h
      constructor <;> grind
  · have hempty (hwg : prevWG) : wgAddress = "" := not_not.mp fun h => hw ⟨h, hwg⟩
    constructor
    · rintro ⟨-, hoverlay⟩ - hwg
      rw [if_pos (hempty hwg)]
      rintro ⟨k, hk, hbefore, hdown⟩
      grind
    · intro h
      refine ⟨by grind, fun _ hwg hr => ?_⟩
      unfold DownAtOnce at h
      grind

/-- Offline, then online without its tunnel, then offline: the outage that is recorded was
interrupted by an answer. -/
theorem interrupted_outage_recorded :
    probeConfirmed 3 "10.8.0.2" .online true (fun k => if k = 1 then .overlayDown
      else .offline) = 2 ∧
      ¬OutageConfirmed (offlineConfirmations 3) 2 .online true fun k => if k = 1 then .overlayDown
        else .offline :=
  ⟨by decide, fun h => absurd (((h.offline rfl).mp rfl).2 1 (by decide)) (by decide)⟩

end Moorgate.Monitor
