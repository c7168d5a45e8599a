import Moorgate.Jobs.Runners

/-!
# The exit code of a command run

The code that is persisted is the largest among the hosts', counted from 0. What fails without an
exit status has the code −1: it fails the run and leaves no trace in the code. So the code tells
how the run ended where some host has a positive status, or where every host succeeded before the
timeout of the run.
-/

namespace Moorgate.Jobs

open Framework Command

/-- What a host can answer: a status is a byte, and what is handled was handled by the
policy. -/
def CommandOutcome.Possible : CommandOutcome → Prop
  | .handled r => ∃ R specs waiver hostname username command,
      r = (applyPolicy R specs waiver hostname username command).1 ∧ r.handled
  | .exited _ code => 0 ≤ code ∧ code ≤ 255
  | _ => True

def CommandOutcome.ranWith (p : ℤ → Prop) : CommandOutcome → Prop
  | .exited _ code => p code
  | _ => False

/-- The persisted code tells whether the run succeeded. -/
structure ExitCodeTells (t : Timeout) (hosts : List (ByteString × CommandOutcome)) (code : ℤ) :
    Prop where
  order : ∀ t' hosts' code', hosts'.Perm hosts → (commandRun t' hosts').exitCode = some code' →
    code' = code
  zero : code = 0 ↔ ∀ h ∈ hosts, h.2.ranWith (· = 0)
  status : (commandRun t hosts).status = .completed ↔ code = 0

theorem applyPolicy_of_handled {R specs waiver hostname username command} {r : PolicyResult}
    (h : r = (applyPolicy R specs waiver hostname username command).1 ∧ r.handled) :
    r.code = -1 ∧ r.failed := by
  obtain ⟨rfl, h⟩ := h
  revert h
  unfold applyPolicy
  repeat' split
  all_goals simp [mayRun]

variable {hosts : List (ByteString × CommandOutcome)}

theorem commandRunOne_of_possible (name : ByteString) {o : CommandOutcome} (ho : o.Possible) :
    (0 < (commandRunOne name o).code ↔ o.ranWith (0 < ·)) ∧
      ((commandRunOne name o).failed = false ↔ o.ranWith (· = 0)) := by
  cases o with
  | handled r =>
    obtain ⟨R, specs, waiver, hostname, username, command, hr⟩ := ho
    obtain ⟨hcode, hfailed⟩ := applyPolicy_of_handled hr
    simp [commandRunOne, CommandOutcome.ranWith, hcode, hfailed]
  | _ => simp [commandRunOne, CommandOutcome.ranWith]

theorem anyFail_foldl_add (rs : List HostResult) (t : Tally) :
    (rs.foldl Tally.add t).anyFail = false ↔ t.anyFail = false ∧ ∀ r ∈ rs, r.failed = false := by
  induction rs generalizing t with
  | nil => simp
  | cons r rs ih =>
    rw [List.foldl_cons, ih, Tally.add, Bool.or_eq_false_iff, List.forall_mem_cons, and_assoc]

/-- A code that is persisted is the worst of the hosts', with the verdict beside it. -/
theorem commandRun_of_exitCode {t : Timeout} {code : ℤ}
    (h : (commandRun t hosts).exitCode = some code) :
    (∀ n, code < n ↔ 0 < n ∧ ∀ h ∈ hosts, (commandRunOne h.1 h.2).code < n) ∧
      ((commandRun t hosts).status = .completed ↔
        t.passed 1 = false ∧ ∀ h ∈ hosts, (commandRunOne h.1 h.2).failed = false) := by
  have hworst := @(worstCode_foldl_add (hosts.map fun h => commandRunOne h.1 h.2) ⟨.empty, false,
      0⟩ le_rfl).2
  have hfail := anyFail_foldl_add (hosts.map fun h => commandRunOne h.1 h.2) ⟨.empty, false, 0⟩
  simp only [List.forall_mem_map, true_and] at hworst hfail
  unfold commandRun completeRun at h ⊢
  dsimp only at h ⊢
  split at h
  · next haccepted =>
    rw [if_pos haccepted]
    refine ⟨fun n => ?_, ?_⟩
    · rw [← Option.some.inj h]
      exact hworst
    · unfold verdict
      rw [← hfail, tally]
      cases t.passed 1 <;> cases (List.foldl Tally.add _ _).anyFail <;> simp
  · unfold startRun at h
    split at h <;> cases h

/-- The persisted code tells how the run ended iff some host has a positive status, or
all have the status 0 and the timeout of the run is not over. -/
theorem exitCodeTells_iff {t : Timeout} {code : ℤ} (hpossible : ∀ h ∈ hosts, h.2.Possible)
    (hcode : (commandRun t hosts).exitCode = some code) :
    ExitCodeTells t hosts code ↔
      (∃ h ∈ hosts, h.2.ranWith (0 < ·)) ∨ (∀ h ∈ hosts, h.2.ranWith (· = 0)) ∧
      t.passed 1 = false := by
  obtain ⟨hworst, hstatus⟩ := commandRun_of_exitCode hcode
  have hfailed : (∀ h ∈ hosts, (commandRunOne h.1 h.2).failed = false) ↔
      ∀ h ∈ hosts, h.2.ranWith (· = 0) :=
    forall₂_congr fun h hh => (commandRunOne_of_possible h.1 (hpossible h hh)).2
  have hzero : code = 0 ↔ ¬∃ h ∈ hosts, h.2.ranWith (0 < ·) := by
    have hnonneg : ¬code < 0 := fun h => lt_irrefl _ ((hworst 0).mp h).1
    rw [show code = 0 ↔ code < 1 by omega, hworst, and_iff_right one_pos]
    push Not
    refine forall₂_congr fun h hh => ?_
    rw [← (commandRunOne_of_possible h.1 (hpossible h hh)).1]
    omega
  have hapart : (∃ h ∈ hosts, h.2.ranWith (0 < ·)) → ¬∀ h ∈ hosts, h.2.ranWith (· = 0) := by
    rintro ⟨⟨name, o⟩, hh, hpos⟩ hall
    cases o with
    | exited writes code => exact hpos.ne' (hall _ hh)
    | _ => exact hpos
  rw [hfailed] at hstatus
  constructor
  · intro htells
    rw [or_iff_not_imp_left, ← hzero]
    intro h
    exact (hstatus.mp (htells.status.mpr h)).symm
  · intro hwhen
    have horder : ∀ t' hosts' code', hosts'.Perm hosts →
        (commandRun t' hosts').exitCode = some code' → code' = code := by
      intro t' hosts' code' hperm hcode'
      refine eq_of_forall_gt_iff fun n => ?_
      rw [hworst, (commandRun_of_exitCode hcode').1]
      simp only [hperm.mem_iff]
    rcases hwhen with hpos | ⟨hall, htime⟩
    · have hne : code ≠ 0 := fun h => hzero.mp h hpos
      exact ⟨horder, iff_of_false hne (hapart hpos),
        iff_of_false (fun h => hapart hpos (hstatus.mp h).2) hne⟩
    · have heq : code = 0 := hzero.mpr fun hpos => hapart hpos hall
      exact ⟨horder, iff_of_true heq hall, iff_of_true (hstatus.mpr ⟨htime, hall⟩) heq⟩

/-- A host with a positive status beside one that cannot be reached. -/
theorem exitCodeTells_two : ExitCodeTells none [([], .unreachable []), ([], .exited [] 3)] 3 :=
  (exitCodeTells_iff (by simp [CommandOutcome.Possible]) (by decide +kernel)).mpr
    (.inl ⟨_, .tail _ (.head _), three_pos⟩)

/-- A host that cannot be reached: the run fails, with the exit code 0. -/
theorem exit_code_hides_unreachable : (commandRun none [([], .unreachable [])]).exitCode = some 0 ∧
    (commandRun none [([], .unreachable [])]).status = .failed ∧
    ¬ExitCodeTells none [([], .unreachable [])] 0 :=
  ⟨by decide +kernel, by decide +kernel, fun h => h.zero.mp rfl _ (.head _)⟩

end Moorgate.Jobs
