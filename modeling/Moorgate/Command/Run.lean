import Moorgate.Commandpolicy.Guard

/-!
# Ad-hoc commands: `command/run.go`

`applyPolicy` evaluates a command as a whole against the rules of the host. A terminal evaluates
each line that is typed, as the guard has it. So the text may run while the guard refuses one of
its lines, under some rules, exactly when the guard sees a line that is not the text.
-/

namespace Moorgate.Command

open Framework Models Commandpolicy

inductive NotifyEvent where
  | commandFlagged | commandBlocked | commandApproval
deriving DecidableEq

/-- What `applyPolicy` leaves in the store and sends. -/
inductive RunEffect where
  | audit (action rule command : String)
  | notify (event : NotifyEvent) (title body : String)
  | createCommandApproval (ruleID : UUID) (command : String)
deriving DecidableEq

structure PolicyResult where
  output : String
  code : ℤ
  (failed handled : Bool)
deriving DecidableEq

def mayRun : PolicyResult := ⟨"", 0, false, false⟩

/-- `specs` is what `rulesForHost` returns, `none` its error; `waiver` is
`ActiveWaiver` of the user on the host. -/
def applyPolicy (R : Regexp) (specs : Option (List Spec)) (waiver : UUID → Bool)
    (hostname username command : String) : PolicyResult × List RunEffect :=
  match specs with
  | none | some [] => (mayRun, [])
  | some specs =>
    match evaluate (compile R specs) command with
    | none => (mayRun, [])
    | some rule =>
      match rule.action with
      | .flag =>
        (mayRun,
          [.audit "command.flagged" rule.name command,
            .notify .commandFlagged "Privileged command run"
              (username ++ " ran a flagged command on " ++ hostname ++ ": " ++ command)])
      | .block =>
        (⟨"[blocked by command policy: " ++ rule.name ++ "]", -1, true, true⟩,
          [.audit "command.blocked" rule.name command,
            .notify .commandBlocked "Command blocked by policy"
              (username ++ " was blocked on " ++ hostname ++ " (" ++ rule.name ++ "): " ++
              command)])
      | .approval =>
        if waiver rule.id then (mayRun, [.audit "command.approved_run" rule.name command])
        else
          (⟨"[requires approval (" ++ rule.name ++
              "): a request was submitted. Once approved, run it again.]", -1, true, true⟩,
            [.createCommandApproval rule.id command,
              .audit "command.approval_requested" rule.name command,
              .notify .commandApproval "Command awaiting approval"
                (username ++ " requested approval to run on " ++ hostname ++ " (" ++ rule.name ++
                "): " ++ command)])

def typed (text : String) : List UInt8 := text.toUTF8.data.toList ++ [0x0D]

/-- The relay's guard over the same waivers. -/
def waiverCallbacks (waiver : UUID → Bool) : Callbacks Unit where
  hasWaiver := some fun ruleID w => (waiver ruleID, w)
  onFlag := none
  onBlock := none
  onApprovalRequest := none
  onApprovedRun := none

section

variable {R : Regexp} {waiver : UUID → Bool} {hostname username : String}

theorem applyPolicy_handled (specs : List Spec) (command : String) :
    (applyPolicy R (some specs) waiver hostname username command).1.handled =
      refused (compile R specs) (waiverCallbacks waiver) () command := by
  cases specs with
  | nil => rfl
  | cons s specs =>
    simp only [applyPolicy, refused]
    cases evaluate (compile R (s :: specs)) command with
    | none => rfl
    | some rule =>
      rw [Option.any_some, Rule.refuses]
      dsimp only
      cases rule.action with
      | flag | block => rfl
      | approval =>
        show (if waiver rule.id then _ else _ : PolicyResult × List RunEffect).1.handled =
          !waiver rule.id
        cases waiver rule.id with
        | true | false => rfl

/-- Ad-hoc commands are governed as in a terminal: for every rule list and every
waiver, what may run is refused nowhere when it is typed. -/
def GovernedAlike (R : Regexp) (text : String) : Prop :=
  ∀ (specs : List Spec) (waiver : UUID → Bool) (hostname username : String),
    (applyPolicy R (some specs) waiver hostname username text).1.handled = false →
      (input (newGuard (compile R specs) (waiverCallbacks waiver), ()) (typed text)).2.forward =
      typed text

theorem governedAlike_of_judged {text : String}
    (h : ∀ line ∈ judgedLines (typed text), line = text) : GovernedAlike R text := by
  intro specs waiver hostname username hrun
  rw [applyPolicy_handled] at hrun
  rw [input_forward_eq_iff]
  intro p hp
  by_contra hrefused
  simp only [refusedAt, Bool.not_eq_false, Bool.and_eq_true, bne_iff_ne] at hrefused
  obtain ⟨⟨henter, hblank⟩, hline⟩ := hrefused
  have htext : editedLine p.1 = text := h _ (mem_judgedLines.mpr ⟨p, hp, henter, hblank, rfl⟩)
  rw [htext] at hline
  exact absurd hrun (by rw [hline]; decide)

/-- A rule that matches one line and nothing else tells the text from its line. -/
theorem judged_of_governedAlike {text : String} (h : GovernedAlike R text) :
    ∀ line ∈ judgedLines (typed text), line = text := by
  intro line hline
  obtain ⟨p, hp, henter, hblank, rfl⟩ := mem_judgedLines.mp hline
  by_contra hne
  set only : Rule := ⟨⟨0⟩, "", .block, fun s => s == editedLine p.1⟩ with honly
  have hrules : compile R [⟨⟨0⟩, "", .block, R.quoted (editedLine p.1)⟩] = [only] := by
    simp only [compile, List.filterMap_cons, List.filterMap_nil, R.compile_quoted,
      Option.map_some, honly]
  have hevaluate (s : String) : refused [only] (waiverCallbacks fun _ => false) () s =
      (s == editedLine p.1) := by
    simp only [refused, evaluate, List.find?_cons, honly]
    cases s == editedLine p.1 with
    | true | false => rfl
  have hrun : (applyPolicy R (some [⟨⟨0⟩, "", .block, R.quoted (editedLine p.1)⟩])
      (fun _ => false) "" "" text).1.handled = false := by
    rw [applyPolicy_handled, hrules, hevaluate]
    exact beq_eq_false_iff_ne.mpr (Ne.symm hne)
  have hkept := h _ _ _ _ hrun
  rw [hrules, input_forward_eq_iff] at hkept
  have hrefused : refusedAt [only] (waiverCallbacks fun _ => false) () p.1 p.2 := by
    simp only [refusedAt, henter, bne_iff_ne.mpr hblank, hevaluate, beq_self_eq_true, Bool.and_self]
  rw [hkept p hp] at hrefused
  cases hrefused

end

/-- **Ad-hoc commands and terminals are governed alike exactly on the texts that the
guard sees as they are.** -/
theorem adhoc_governed_iff (R : Regexp) (text : String) :
    GovernedAlike R text ↔ ∀ line ∈ judgedLines (typed text), line = text :=
  ⟨judged_of_governedAlike, governedAlike_of_judged⟩

/-- Patterns without operators, and `=l` for the pattern of `l` alone. -/
def literalRegexp : Regexp where
  compile pattern :=
    match pattern.toList with
    | '=' :: l => some fun s => s == String.ofList l
    | l => some fun s => decide (l <:+: s.toList)
  quoted l := String.ofList ('=' :: l.toList)
  compile_quoted l := by
    rw [String.toList_ofList]
    show (some fun s => s == String.ofList l.toList) = _
    rw [String.ofList_toList]

def flagEchoBlockRm : List Spec := [⟨⟨1⟩, "echo", .flag, "echo"⟩, ⟨⟨2⟩, "rm", .block, "rm"⟩]

/-- The flag on the first line lets the second one run. -/
theorem adhoc_runs_what_terminal_refuses :
    (applyPolicy literalRegexp (some flagEchoBlockRm) (fun _ => false) "web" "amy"
      "echo\nrm").1.handled = false ∧
    (input (newGuard (compile literalRegexp flagEchoBlockRm) (waiverCallbacks fun _ => false), ())
        (typed "echo\nrm")).2.forward = [0x65, 0x63, 0x68, 0x6F, 0x0A, 0x72, 0x6D, 0x15] := by
  decide +kernel

end Moorgate.Command
