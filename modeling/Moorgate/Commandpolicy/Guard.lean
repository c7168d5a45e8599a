import Moorgate.Framework.Base.Text
import Moorgate.Framework.Base.Transducer
import Moorgate.Models.Ids

/-!
# The command guard: `commandpolicy/guard.go`

The guard forwards the keystrokes of a session byte by byte and keeps the line as it stands after
backspaces. At an Enter it decides on the line by the first rule that matches: the Enter is
forwarded, or a kill-line in its place.

The guard is a transducer. What it does at an Enter depends on the bytes since the Enter before
(`guard_after`) and on what the callbacks have come to, so the cuts between the calls of `Input` do
not show.
-/

namespace Moorgate.Commandpolicy

open Framework Models

inductive Action where
  | flag | block | approval
deriving DecidableEq

/-- `re` is `MatchString` of the compiled pattern. -/
structure Rule where
  id : UUID
  name : String
  action : Action
  re : String → Bool

structure Spec where
  id : UUID
  name : String
  action : Action
  pattern : String

/-- `regexp.Compile`, with `MatchString` of what it returns. `quoted l` is the
pattern `\A` + `regexp.QuoteMeta(l)` + `\z`, that matches `l` only. -/
structure Regexp where
  compile : String → Option (String → Bool)
  quoted : String → String
  compile_quoted : ∀ l, compile (quoted l) = some fun s => s == l

/-- Patterns that do not compile are skipped. -/
def compile (R : Regexp) (specs : List Spec) : List Rule :=
  specs.filterMap fun s => (R.compile s.pattern).map fun re => ⟨s.id, s.name, s.action, re⟩

def evaluate (rules : List Rule) (command : String) : Option Rule :=
  rules.find? fun r => r.re command

/-- The side effects that the relay supplies, as functions on a state `ω` of their
own; `none` is nil. -/
structure Callbacks (ω : Type*) where
  hasWaiver : Option (UUID → ω → Bool × ω)
  (onFlag onBlock onApprovalRequest onApprovedRun : Option (Rule → String → ω → ω))

inductive CallbackCall where
  | hasWaiver (ruleID : UUID)
  | onFlag (rule : Rule) (command : String)
  | onBlock (rule : Rule) (command : String)
  | onApprovalRequest (rule : Rule) (command : String)
  | onApprovedRun (rule : Rule) (command : String)

/-- What the guard does: it judges a line, calls back, and returns bytes and a
notice. -/
inductive Effect where
  | decide (line : String)
  | call (c : CallbackCall)
  | forward (b : List UInt8)
  | notice (text : String)

abbrev Printable := {b : UInt8 // 0x20 ≤ b ∧ b < 0x7f}

def lineText (line : List Printable) : String :=
  String.ofList (line.map fun b => Char.ofNat b.1.toNat)

structure Guard (ω : Type*) where
  rules : List Rule
  cb : Callbacks ω
  line : List Printable

/-- A nil guard for no rules. -/
def newGuard {ω : Type*} (rules : List Rule) (cb : Callbacks ω) : Option (Guard ω) :=
  if rules.isEmpty then none else some ⟨rules, cb, []⟩

def killLine : List UInt8 := [0x15]

def blockNotice (rule : String) : String :=
  "\r\n\x1b[31m[command blocked by policy: " ++ rule ++ "]\x1b[0m\r\n"

def approvalNotice (rule : String) : String :=
  "\r\n\x1b[33m[command requires approval (" ++ rule ++
    "): a request was submitted. Once an approver grants it, run the command again.]\x1b[0m\r\n"

def isEnter (b : UInt8) : Bool := b == 0x0D || b == 0x0A

theorem isEnter_iff {b : UInt8} : isEnter b ↔ b = 0x0D ∨ b = 0x0A := by
  simp [isEnter]

section

variable {ω : Type*}

def callback (f : Option (Rule → String → ω → ω)) (c : Rule → String → CallbackCall) (r : Rule)
    (line : String) (w : ω) : ω × List Effect :=
  match f with
  | none => (w, [])
  | some f => (f r line w, [.call (c r line)])

/-- `HasWaiver`, where nil is no waiver. -/
def askWaiver (cb : Callbacks ω) (ruleID : UUID) (w : ω) : (Bool × ω) × List Effect :=
  match cb.hasWaiver with
  | none => ((false, w), [])
  | some f => (f ruleID w, [.call (.hasWaiver ruleID)])

/-- The loop of `decide`. -/
def decideRules (cb : Callbacks ω) (line : String) (term : UInt8) (w : ω) :
    List Rule → ω × List Effect
  | [] => (w, [.forward [term]])
  | r :: rules =>
    if r.re line = false then decideRules cb line term w rules
    else
      match r.action with
      | .flag =>
        let (w, calls) := callback cb.onFlag .onFlag r line w
        (w, calls ++ [.forward [term]])
      | .block =>
        let (w, calls) := callback cb.onBlock .onBlock r line w
        (w, calls ++ [.forward killLine, .notice (blockNotice r.name)])
      | .approval =>
        let ((waived, w), asked) := askWaiver cb r.id w
        if waived then
          let (w, calls) := callback cb.onApprovedRun .onApprovedRun r line w
          (w, asked ++ calls ++ [.forward [term]])
        else
          let (w, calls) := callback cb.onApprovalRequest .onApprovalRequest r line w
          (w, asked ++ calls ++ [.forward killLine, .notice (approvalNotice r.name)])

def Guard.decide (g : Guard ω) (line : String) (term : UInt8) (w : ω) : ω × List Effect :=
  let (w, effects) := decideRules g.cb line term w g.rules
  (w, .decide line :: effects)

def keepLine (line : List Printable) (b : UInt8) : List Printable :=
  if b = 0x7f ∨ b = 0x08 then line.dropLast
  else if h : 0x20 ≤ b ∧ b < 0x7f then line ++ [⟨b, h⟩]
  else line

/-- The loop body of `Input`. -/
def Guard.byte (s : Guard ω × ω) (b : UInt8) : (Guard ω × ω) × List Effect :=
  let (g, w) := s
  if isEnter b then
    let line := trimSpace (lineText g.line)
    let g := { g with line := [] }
    if line = "" then ((g, w), [.forward [b]])
    else
      let (w, effects) := g.decide line b w
      ((g, w), effects)
  else (({ g with line := keepLine g.line b }, w), [.forward [b]])

def forwarded (effects : List Effect) : List UInt8 :=
  effects.flatMap fun e => match e with
    | .forward b => b
    | _ => []

def calls (effects : List Effect) : List CallbackCall :=
  effects.flatMap fun e => match e with
    | .call c => [c]
    | _ => []

def notices : List Effect → String
  | [] => ""
  | .notice text :: effects => text ++ notices effects
  | _ :: effects => notices effects

/-- What a call of `Input` returns, and the callbacks it makes. -/
structure Returned where
  forward : List UInt8
  notice : String
  calls : List CallbackCall

def Returned.append (r r' : Returned) : Returned :=
  ⟨r.forward ++ r'.forward, r.notice ++ r'.notice, r.calls ++ r'.calls⟩

def input (s : Option (Guard ω) × ω) (data : List UInt8) : (Option (Guard ω) × ω) × Returned :=
  match s with
  | (none, w) => ((none, w), ⟨data, "", []⟩)
  | (some g, w) =>
    let r := transduce Guard.byte (g, w) data
    ((some r.1.1, r.1.2), ⟨forwarded r.2, notices r.2, calls r.2⟩)

def feed (s : Option (Guard ω) × ω) : List (List UInt8) → (Option (Guard ω) × ω) × Returned
  | [] => (s, ⟨[], "", []⟩)
  | data :: chunks =>
    let r := input s data
    let t := feed r.1 chunks
    (t.1, r.2.append t.2)

end

/-! ## Chunks -/

section

variable {ω : Type*}

theorem notices_append (xs ys : List Effect) : notices (xs ++ ys) = notices xs ++ notices ys := by
  induction xs with
  | nil => exact (String.empty_append).symm
  | cons e xs ih =>
    cases e with
    | notice text =>
      show text ++ notices (xs ++ ys) = text ++ notices xs ++ notices ys
      rw [ih, String.append_assoc]
    | decide line | call c | forward b => exact ih

variable (s : Option (Guard ω) × ω)

theorem input_append (xs ys : List UInt8) :
    input s (xs ++ ys) =
      ((input (input s xs).1 ys).1, (input s xs).2.append (input (input s xs).1 ys).2) := by
  obtain ⟨g, w⟩ := s
  cases g with
  | none => rfl
  | some g =>
    show input (some g, w) (xs ++ ys) = _
    simp only [input, Returned.append, transduce_append, forwarded, calls, List.flatMap_append,
      notices_append]

theorem feed_eq_input (chunks : List (List UInt8)) : feed s chunks = input s chunks.flatten := by
  induction chunks generalizing s with
  | nil =>
    obtain ⟨g, w⟩ := s
    cases g with
    | none | some g => rfl
  | cons data chunks ih => rw [feed, ih, List.flatten_cons, input_append]

end

/-! ## What is replaced -/

section

variable {ω : Type*}

def sinceEnter (pre : List UInt8) : List UInt8 :=
  (pre.reverse.takeWhile fun b => !isEnter b).reverse

theorem sinceEnter_snoc (pre : List UInt8) (b : UInt8) :
    sinceEnter (pre ++ [b]) = if isEnter b then [] else sinceEnter pre ++ [b] := by
  unfold sinceEnter
  rw [List.reverse_append, List.reverse_singleton, List.singleton_append, List.takeWhile_cons]
  cases isEnter b with
  | true => rfl
  | false => exact List.reverse_cons

/-- The line that the bytes before an Enter have left, as it is judged. -/
def editedLine (pre : List UInt8) : String :=
  trimSpace (lineText ((sinceEnter pre).foldl keepLine []))

def Rule.refuses (cb : Callbacks ω) (w : ω) (r : Rule) : Bool :=
  match r.action with
  | .flag => false
  | .block => true
  | .approval => !(askWaiver cb r.id w).1.1

def refused (rules : List Rule) (cb : Callbacks ω) (w : ω) (line : String) : Bool :=
  (evaluate rules line).any (Rule.refuses cb w)

/-- What the callbacks have come to after these bytes. -/
def worldAfter (rules : List Rule) (cb : Callbacks ω) (w : ω) (pre : List UInt8) : ω :=
  (input (newGuard rules cb, w) pre).1.2

/-- The byte is an Enter, and the line it ends is not blank and refused. -/
def refusedAt (rules : List Rule) (cb : Callbacks ω) (w : ω) (pre : List UInt8)
    (b : UInt8) : Bool :=
  isEnter b && editedLine pre != "" && refused rules cb (worldAfter rules cb w pre) (editedLine pre)

section

variable {γ : Type*} {f : Effect → List γ} (hcall : ∀ c, f (.call c) = [])

include hcall

theorem flatMap_callback (g : Option (Rule → String → ω → ω)) (c : Rule → String → CallbackCall)
    (r : Rule) (line : String) (w : ω) : (callback g c r line w).2.flatMap f = [] := by
  cases g with
  | none => rfl
  | some g =>
    show f (.call (c r line)) ++ [] = []
    rw [hcall]
    rfl

theorem flatMap_askWaiver (cb : Callbacks ω) (id : UUID) (w : ω) :
    (askWaiver cb id w).2.flatMap f = [] := by
  unfold askWaiver
  cases cb.hasWaiver with
  | none => rfl
  | some g =>
    show f (.call (.hasWaiver id)) ++ [] = []
    rw [hcall]
    rfl

/-- An observer that sees no calls and no notices sees one thing of a decision: what
is forwarded in place of the Enter. -/
theorem flatMap_decideRules (hnotice : ∀ text, f (.notice text) = []) (cb : Callbacks ω)
    (line : String) (term : UInt8) (w : ω) (rules : List Rule) :
    (decideRules cb line term w rules).2.flatMap f =
      f (.forward [if refused rules cb w line then 0x15 else term]) := by
  have hforward (bytes : List UInt8) : [Effect.forward bytes].flatMap f = f (.forward bytes) :=
    List.flatMap_singleton f _
  have hkill (text : String) : [Effect.forward killLine, .notice text].flatMap f =
      f (.forward [0x15]) := by
    show f (.forward [0x15]) ++ (f (.notice text) ++ []) = _
    rw [hnotice, List.append_nil, List.append_nil]
  induction rules with
  | nil => exact hforward [term]
  | cons r rules ih =>
    cases hmatch : r.re line with
    | false =>
      have hskip : refused (r :: rules) cb w line = refused rules cb w line := by
        simp only [refused, evaluate, List.find?_cons, hmatch]
      rw [decideRules, if_pos hmatch, ih, hskip]
    | true =>
      have hfirst : refused (r :: rules) cb w line = r.refuses cb w := by
        simp only [refused, evaluate, List.find?_cons, hmatch, Option.any_some]
      rw [decideRules, if_neg (by rw [hmatch]; decide), hfirst, Rule.refuses]
      cases haction : r.action with
      | flag =>
        rw [List.flatMap_append, flatMap_callback hcall, hforward]
        rfl
      | block =>
        rw [List.flatMap_append, flatMap_callback hcall, hkill]
        rfl
      | approval =>
        dsimp only
        split_ifs with hwaived hrefuses hrefuses
        · simp [hwaived] at hrefuses
        · rw [List.flatMap_append, List.flatMap_append, flatMap_askWaiver hcall,
            flatMap_callback hcall, hforward]
          rfl
        · rw [List.flatMap_append, List.flatMap_append, flatMap_askWaiver hcall,
            flatMap_callback hcall, hkill]
          rfl
        · simp [hwaived] at hrefuses

end

theorem forwarded_decideRules (cb : Callbacks ω) (line : String) (term : UInt8) (w : ω)
    (rules : List Rule) :
    forwarded (decideRules cb line term w rules).2 =
      [if refused rules cb w line then 0x15 else term] :=
  flatMap_decideRules (fun _ => rfl) (fun _ => rfl) cb line term w rules

/-- The rules and the callbacks stay, and the line is that of the bytes since the
last Enter. -/
theorem guard_after (g : Guard ω) (w : ω) (hline : g.line = []) (pre : List UInt8) :
    (transduce Guard.byte (g, w) pre).1.1 =
      { g with line := (sinceEnter pre).foldl keepLine [] } := by
  induction pre using List.reverseRecOn with
  | nil =>
    show g = _
    rw [← hline]
    rfl
  | append_singleton pre b ih =>
    rw [transduce_snoc, sinceEnter_snoc]
    generalize transduce Guard.byte (g, w) pre = r at ih
    obtain ⟨⟨g', w'⟩, effects⟩ := r
    subst ih
    unfold Guard.byte
    dsimp only
    split_ifs with henter hblank
    · rfl
    · rfl
    · rw [List.foldl_append]
      rfl

theorem forwarded_byte (g : Guard ω) (w : ω) (b : UInt8) : forwarded (Guard.byte (g, w) b).2 =
      [if isEnter b && trimSpace (lineText g.line) != "" &&
          refused g.rules g.cb w (trimSpace (lineText g.line)) then 0x15 else b] := by
  unfold Guard.byte
  dsimp only
  by_cases henter : isEnter b
  · rw [if_pos henter, henter, Bool.true_and]
    split_ifs with hblank hrefused hrefused
    · simp [hblank] at hrefused
    · rfl
    · show forwarded (decideRules g.cb _ b w g.rules).2 = _
      rw [forwarded_decideRules, if_pos (Bool.and_eq_true_iff.mp hrefused).2]
    · show forwarded (decideRules g.cb _ b w g.rules).2 = _
      rw [bne_iff_ne.mpr hblank, Bool.true_and] at hrefused
      rw [forwarded_decideRules, if_neg hrefused]
  · rw [if_neg henter, Bool.eq_false_iff.mpr henter]
    rfl

theorem forwarded_byte_after (r : Rule) (rest : List Rule) (cb : Callbacks ω) (w : ω)
    (pre : List UInt8) (b : UInt8) :
    forwarded (Guard.byte (transduce Guard.byte (⟨r :: rest, cb, []⟩, w) pre).1 b).2 =
      [if refusedAt (r :: rest) cb w pre b then 0x15 else b] := by
  have hworld : worldAfter (r :: rest) cb w pre =
      (transduce Guard.byte (⟨r :: rest, cb, []⟩, w) pre).1.2 := rfl
  have hguard := guard_after (⟨r :: rest, cb, []⟩ : Guard ω) w rfl pre
  rw [refusedAt, hworld]
  generalize transduce Guard.byte ((⟨r :: rest, cb, []⟩ : Guard ω), w) pre = t at hguard
  obtain ⟨⟨g, w'⟩, effects⟩ := t
  subst hguard
  exact forwarded_byte _ w' b

theorem input_forward (rules : List Rule) (cb : Callbacks ω) (w : ω) (stream : List UInt8) :
    (input (newGuard rules cb, w) stream).2.forward =
      (before [] stream).map fun p => if refusedAt rules cb w p.1 p.2 then 0x15 else p.2 := by
  cases rules with
  | nil =>
    have hnever (p : List UInt8 × UInt8) : (if refusedAt [] cb w p.1 p.2 then 0x15 else p.2) =
        p.2 := by
      simp [refusedAt, refused, evaluate]
    simp only [hnever]
    exact (map_snd_before [] stream).symm
  | cons r rest =>
    show forwarded (transduce Guard.byte (⟨r :: rest, cb, []⟩, w) stream).2 = _
    rw [forwarded, transduce_flatMap, List.map_eq_flatMap]
    exact List.flatMap_congr fun p _ => forwarded_byte_after r rest cb w p.1 p.2

/-- **The stream law.** However the stream is cut into calls of `Input`, they return
the same bytes and notices and make the same callbacks as one call; and it is
forwarded unchanged, but for a kill-line in place of each Enter whose line is
refused. -/
theorem guard_stream_law (rules : List Rule) (cb : Callbacks ω) (w : ω)
    (chunks : List (List UInt8)) :
    feed (newGuard rules cb, w) chunks = input (newGuard rules cb, w) chunks.flatten ∧
    (input (newGuard rules cb, w) chunks.flatten).2.forward =
      (before [] chunks.flatten).map fun p => if refusedAt rules cb w p.1 p.2 then 0x15 else p.2 :=
  ⟨feed_eq_input _ chunks, input_forward rules cb w chunks.flatten⟩

theorem input_forward_eq_iff (rules : List Rule) (cb : Callbacks ω) (w : ω) (stream : List UInt8) :
    (input (newGuard rules cb, w) stream).2.forward = stream ↔
      ∀ p ∈ before [] stream, refusedAt rules cb w p.1 p.2 = false := by
  rw [input_forward]
  nth_rewrite 2 [← map_snd_before [] stream]
  rw [List.map_inj_left]
  refine forall₂_congr fun p _ => ?_
  constructor
  · intro hkept
    by_contra hrefused
    rw [if_pos (Bool.eq_true_of_not_eq_false hrefused)] at hkept
    have henter : isEnter p.2 := by
      simp only [refusedAt, Bool.not_eq_false, Bool.and_eq_true] at hrefused
      exact hrefused.1.1
    rw [← hkept] at henter
    exact absurd henter (by decide)
  · intro hallowed
    rw [hallowed]
    rfl

/-! ## The lines that are judged -/

def judgedLines (stream : List UInt8) : List String :=
  (before [] stream).flatMap fun p =>
    if isEnter p.2 && editedLine p.1 != "" then [editedLine p.1] else []

theorem mem_judgedLines {stream : List UInt8} {line : String} : line ∈ judgedLines stream ↔
      ∃ p ∈ before [] stream, isEnter p.2 ∧ editedLine p.1 ≠ "" ∧ editedLine p.1 = line := by
  unfold judgedLines
  rw [List.mem_flatMap]
  refine exists_congr fun p => and_congr_right fun _ => ?_
  constructor
  · intro hmem
    split_ifs at hmem with hjudged
    · simp only [Bool.and_eq_true, bne_iff_ne] at hjudged
      exact ⟨hjudged.1, hjudged.2, (List.mem_singleton.mp hmem).symm⟩
    · cases hmem
  · rintro ⟨henter, hline, rfl⟩
    rw [henter, bne_iff_ne.mpr hline]
    exact List.mem_singleton_self _

end

end Moorgate.Commandpolicy
