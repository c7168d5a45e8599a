import Moorgate.Framework.Base.Calls
import Moorgate.Framework.Base.Text
import Moorgate.Models.Ids

/-!
# One-time passwords: `VerifyUserTOTPNoReplay` of `auth/mfa.go`

A code is good for one time step of thirty seconds, and one step on either side.
`users.last_totp_step` is meant to make it good for one login. But the validation trims the code
and the search for its step does not; they read the clock one after the other; the stored step is
read and written in two statements; and a code without a step is accepted. So a step's code is
accepted once in the runs in which the search finds the only step the code was accepted for and
`SetTOTPLastStep` still finds an earlier one (`StepUsed`).
-/

namespace Moorgate.Auth

open Framework Models

/-- What the check takes from `DecryptSecret` and from the one-time password
library; `none` is an error. -/
structure Totp where
  decryptSecret : List UInt8 → Option String
  generateCode : String → ℤ → Option String

def unix (now : Instant) : ℤ := now / second

def window (cur : ℤ) : List ℤ := [cur - 1, cur, cur + 1]

/-- `ValidateTOTP`, with what is assumed of `totp.ValidateCustom`. -/
def validateTOTP (T : Totp) (now : Instant) (secret code : String) : Bool :=
  (window (unix now / 30)).any fun step => T.generateCode secret step = some (trimSpace code)

def matchTOTPStep (T : Totp) (now : Instant) (secret code : String) : Option ℤ :=
  -- division of `int64` truncates
  (window ((unix now).tdiv 30)).find? fun step => T.generateCode secret step = some code

def setTOTPLastStep (userID : UUID) (step : ℤ) (lastStep : UUID → ℤ) : UUID → ℤ :=
  if lastStep userID < step then Function.update lastStep userID step else lastStep

theorem setTOTPLastStep_mono (userID : UUID) (step : ℤ) (lastStep : UUID → ℤ) (u : UUID) :
    lastStep u ≤ setTOTPLastStep userID step lastStep u := by
  unfold setTOTPLastStep
  split
  · rename_i hlt
    by_cases hu : u = userID
    · subst hu
      rw [Function.update_self]
      exact le_of_lt hlt
    · rw [Function.update_of_ne hu]
  · exact le_refl _

theorem setTOTPLastStep_self {userID : UUID} {step : ℤ} {lastStep : UUID → ℤ}
    (hlt : lastStep userID < step) : setTOTPLastStep userID step lastStep userID = step := by
  rw [setTOTPLastStep, if_pos hlt, Function.update_self]

/-- What a statement takes from outside: the time, and whether the store
fails. -/
structure TotpInput where
  now : Instant
  fails : Bool

/-! ## The call statement by statement -/

structure TotpRequest where
  userID : UUID
  secrets : List (List UInt8)
  code : String

/-- What `ValidateTOTP` accepted: the secret, and the step of its clock. -/
structure Validated where
  secret : String
  cur : ℤ
deriving DecidableEq

/-- Where a call stands. The step that `matchTOTPStep` has found goes along. -/
inductive TotpPc where
  | checking (rest : List (List UInt8)) -- `DecryptSecret` and `ValidateTOTP` of the next secret
  | matching (v : Validated) -- `matchTOTPStep`
  | reading (v : Validated) (step : ℤ) -- `TOTPLastStep`
  | setting (v : Validated) (step : ℤ) -- `SetTOTPLastStep`
  | returned (accepted : Option Validated)

def totpStmt (T : Totp) (i : TotpInput) (q : TotpRequest) (lastStep : UUID → ℤ) :
    TotpPc → Option ((UUID → ℤ) × TotpPc)
  | .checking [] => some (lastStep, .returned none)
  | .checking (enc :: rest) =>
    match T.decryptSecret enc with
    | none => some (lastStep, .checking rest)
    | some sec =>
      if validateTOTP T i.now sec q.code = false then some (lastStep, .checking rest)
      else some (lastStep, .matching ⟨sec, unix i.now / 30⟩)
  | .matching v =>
    match matchTOTPStep T i.now v.secret q.code with
    | none => some (lastStep, .returned (some v))
    | some step => some (lastStep, .reading v step)
  | .reading v step =>
    if i.fails then some (lastStep, .returned (some v))
    else if step ≤ lastStep q.userID then some (lastStep, .returned none)
    else some (lastStep, .setting v step)
  | .setting v step =>
    -- the outcome of the statement is ignored
    some (if i.fails then lastStep else setTOTPLastStep q.userID step lastStep, .returned (some v))
  | .returned _ => none

structure TotpCall where
  request : TotpRequest
  pc : TotpPc

structure TotpStore where
  clock : Instant
  lastStep : UUID → ℤ

def totpStart (q : TotpRequest) : TotpCall := ⟨q, .checking q.secrets⟩

/-- Time does not go back. -/
def totpAct (T : Totp) (i : TotpInput) (b : TotpStore) (call : TotpCall) :
    Option (TotpStore × TotpCall) :=
  if b.clock ≤ i.now then
    (totpStmt T i call.request b.lastStep call.pc).map fun next =>
      (⟨i.now, next.1⟩, ⟨call.request, next.2⟩)
  else none

abbrev TotpPool := Pool TotpStore TotpCall
abbrev TotpMove := Move TotpRequest TotpInput

def totpStep (T : Totp) : TotpPool → TotpMove → Option TotpPool := poolStep totpStart (totpAct T)

variable {T : Totp}

variable {s s' : TotpPool} {m : TotpMove}

/-! ## The codes that are accepted -/

def TotpPc.accepted : TotpPc → Option Validated
  | .returned r => r
  | _ => none

def Validated.isCodeOf (T : Totp) (v : Validated) (code : String) (k : ℤ) : Prop :=
  k ∈ window v.cur ∧ T.generateCode v.secret k = some (trimSpace code)

instance (v : Validated) (code : String) (k : ℤ) : Decidable (v.isCodeOf T code k) :=
  inferInstanceAs (Decidable (_ ∧ _))

/-- The secret is one of those the call was given, and the code is one of its
codes. -/
def Validated.vouched (T : Totp) (q : TotpRequest) (v : Validated) : Prop :=
  (∃ enc ∈ q.secrets, T.decryptSecret enc = some v.secret) ∧ ∃ k, v.isCodeOf T q.code k

/-- What a call that goes on to accept has found. -/
def TotpPc.vouched (T : Totp) (q : TotpRequest) : TotpPc → Prop
  | .checking rest => ∀ enc ∈ rest, enc ∈ q.secrets
  | .matching v | .reading v _ | .setting v _ => v.vouched T q
  | .returned r => ∀ v ∈ r, v.vouched T q

theorem exists_isCodeOf_of_validateTOTP {now : Instant} {secret code : String}
    (h : validateTOTP T now secret code ≠ false) :
    ∃ k, (⟨secret, unix now / 30⟩ : Validated).isCodeOf T code k := by
  obtain ⟨k, hmem, hcode⟩ := List.any_eq_true.mp (Bool.of_not_eq_false h)
  exact ⟨k, hmem, of_decide_eq_true hcode⟩

variable {i : TotpInput} {q : TotpRequest} {last last' : UUID → ℤ} {pc pc' : TotpPc}

theorem totpStmt_vouched (hpc : pc.vouched T q)
    (hstmt : totpStmt T i q last pc = some (last', pc')) : pc'.vouched T q := by
  revert hstmt
  fun_cases totpStmt T i q last pc with
  | case2 enc rest | case3 enc rest =>
    rintro ⟨⟩
    exact fun enc henc => hpc enc (List.mem_cons_of_mem _ henc)
  | case4 enc rest sec hdec hval =>
    rintro ⟨⟩
    exact ⟨⟨enc, hpc enc List.mem_cons_self, hdec⟩, exists_isCodeOf_of_validateTOTP hval⟩
  | case6 | case9 =>
    rintro ⟨⟩
    exact hpc
  | case5 | case7 | case10 =>
    rintro ⟨⟩ v' ⟨⟩
    exact hpc
  | case1 | case8 =>
    rintro ⟨⟩
    exact fun v hv => (nomatch hv)
  | case11 => exact nofun

def TotpCall.accepts (T : Totp) (call : TotpCall) (k : ℤ) : Prop :=
  ∃ v ∈ call.pc.accepted, v.isCodeOf T call.request.code k

instance (call : TotpCall) (k : ℤ) : Decidable (call.accepts T k) :=
  inferInstanceAs (Decidable (∃ v ∈ call.pc.accepted, v.isCodeOf T call.request.code k))

/-- The code is that of `step` and of no other step. -/
def Validated.onlyCodeOf (T : Totp) (v : Validated) (code : String) (step : ℤ) : Prop :=
  ∀ k ∈ window v.cur, T.generateCode v.secret k = some (trimSpace code) → k = step

instance (v : Validated) (code : String) (step : ℤ) : Decidable (v.onlyCodeOf T code step) :=
  inferInstanceAs (Decidable (∀ k ∈ window v.cur, _ → _))

/-- What keeps the code of a call from being accepted again: `matchTOTPStep`
finds the only step the code can be of, and `SetTOTPLastStep` moves the stored
step forward to it. -/
def TotpPc.stepUsed (T : Totp) (i : TotpInput) (q : TotpRequest) (lastStep : UUID → ℤ) :
    TotpPc → Prop
  | .matching v => ∃ step ∈ matchTOTPStep T i.now v.secret q.code, v.onlyCodeOf T q.code step
  | .setting _ step => lastStep q.userID < step
  | _ => True

instance (i : TotpInput) (q : TotpRequest) (lastStep : UUID → ℤ) (pc : TotpPc) :
    Decidable (TotpPc.stepUsed T i q lastStep pc) := by
  unfold TotpPc.stepUsed
  split <;> infer_instance

/-- The store does not fail, and the step is used up. -/
def StepUsed (T : Totp) (s : TotpPool) : TotpMove → Prop
  | .begin _ => True
  | .advance c i => i.fails = false ∧
      ∀ call ∈ s.call c, call.pc.stepUsed T i call.request s.store.lastStep

instance (s : TotpPool) (m : TotpMove) : Decidable (StepUsed T s m) := by
  unfold StepUsed
  split <;> infer_instance

/-- The step a call carries along is the only one its code can be of. -/
def TotpCall.stepFound (T : Totp) (call : TotpCall) : Prop :=
  match call.pc with
  | .reading v step | .setting v step => v.onlyCodeOf T call.request.code step
  | _ => True

structure OnceOnly (T : Totp) (s : TotpPool) : Prop where
  found : ∀ call ∈ s.calls, call.stepFound T
  stored : ∀ call ∈ s.calls, ∀ k, call.accepts T k → k ≤ s.store.lastStep call.request.userID
  once : ∀ {c d p q}, c ≠ d → s.call c = some p → s.call d = some q →
    p.request.userID = q.request.userID → ∀ k, p.accepts T k → ¬ q.accepts T k

theorem TotpCall.not_accepts {call : TotpCall} (h : call.pc.accepted = none) (k : ℤ) :
    ¬ call.accepts T k := by
  rintro ⟨v, hv, -⟩
  rw [h] at hv
  cases hv

/-- A call that comes to accept a code accepts that of a step after the one
stored before, and no other step than the one stored then. -/
theorem totpStmt_accepts (hok : i.fails = false) (hused : pc.stepUsed T i q last)
    (hfound : TotpCall.stepFound T ⟨q, pc⟩) (hstmt : totpStmt T i q last pc = some (last', pc')) :
    TotpCall.stepFound T ⟨q, pc'⟩ ∧ (∀ u, last u ≤ last' u) ∧
      ∀ k, TotpCall.accepts T ⟨q, pc'⟩ k → last q.userID < k ∧ k ≤ last' q.userID := by
  -- every statement but the last one leaves the stored steps and accepts nothing
  have hquiet {pc' : TotpPc} (hfound' : TotpCall.stepFound T ⟨q, pc'⟩)
      (hpc' : pc'.accepted = none) : TotpCall.stepFound T ⟨q, pc'⟩ ∧ (∀ u, last u ≤ last u) ∧
        ∀ k, TotpCall.accepts T ⟨q, pc'⟩ k → last q.userID < k ∧ k ≤ last q.userID :=
    ⟨hfound', fun u => le_refl _, fun k hk => absurd hk (TotpCall.not_accepts hpc' k)⟩
  revert hstmt
  fun_cases totpStmt T i q last pc with
  | case5 v hnone =>
    obtain ⟨step, hmatch, -⟩ := hused
    cases hnone.symm.trans hmatch
  | case6 v step hsome =>
    obtain ⟨step', hmatch, honly⟩ := hused
    cases hsome.symm.trans hmatch
    rintro ⟨⟩
    exact hquiet honly rfl
  | case7 v step hfails => cases hok.symm.trans hfails
  | case9 =>
    rintro ⟨⟩
    exact hquiet hfound rfl
  | case10 v step =>
    rw [hok]
    rintro ⟨⟩
    refine ⟨trivial, setTOTPLastStep_mono q.userID step last, ?_⟩
    rintro k ⟨v', hv', hmem, hcode⟩
    cases hv'
    obtain rfl := hfound k hmem hcode
    exact ⟨hused, le_of_eq (setTOTPLastStep_self hused).symm⟩
  | case11 => exact nofun
  | _ =>
    rintro ⟨⟩
    exact hquiet trivial rfl

theorem totpStep_onceOnly (hi : OnceOnly T s)
    (hused : StepUsed T s m) (hstep : totpStep T s m = some s') : OnceOnly T s' := by
  have hsymm {p q : TotpCall}
      (h : p.request.userID = q.request.userID → ∀ k, p.accepts T k → ¬ q.accepts T k) :
      q.request.userID = p.request.userID → ∀ k, q.accepts T k → ¬ p.accepts T k :=
    fun huser k hq hp => h huser.symm k hp hq
  rcases poolStep_cases hstep with ⟨q, rfl, rfl⟩ | ⟨c, i, ⟨q, pc⟩, st, p', rfl, hc, hact, rfl⟩
  · have hnew : ∀ k, ¬ (totpStart q).accepts T k := TotpCall.not_accepts rfl
    constructor
    · exact Pool.forall_enter hi.found trivial
    · exact Pool.forall_enter hi.stored fun k hk => absurd hk (hnew k)
    · exact Pool.pair_enter hsymm hi.once fun r _ _ k hk => absurd hk (hnew k)
  · obtain ⟨-, hact⟩ := Option.ite_none_right_eq_some.mp hact
    obtain ⟨⟨last, pc'⟩, hstmt, ⟨⟩⟩ := Option.map_eq_some_iff.mp hact
    obtain ⟨hfound, hmono, hacc⟩ :=
      totpStmt_accepts hused.1 (hused.2 _ hc) (hi.found _ (Pool.mem_of_call hc)) hstmt
    constructor
    · exact Pool.forall_put hi.found hfound
    · refine Pool.forall_put ?_ fun k hk => (hacc k hk).2
      intro call hcall k hk
      exact (hi.stored call hcall k hk).trans (hmono _)
    · refine Pool.pair_put hsymm hi.once ?_
      -- the others have accepted steps up to the stored one, this call one after it
      intro d r _ hr huser k hk hrk
      have hle := hi.stored r (Pool.mem_of_call hr) k hrk
      rw [← huser] at hle
      exact absurd (hacc k hk).1 (not_lt.mpr hle)

/-- **One-time use** in the runs in which every accepted step is used up: the
code of a time step is accepted by at most one call of a user. -/
theorem totp_step_accepted_once (T : Totp) (b : TotpStore) (s : TotpPool) (moves : List TotpMove)
    (hrun : exec (totpStep T) ⟨b, []⟩ moves = some s)
    (hg : Guarded (totpStep T) (StepUsed T) ⟨b, []⟩ moves) (c d : ℕ) (p q : TotpCall)
    (hne : c ≠ d) (hp : s.call c = some p) (hq : s.call d = some q)
    (huser : p.request.userID = q.request.userID) (k : ℤ) : ¬ (p.accepts T k ∧ q.accepts T k) := by
  have hstart : OnceOnly T ⟨b, []⟩ :=
    ⟨fun _ h => (nomatch h), fun _ h => (nomatch h), fun _ hp => (nomatch hp)⟩
  have hi : OnceOnly T s := exec_invariant totpStep_onceOnly hg hrun hstart
  rintro ⟨hpk, hqk⟩
  exact hi.once hne hp hq huser k hpk hqk

/-- The code of a step is its number. -/
def countingTotp : Totp := ⟨fun _ => some "S", fun _ step => some (toString step)⟩

def freshSteps : TotpStore := ⟨0, fun _ => 0⟩

def typed (code : String) : TotpMove := .begin ⟨⟨7⟩, [[]], code⟩

/-- The next statement of the call `c` in the hundredth step. -/
def totpMove (c : ℕ) : TotpMove := .advance c ⟨100 * 30 * second, false⟩

/-- A code, the same one again, and that of the next step. -/
def codesInTurn : List TotpMove :=
  [typed "100", totpMove 0, totpMove 0, totpMove 0, totpMove 0,
    typed "100", totpMove 1, totpMove 1, totpMove 1,
    typed "101", totpMove 2, totpMove 2, totpMove 2, totpMove 2]

theorem totp_step_accepted_once_in_turn : ∃ s p q,
    exec (totpStep countingTotp) ⟨freshSteps, []⟩ codesInTurn = some s ∧
    s.call 0 = some p ∧ s.call 1 = some q ∧ p.accepts countingTotp 100 ∧
    ¬ (p.accepts countingTotp 100 ∧ q.accepts countingTotp 100) := by
  refine ⟨_, _, _, rfl, rfl, rfl, by decide +kernel, ?_⟩
  exact totp_step_accepted_once countingTotp freshSteps _ codesInTurn rfl
    (by decide +kernel) 0 1 _ _ (by decide) rfl rfl rfl 100

/-- A code with a blank after it, and two calls that both read the stored step
before either writes: accepted twice. -/
theorem totp_step_accepted_twice : (∃ s p q, exec (totpStep countingTotp) ⟨freshSteps, []⟩
        [typed "100 ", totpMove 0, totpMove 0, typed "100 ", totpMove 1, totpMove 1] = some s ∧
      s.call 0 = some p ∧ s.call 1 = some q ∧ p.accepts countingTotp 100 ∧
      q.accepts countingTotp 100) ∧
    (∃ s p q, exec (totpStep countingTotp) ⟨freshSteps, []⟩
        [typed "100", typed "100", totpMove 0, totpMove 1, totpMove 0, totpMove 1, totpMove 0,
          totpMove 1, totpMove 0, totpMove 1] = some s ∧ s.call 0 = some p ∧ s.call 1 = some q ∧
      p.accepts countingTotp 100 ∧ q.accepts countingTotp 100) :=
  ⟨⟨_, _, _, rfl, rfl, rfl, by decide +kernel, by decide +kernel⟩,
    ⟨_, _, _, rfl, rfl, rfl, by decide +kernel, by decide +kernel⟩⟩

end Moorgate.Auth
