import Mathlib.Data.List.Sort
import Moorgate.Framework.Base.Table
import Moorgate.Models.Ids

/-!
# Second factors and recovery codes: `store/mfa.go`, `store/recovery.go`

Every function is one statement or one transaction. A factor that is confirmed
stays so under the statements here, and a recovery code that is used stays used.
-/

namespace Moorgate.Store

open Framework Models

inductive FactorKind where
  | totp | webauthn
deriving DecidableEq

structure MfaMethod where
  (id userId : UUID)
  kind : FactorKind
  label : String
  secret : List UInt8
  confirmed : Bool
  createdAt : Instant
deriving DecidableEq

abbrev MfaMethods := Table MfaMethod.id

def MfaMethod.pendingFor (userID : UUID) (m : MfaMethod) : Bool :=
  decide (m.userId = userID) && decide (m.kind = .totp) && !m.confirmed

/-- `none` when the id is taken. -/
def createTOTPPending (now : Instant) (newID userID : UUID) (label : String)
    (encSecret : List UInt8) (t : MfaMethods) : Option MfaMethods :=
  (t.delete (MfaMethod.pendingFor userID)).insert
    { id := newID, userId := userID, kind := .totp, label, secret := encSecret, confirmed := false
      createdAt := now }

/-- `ORDER BY created_at DESC LIMIT 1` -/
def pendingTOTPSecret (userID : UUID) (t : MfaMethods) : Option (List UInt8 × UUID) :=
  ((t.select (MfaMethod.pendingFor userID)).insertionSort
    fun m n => m.createdAt ≥ n.createdAt).head?.map fun m => (m.secret, m.id)

def confirmMFA (userID id : UUID) (t : MfaMethods) : MfaMethods :=
  t.update (fun m => decide (m.id = id) && decide (m.userId = userID))
    (fun m => { m with confirmed := true }) fun _ => rfl

def confirmedTOTPSecrets (userID : UUID) (t : MfaMethods) : List (List UInt8) :=
  (t.select fun m => decide (m.userId = userID) && decide (m.kind = .totp) && m.confirmed).map
    MfaMethod.secret

def hasConfirmedMFA (userID : UUID) (t : MfaMethods) : Bool :=
  t.rows.any fun m => decide (m.userId = userID) && m.confirmed

variable {userID : UUID} {t : MfaMethods}

theorem hasConfirmedMFA_iff :
    hasConfirmedMFA userID t ↔ ∃ m ∈ t.rows, m.userId = userID ∧ m.confirmed := by
  simp [hasConfirmedMFA]

theorem mem_confirmedTOTPSecrets {sec : List UInt8} : sec ∈ confirmedTOTPSecrets userID t ↔
      ∃ m ∈ t.rows, m.userId = userID ∧ m.kind = .totp ∧ m.confirmed ∧ m.secret = sec := by
  simp only [confirmedTOTPSecrets, List.mem_map, Table.mem_select, Bool.and_eq_true,
    decide_eq_true_eq]
  constructor
  · rintro ⟨m, ⟨hm, ⟨hu, hk⟩, hc⟩, rfl⟩
    exact ⟨m, hm, hu, hk, hc, rfl⟩
  · rintro ⟨m, hm, hu, hk, hc, rfl⟩
    exact ⟨m, ⟨hm, ⟨hu, hk⟩, hc⟩, rfl⟩

variable {now : Instant}

theorem hasConfirmedMFA_createTOTPPending {newID : UUID} {label : String} {encSecret : List UInt8}
    {t' : MfaMethods} (h : createTOTPPending now newID userID label encSecret t = some t')
    {u : UUID} (hu : hasConfirmedMFA u t) : hasConfirmedMFA u t' := by
  rw [hasConfirmedMFA_iff] at hu ⊢
  obtain ⟨m, hm, huser, hconf⟩ := hu
  refine ⟨m, (Table.mem_insert h).mpr (.inl (Table.mem_delete.mpr ⟨hm, ?_⟩)), huser, hconf⟩
  simp [MfaMethod.pendingFor, hconf]

theorem hasConfirmedMFA_confirmMFA (userID id : UUID) {u : UUID}
    (hu : hasConfirmedMFA u t) : hasConfirmedMFA u (confirmMFA userID id t) := by
  rw [hasConfirmedMFA_iff] at hu ⊢
  obtain ⟨m, hm, huser, hconf⟩ := hu
  refine ⟨_, Table.mem_update.mpr ⟨m, hm, rfl⟩, ?_, ?_⟩
  · split
    · exact huser
    · exact huser
  · split
    · rfl
    · exact hconf

structure RecoveryCode where
  (id userId : UUID)
  codeHash : String
  usedAt : Option Instant
deriving DecidableEq

abbrev RecoveryCodes := Table RecoveryCode.id

def RecoveryCode.unusedFor (userID : UUID) (hash : String) (r : RecoveryCode) : Bool :=
  decide (r.userId = userID) && decide (r.codeHash = hash) && r.usedAt.isNone

/-- The rows that the statement finds, and the table it leaves. -/
def consumeRecoveryCode (now : Instant) (userID : UUID) (hash : String) (t : RecoveryCodes) :
    List RecoveryCode × RecoveryCodes :=
  (t.select (RecoveryCode.unusedFor userID hash),
    t.update (RecoveryCode.unusedFor userID hash) (fun r => { r with usedAt := some now })
    fun _ => rfl)

variable {t : RecoveryCodes} {r : RecoveryCode}

theorem mem_consumeRecoveryCode_of_used {hash : String} (hr : r ∈ t.rows)
    (hused : r.usedAt.isSome) : r ∈ (consumeRecoveryCode now userID hash t).2.rows := by
  have hnot : RecoveryCode.unusedFor userID hash r = false := by
    rw [RecoveryCode.unusedFor, Option.isNone_eq_false_iff.mpr hused, Bool.and_false]
  unfold consumeRecoveryCode
  rw [Table.mem_update]
  exact ⟨r, hr, by simp [hnot]⟩

theorem consumeRecoveryCode_found {hash : String}
    (hr : r ∈ (consumeRecoveryCode now userID hash t).1) :
    r.userId = userID ∧ r.codeHash = hash ∧ r.usedAt = none ∧
      { r with usedAt := some now } ∈ (consumeRecoveryCode now userID hash t).2.rows := by
  obtain ⟨hmem, hunused⟩ := Table.mem_select.mp hr
  have hrow : { r with usedAt := some now } ∈ (consumeRecoveryCode now userID hash t).2.rows := by
    unfold consumeRecoveryCode
    rw [Table.mem_update]
    exact ⟨r, hmem, if_pos hunused⟩
  simp only [RecoveryCode.unusedFor, Bool.and_eq_true, decide_eq_true_eq,
    Option.isNone_iff_eq_none] at hunused
  obtain ⟨⟨huser, hhash⟩, hnone⟩ := hunused
  exact ⟨huser, hhash, hnone, hrow⟩

end Moorgate.Store
