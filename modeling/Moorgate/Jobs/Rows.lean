import Moorgate.Framework.Base.Civil
import Moorgate.Framework.Base.Utf8

/-!
# The rows of background jobs

Command runs, PowerShell runs, playbook runs and vulnerability scans each have a row with a status,
which its runner sets to `running` first and to `completed` or `failed` last. A text that is no
UTF-8 or has a NUL byte makes the statement fail, and so does an exit code that is no `INT`. The
output of a run is collected in a buffer that stops at 4 MiB, at whatever byte that is.
-/

namespace Moorgate.Jobs

open Framework

inductive RunStatus where
  | pending | running | completed | failed
deriving DecidableEq

def RunStatus.terminal : RunStatus → Bool
  | .completed | .failed => true
  | .pending | .running => false

structure RunRow where
  status : RunStatus
  output : ByteString
  exitCode : Option ℤ
  error : ByteString
deriving DecidableEq

def created : RunRow := ⟨.pending, [], none, []⟩

/-! ## What the database accepts -/

def Accepted (text : ByteString) : Prop := Utf8 text ∧ 0 ∉ text

instance : DecidablePred Accepted := fun _ => instDecidableAnd

def fitsInt (n : ℤ) : Bool := decide (-2 ^ 31 ≤ n ∧ n < 2 ^ 31)

def NulFree (s : String) : Prop := '\x00' ∉ s.toList

instance : DecidablePred NulFree := fun s => inferInstanceAs (Decidable ('\x00' ∉ s.toList))

theorem accepted_utf8 {s : String} (h : NulFree s) : Accepted (utf8 s) :=
  ⟨utf8_utf8 s, fun h0 => h (zero_mem_utf8_iff.mp h0)⟩

theorem NulFree.append {s t : String} (hs : NulFree s) (ht : NulFree t) : NulFree (s ++ t) := by
  unfold NulFree
  rw [String.toList_append, List.mem_append, not_or]
  exact ⟨hs, ht⟩

theorem nulFree_toString (n : ℕ) : NulFree (toString n) := by
  intro h
  have hdigits : (toString n).toList = Nat.toDigits 10 n := by
    show (Nat.repr n).toList = _
    simp [Nat.repr]
  rw [hdigits] at h
  have hdigit := Nat.isDigit_of_mem_toDigits (by decide) (by decide) h
  revert hdigit
  decide

theorem nulFree_toString_int (n : ℤ) : NulFree (toString n) := by
  cases n with
  | ofNat n => exact nulFree_toString n
  | negSucc n => exact NulFree.append (s := "-") (by decide) (nulFree_toString (n + 1))

theorem nulFree_zeroPad (width n : ℕ) : NulFree (zeroPad width n) := by
  refine NulFree.append ?_ (nulFree_toString n)
  intro h
  rw [String.toList_ofList, List.mem_replicate] at h
  exact absurd h.2 (by decide)

theorem nulFree_fracText (places v : ℕ) : NulFree (fracText places v) := by
  unfold fracText
  split
  · decide
  refine NulFree.append (by decide) ?_
  intro h
  rw [String.toList_ofList, List.mem_reverse] at h
  exact nulFree_zeroPad places v (List.mem_reverse.mp (List.dropWhile_subset _ h))

theorem nulFree_absDurationText (u : ℕ) : NulFree (absDurationText u) := by
  have hlit : NulFree "0s" ∧ NulFree "ns" ∧ NulFree "µs" ∧ NulFree "ms" ∧ NulFree "h" ∧
      NulFree "m" ∧ NulFree "s" ∧ NulFree "" := by
    decide
  obtain ⟨hzero, hns, hus, hms, hh, hm, hs, hempty⟩ := hlit
  have hunit {b : Prop} [Decidable b] {n : ℕ} {unit : String} (hu : NulFree unit) :
      NulFree (if b then toString n ++ unit else "") := by
    split
    · exact (nulFree_toString n).append hu
    · exact hempty
  unfold absDurationText
  split
  · exact hzero
  split
  · exact (nulFree_toString u).append hns
  split
  · exact ((nulFree_toString _).append (nulFree_fracText 3 _)).append hus
  · split
    · exact ((nulFree_toString _).append (nulFree_fracText 6 _)).append hms
    · exact ((((hunit hh).append (hunit hm)).append (nulFree_toString _)).append
        (nulFree_fracText 9 _)).append hs

theorem nulFree_durationText (nanos : ℤ) : NulFree (durationText nanos) := by
  unfold durationText
  split
  · exact NulFree.append (by decide) (nulFree_absDurationText _)
  · exact nulFree_absDurationText _

theorem accepted_append_cons_iff {a b : ByteString} {x : UInt8} (hx : x < 128) (hx0 : x ≠ 0) :
    Accepted (a ++ x :: b) ↔ Accepted a ∧ Accepted b := by
  unfold Accepted
  rw [utf8_append_cons_iff hx, List.mem_append, List.mem_cons]
  constructor
  · rintro ⟨⟨ha, hb⟩, h0⟩
    exact ⟨⟨ha, fun h => h0 (.inl h)⟩, hb, fun h => h0 (.inr (.inr h))⟩
  · rintro ⟨⟨ha, ha0⟩, hb, hb0⟩
    refine ⟨⟨ha, hb⟩, ?_⟩
    rintro (h | h | h)
    · exact ha0 h
    · exact hx0 h.symm
    · exact hb0 h

/-- What stands before and after some ASCII is judged apart. -/
theorem accepted_append_ascii_iff {a t b : ByteString} (ht : t ≠ [])
    (hascii : ∀ x ∈ t, x < 128 ∧ x ≠ 0) : Accepted (a ++ (t ++ b)) ↔ Accepted a ∧ Accepted b := by
  induction t generalizing a with
  | nil => exact absurd rfl ht
  | cons x t ih =>
    obtain ⟨hx, hx0⟩ := hascii x List.mem_cons_self
    rw [List.cons_append, accepted_append_cons_iff hx hx0]
    cases t with
    | nil => rfl
    | cons y t =>
      have hrest :=
        ih (a := []) (List.cons_ne_nil y t) fun z hz => hascii z (List.mem_cons_of_mem x hz)
      rw [List.nil_append] at hrest
      rw [hrest, and_iff_right (show Accepted [] by decide)]

/-! ## Statements -/

/-- `UPDATE … SET status='running'`, in the context of the run. -/
def startRun (expired : Bool) (row : RunRow) : RunRow :=
  if expired then row else { row with status := .running }

/-- The final `UPDATE`, in a context of its own. Its error is logged, or dropped. -/
def completeRun (row : RunRow) (status : RunStatus) (output : ByteString) (exitCode : Option ℤ)
    (errMsg : ByteString) : RunRow :=
  if Accepted output ∧ Accepted errMsg ∧ exitCode.all fitsInt then ⟨status, output, exitCode,
    errMsg⟩ else row

theorem terminal_startRun (expired : Bool) :
    (startRun expired created).status.terminal = false := by
  cases expired <;> rfl

theorem terminal_completeRun {row : RunRow} {status : RunStatus} {output : ByteString}
    {exitCode : Option ℤ} {errMsg : ByteString} (hrow : row.status.terminal = false)
    (hstatus : status.terminal) : (completeRun row status output exitCode errMsg).status.terminal ↔
      Accepted output ∧ Accepted errMsg ∧ exitCode.all fitsInt := by
  unfold completeRun
  split
  · next h => exact ⟨fun _ => h, fun _ => hstatus⟩
  · rename_i h
    rw [hrow]
    exact ⟨nofun, fun hall => absurd hall h⟩

/-- When the run's own timeout is over: before the statement with this number. -/
abbrev Timeout := Option ℕ

def Timeout.passed (t : Timeout) (n : ℕ) : Bool := t.any fun k => decide (k ≤ n)

/-! ## The output buffer -/

structure LiveRun where
  buf : ByteString
  truncated : Bool

def LiveRun.empty : LiveRun := ⟨[], false⟩

/-- `maxCommandOutput`, `maxScriptOutput` and `maxPlaybookOutput`: 4 MiB. -/
def maxOutput : ℕ := 4 * 2 ^ 20

def truncationNotice : ByteString := utf8 "\n[output truncated: exceeded 4 MiB]\n"

def LiveRun.append (l : LiveRun) (s : ByteString) : LiveRun :=
  if l.truncated then l
  else if maxOutput < l.buf.length + s.length then ⟨l.buf ++ s.take (maxOutput - l.buf.length) ++
    truncationNotice, true⟩
  else ⟨l.buf ++ s, false⟩

def joined (pieces : List ByteString) : LiveRun := pieces.foldl LiveRun.append .empty

variable (pieces : List ByteString)

theorem foldl_append_truncated (buf : ByteString) :
    pieces.foldl LiveRun.append ⟨buf, true⟩ = ⟨buf, true⟩ := by
  induction pieces with
  | nil => rfl
  | cons s pieces ih =>
    exact ih

theorem foldl_append_eq {buf : ByteString} (hbuf : buf.length ≤ maxOutput) :
    pieces.foldl LiveRun.append ⟨buf, false⟩ =
      if (buf ++ pieces.flatten).length ≤ maxOutput then ⟨buf ++ pieces.flatten, false⟩
      else ⟨(buf ++ pieces.flatten).take maxOutput ++ truncationNotice, true⟩ := by
  induction pieces generalizing buf with
  | nil => simp [hbuf]
  | cons s pieces ih =>
    rw [List.foldl_cons, List.flatten_cons]
    by_cases hs : maxOutput < buf.length + s.length
    · -- the piece that does not fit ends the output
      have hstep : LiveRun.append ⟨buf, false⟩ s =
          ⟨buf ++ s.take (maxOutput - buf.length) ++ truncationNotice, true⟩ := by
        simp [LiveRun.append, hs]
      have hlong : ¬ (buf ++ (s ++ pieces.flatten)).length ≤ maxOutput := by
        simp only [List.length_append]
        omega
      rw [hstep, foldl_append_truncated, if_neg hlong, List.take_append,
        List.take_of_length_le hbuf, List.take_append_of_le_length (by omega)]
    · have hstep : LiveRun.append ⟨buf, false⟩ s = ⟨buf ++ s, false⟩ := by simp [LiveRun.append, hs]
      rw [hstep, ih (by simp only [List.length_append]; omega), List.append_assoc]

theorem truncationNotice_ascii :
    truncationNotice ≠ [] ∧ ∀ x ∈ truncationNotice, x < 128 ∧ x ≠ 0 := by
  decide +kernel

/-- The output is accepted exactly when its first 4 MiB are. -/
theorem accepted_joined_iff :
    Accepted (joined pieces).buf ↔ Accepted (pieces.flatten.take maxOutput) := by
  unfold joined LiveRun.empty
  rw [foldl_append_eq pieces (Nat.zero_le _), List.nil_append]
  split
  · next hle => rw [List.take_of_length_le hle]
  have hnotice := accepted_append_ascii_iff (a := pieces.flatten.take maxOutput)
      (b := []) truncationNotice_ascii.1
    truncationNotice_ascii.2
  rw [List.append_nil] at hnotice
  rw [hnotice, and_iff_left (show Accepted [] by decide)]

end Moorgate.Jobs
