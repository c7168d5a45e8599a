import Mathlib.Data.PNat.Basic
import Mathlib.Tactic

/-!
# Readers

A reader hands out its content piece by piece, each time at most as many elements as it was asked
for, until it reports the end or fails. `Serves` relates a reader to the content each of its states
still has. From it, for every sequence of buffer sizes, the pieces up to the end are that content,
and the end is reached (`readsTo_iff`).
-/

namespace Moorgate.Framework

variable {σ ε α : Type*}

inductive ReadResult (σ ε α : Type*) where
  | piece (p : List α) (s : σ)
  | eof
  | failed (err : ε)

/-- Reads at most `fuel` times; `none` when the end was not reached by then. -/
def drain (read : ℕ → σ → ReadResult σ ε α) : (sizes : ℕ → ℕ+) → (fuel : ℕ) → σ →
    Option (Except ε (List α))
  | _, 0, _ => none
  | sizes, fuel + 1, s =>
    match read (sizes 0) s with
    | .eof => some (.ok [])
    | .failed err => some (.error err)
    | .piece p s' => (drain read (fun i => sizes (i + 1)) fuel s').map (Except.map (p ++ ·))

/-- Reading to the end with buffers of these sizes comes to `r`. -/
def ReadsTo (read : ℕ → σ → ReadResult σ ε α) (sizes : ℕ → ℕ+) (s : σ)
    (r : Except ε (List α)) : Prop :=
  ∃ fuel, drain read sizes fuel s = some r

/-- `content s` is what the reader still hands out from `s` on, and a piece that
was asked for with room brings the end nearer. -/
structure Serves (read : ℕ → σ → ReadResult σ ε α) (content : σ → Except ε (List α))
    (nearer : σ → σ → Prop) : Prop where
  wf : WellFounded nearer
  eof : ∀ {n s}, read n s = .eof → content s = .ok []
  failed : ∀ {n s err}, read n s = .failed err → content s = .error err
  piece : ∀ {n s p s'}, read n s = .piece p s' → content s = (content s').map (p ++ ·)
  progress : ∀ {n s p s'}, 0 < n → read n s = .piece p s' → nearer s' s

namespace Serves

variable {read : ℕ → σ → ReadResult σ ε α} {content : σ → Except ε (List α)} {nearer : σ → σ → Prop}

variable {sizes : ℕ → ℕ+} {s : σ} {r : Except ε (List α)}

theorem drain_eq (h : Serves read content nearer) {fuel : ℕ}
    (hr : drain read sizes fuel s = some r) : content s = r := by
  induction fuel generalizing sizes s r with
  | zero => cases hr
  | succ fuel ih =>
    rw [drain] at hr
    split at hr
    · rename_i heof
      cases hr
      exact h.eof heof
    · rename_i err hfailed
      cases hr
      exact h.failed hfailed
    · rename_i p s' hpiece
      obtain ⟨rest, hrest, rfl⟩ := Option.map_eq_some_iff.mp hr
      rw [h.piece hpiece, ih hrest]

theorem exists_drain (h : Serves read content nearer) (sizes : ℕ → ℕ+) (s : σ) :
    ∃ fuel, drain read sizes fuel s = some (content s) := by
  induction s using h.wf.induction generalizing sizes with
  | _ s ih =>
    cases hread : read (sizes 0) s with
    | eof => exact ⟨1, by rw [drain, hread, h.eof hread]⟩
    | failed err => exact ⟨1, by rw [drain, hread, h.failed hread]⟩
    | piece p s' =>
      obtain ⟨fuel, hfuel⟩ := ih s' (h.progress (sizes 0).pos hread) fun i => sizes (i + 1)
      refine ⟨fuel + 1, ?_⟩
      rw [drain, hread]
      dsimp only
      rw [hfuel, h.piece hread, Option.map_some]

/-- **Whatever the buffers, reading to the end gives the content.** -/
theorem readsTo_iff (h : Serves read content nearer) : ReadsTo read sizes s r ↔ content s = r := by
  constructor
  · rintro ⟨fuel, hfuel⟩
    exact h.drain_eq hfuel
  · rintro rfl
    exact h.exists_drain sizes s

end Serves

end Moorgate.Framework
