import Mathlib.Data.List.Basic
import Moorgate.Framework.Base.Civil

/-!
# A memory that forgets

Keys are remembered up to an instant of their own. To observe a key is to ask whether it
is remembered and, if it is not, to remember it for `ttl` from now on; what has expired
is evicted on the way.

`Known` is what a user of the memory relies on. Every operation keeps it, and a key that
is taken for new can have been known only up to now (`Known.le_of_fresh`).
-/

namespace Moorgate.Framework

/-- The instant up to which a key is remembered. -/
abbrev Expiring (κ : Type*) := κ → Option Instant

namespace Expiring

variable {κ : Type*}

section

variable (ttl : Duration) (now : Instant)

/-- Forget what has expired before now. -/
def evict (m : Expiring κ) : Expiring κ := fun k => (m k).filter fun expiry => decide (now ≤ expiry)

variable [DecidableEq κ]

/-- Whether the key is remembered, and the memory afterwards. -/
def observe (m : Expiring κ) (k : κ) : Bool × Expiring κ :=
  if (evict now m k).any fun expiry => decide (now < expiry) then (true, evict now m)
  else (false, Function.update (evict now m) k (some (now + ttl)))

/-- Observe keys in order, up to the first that is refused: one that is remembered, or that `ok`
fails for. -/
def observeAll (ok : κ → Bool) : Expiring κ → List κ → Bool × Expiring κ
  | m, [] => (true, m)
  | m, k :: ks =>
    if !ok k then (false, m)
    else if (observe ttl now m k).1 then (false, (observe ttl now m k).2)
    else observeAll ok (observe ttl now m k).2 ks

end

/-- The key is remembered up to `upTo` at least, unless that is over. -/
def Known (now : Instant) (m : Expiring κ) (k : κ) (upTo : Instant) : Prop :=
  upTo ≤ now ∨ ∃ expiry ∈ m k, upTo ≤ expiry

/-- The key is taken for new. -/
def Fresh (now : Instant) (m : Expiring κ) (k : κ) : Prop := ∀ expiry ∈ m k, expiry ≤ now

variable {ttl : Duration} {now upTo : Instant} {m : Expiring κ} {k j : κ}

theorem Known.mono {later : Instant} (h : Known now m k upTo) (hle : now ≤ later) :
    Known later m k upTo :=
  h.imp_left fun hover => hover.trans hle

theorem Known.le_of_fresh (h : Known now m k upTo) (hfresh : Fresh now m k) : upTo ≤ now := by
  rcases h with hover | ⟨expiry, hmem, hle⟩
  · exact hover
  · exact hle.trans (hfresh expiry hmem)

theorem fresh_of_known (h : ∀ upTo, Known now m k upTo → upTo ≤ now) : Fresh now m k :=
  fun expiry hmem => h expiry (.inr ⟨expiry, hmem, le_rfl⟩)

theorem Known.evict (h : Known now m k upTo) : Known now (evict now m) k upTo := by
  rcases h with hover | ⟨expiry, hmem, hle⟩
  · exact .inl hover
  by_cases hnow : now ≤ expiry
  · refine .inr ⟨expiry, ?_, hle⟩
    unfold Expiring.evict
    rw [Option.mem_def, Option.filter_eq_some_iff]
    exact ⟨hmem, decide_eq_true hnow⟩
  · exact .inl (hle.trans (not_le.mp hnow).le)

variable [DecidableEq κ]

theorem observe_cases (ttl : Duration) (now : Instant) (m : Expiring κ) (k : κ) :
    (¬ Fresh now m k ∧ observe ttl now m k = (true, evict now m)) ∨
      (Fresh now m k ∧
        observe ttl now m k = (false, Function.update (evict now m) k (some (now + ttl)))) := by
  have hiff : ((evict now m k).any fun expiry => decide (now < expiry)) ↔ ¬ Fresh now m k := by
    unfold Fresh Expiring.evict
    push Not
    rw [Option.any_eq_true]
    constructor
    · rintro ⟨expiry, hmem, hlt⟩
      exact ⟨expiry, Option.eq_some_of_filter_eq_some hmem, of_decide_eq_true hlt⟩
    · rintro ⟨expiry, hmem, hlt⟩
      refine ⟨expiry, ?_, decide_eq_true hlt⟩
      rw [Option.filter_eq_some_iff]
      exact ⟨hmem, decide_eq_true hlt.le⟩
  unfold observe
  split
  · next h => exact .inl ⟨hiff.mp h, rfl⟩
  · next h => exact .inr ⟨not_not.mp fun hf => h (hiff.mpr hf), rfl⟩

theorem Known.observe (h : Known now m k upTo) (j : κ) :
    Known now (observe ttl now m j).2 k upTo := by
  rcases observe_cases ttl now m j with ⟨-, heq⟩ | ⟨hfresh, heq⟩
  · rw [heq]
    exact h.evict
  · rw [heq]
    by_cases hkj : k = j
    · -- the key is written again, so what was known of it is over
      subst hkj
      exact .inl (h.le_of_fresh hfresh)
    · refine h.evict.imp_right ?_
      rintro ⟨expiry, hmem, hle⟩
      refine ⟨expiry, ?_, hle⟩
      dsimp only
      rwa [Function.update_of_ne hkj]

variable {ok : κ → Bool} {ks : List κ}

theorem Known.observeAll (h : Known now m k upTo) :
    Known now (observeAll ttl now ok m ks).2 k upTo := by
  induction ks generalizing m with
  | nil => exact h
  | cons j ks ih =>
    unfold Expiring.observeAll
    split
    · exact h
    · split
      · exact h.observe j
      · exact ih (h.observe j)

/-- Keys that all are let pass are different and new, and known from now on. -/
theorem observeAll_fst (httl : 0 < ttl) (h : (observeAll ttl now ok m ks).1) :
    ks.Nodup ∧ ∀ k ∈ ks, Fresh now m k ∧
    Known now (observeAll ttl now ok m ks).2 k (now + ttl) := by
  induction ks generalizing m with
  | nil => exact ⟨List.nodup_nil, nofun⟩
  | cons j ks ih =>
    unfold Expiring.observeAll at h ⊢
    split at h
    · cases h
    rename_i hok
    split at h
    · cases h
    rename_i hnew
    rw [if_neg hok, if_neg hnew]
    obtain ⟨hnodup, hks⟩ := ih h
    rcases observe_cases ttl now m j with ⟨-, heq⟩ | ⟨hfresh, heq⟩
    · rw [heq] at hnew
      exact absurd rfl hnew
    · have hknown : Known now (observe ttl now m j).2 j (now + ttl) := by
        rw [heq]
        exact .inr ⟨now + ttl, Function.update_self .., le_rfl⟩
      refine ⟨List.nodup_cons.mpr ⟨?_, hnodup⟩, ?_⟩
      · intro hj
        have hover : now + ttl ≤ now := hknown.le_of_fresh (hks j hj).1
        exact absurd httl (not_lt.mpr (nonpos_of_add_le_right hover))
      · rw [List.forall_mem_cons]
        refine ⟨⟨hfresh, hknown.observeAll⟩, ?_⟩
        intro k hk
        refine ⟨?_, (hks k hk).2⟩
        apply fresh_of_known
        intro upTo hbefore
        exact (hbefore.observe j).le_of_fresh (hks k hk).1

end Expiring

end Moorgate.Framework
