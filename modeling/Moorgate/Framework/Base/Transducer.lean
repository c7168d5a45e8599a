import Mathlib.Data.List.Basic
import Mathlib.Tactic

/-!
# Transducers

A machine that reads a stream one symbol at a time, carries a state from symbol to symbol and emits
any number of results for each. Two machines that start in related states and that each symbol
keeps related, with equal results, emit equal results over a whole stream (`transduce_simulation`).
`Along` restricts that to the streams whose symbols all meet a condition in the state they are read
in.
-/

namespace Moorgate.Framework

variable {σ τ α β γ δ : Type*}

def transduce (step : σ → α → σ × List β) : σ → List α → σ × List β
  | s, [] => (s, [])
  | s, a :: as =>
    let r := step s a
    let t := transduce step r.1 as
    (t.1, r.2 ++ t.2)

/-- Each symbol of `as`, with those before it; `pre` are those before the first. -/
def before (pre : List α) : List α → List (List α × α)
  | [] => []
  | a :: as => (pre, a) :: before (pre ++ [a]) as

/-- Every symbol meets `G` in the state that it is read in. -/
def Along (step : σ → α → σ × List β) (G : σ → α → Prop) : σ → List α → Prop
  | _, [] => True
  | s, a :: as => G s a ∧ Along step G (step s a).1 as

instance Along.decide (step : σ → α → σ × List β) (G : σ → α → Prop)
    [hG : ∀ s a, Decidable (G s a)] : ∀ s as, Decidable (Along step G s as)
  | _, [] => .isTrue trivial
  | s, a :: as =>
    have := Along.decide step G (step s a).1 as
    inferInstanceAs (Decidable (G s a ∧ _))

variable {step : σ → α → σ × List β}

theorem transduce_append (s : σ) (as bs : List α) : transduce step s (as ++ bs) =
      ((transduce step (transduce step s as).1 bs).1,
        (transduce step s as).2 ++ (transduce step (transduce step s as).1 bs).2) := by
  induction as generalizing s with
  | nil => rfl
  | cons a as ih =>
    rw [List.cons_append, transduce, ih]
    simp only [transduce, List.append_assoc]

theorem transduce_map (f : γ → α) (s : σ) (cs : List γ) :
    transduce step s (cs.map f) = transduce (fun s c => step s (f c)) s cs := by
  induction cs generalizing s with
  | nil => rfl
  | cons c cs ih => rw [List.map_cons, transduce, transduce, ih]

theorem transduce_snoc (s : σ) (as : List α) (a : α) : transduce step s (as ++ [a]) =
      ((step (transduce step s as).1 a).1, (transduce step s as).2 ++
        (step (transduce step s as).1 a).2) := by
  rw [transduce_append]
  simp only [transduce, List.append_nil]

theorem map_snd_before (pre as : List α) : (before pre as).map Prod.snd = as := by
  induction as generalizing pre with
  | nil => rfl
  | cons a as ih => rw [before, List.map_cons, ih]

theorem transduce_after (s : σ) (pre as : List α) : (transduce step (transduce step s pre).1 as).2 =
      (before pre as).flatMap fun p => (step (transduce step s p.1).1 p.2).2 := by
  induction as generalizing pre with
  | nil => rfl
  | cons a as ih =>
    have hstate : (step (transduce step s pre).1 a).1 = (transduce step s (pre ++ [a])).1 := by
      rw [transduce_snoc]
    rw [transduce, before, List.flatMap_cons]
    rw [hstate, ih]

/-- **What is emitted, symbol by symbol**, as an observer `f` sees it. -/
theorem transduce_flatMap (f : β → List γ) (s : σ) (as : List α) :
    (transduce step s as).2.flatMap f =
      (before [] as).flatMap fun p => (step (transduce step s p.1).1 p.2).2.flatMap f := by
  have hout : (transduce step s as).2 = _ := transduce_after s [] as
  rw [hout, List.flatMap_assoc]

variable {s : σ} {as : List α}

/-- **Machines in step emit the same**, as an observer of each sees it. -/
theorem transduce_simulation {step' : τ → α → τ × List γ} {f : β → List δ} {f' : γ → List δ}
    {R : σ → τ → Prop} {G : σ → α → Prop} (hstep : ∀ {s t a}, R s t → G s a →
      R (step s a).1 (step' t a).1 ∧ (step s a).2.flatMap f = (step' t a).2.flatMap f')
      {t : τ} (hR : R s t) (hG : Along step G s as) :
    R (transduce step s as).1 (transduce step' t as).1 ∧
      (transduce step s as).2.flatMap f = (transduce step' t as).2.flatMap f' := by
  induction as generalizing s t with
  | nil => exact ⟨hR, rfl⟩
  | cons a as ih =>
    obtain ⟨hnext, hout⟩ := hstep hR hG.1
    obtain ⟨hend, hrest⟩ := ih hnext hG.2
    refine ⟨hend, ?_⟩
    rw [transduce, transduce, List.flatMap_append, List.flatMap_append, hout, hrest]

theorem along_of_forall {G : σ → α → Prop} (h : ∀ a ∈ as, ∀ s, G s a) : Along step G s as := by
  induction as generalizing s with
  | nil => trivial
  | cons a as ih =>
    obtain ⟨ha, has⟩ := List.forall_mem_cons.mp h
    exact ⟨ha s, ih has⟩

/-- Two observers of which one never sees more than the other see the same over a
whole stream iff they do of each result. -/
theorem flatMap_eq_flatMap_iff {f g : α → List β} {l : List α}
    (h : ∀ a ∈ l, (g a).length ≤ (f a).length) :
    l.flatMap f = l.flatMap g ↔ ∀ a ∈ l, f a = g a := by
  have hlen : ∀ l : List α, (∀ a ∈ l, (g a).length ≤ (f a).length) →
      (l.flatMap g).length ≤ (l.flatMap f).length := by
    intro l
    induction l with
    | nil => exact fun _ => le_rfl
    | cons a l ih =>
      intro h
      obtain ⟨ha, hl⟩ := List.forall_mem_cons.mp h
      rw [List.flatMap_cons, List.flatMap_cons, List.length_append, List.length_append]
      exact Nat.add_le_add ha (ih hl)
  refine ⟨fun heq => ?_, List.flatMap_congr⟩
  induction l with
  | nil => exact fun _ ha => (nomatch ha)
  | cons a l ih =>
    obtain ⟨ha, hl⟩ := List.forall_mem_cons.mp h
    rw [List.flatMap_cons, List.flatMap_cons] at heq
    have hsum := congrArg List.length heq
    rw [List.length_append, List.length_append] at hsum
    have hrest := hlen l hl
    obtain ⟨hhead, htail⟩ := List.append_inj heq (by omega)
    exact List.forall_mem_cons.mpr ⟨hhead, ih hl htail⟩

end Moorgate.Framework
