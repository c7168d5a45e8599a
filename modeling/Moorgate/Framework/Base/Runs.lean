import Mathlib.Data.List.Basic
import Mathlib.Tactic

/-!
# Runs of a labelled step function

A system is a partial step function `step : σ → α → Option σ`, and a run a list of labels.
Concurrent callers are labels that name their caller, so a run *is* an interleaving, and "every
interleaving" is "every list".

`Guarded` carries a side condition that every step of the run meets in the state it is taken from.
It is how a result that fails in general is stated for the runs that stay off the failing step.
-/

namespace Moorgate.Framework

variable {σ α : Type*}

/-- Performs the labels in order; `none` as soon as one of them is disabled. -/
def exec (step : σ → α → Option σ) : σ → List α → Option σ
  | s, [] => some s
  | s, a :: as => (step s a).bind fun s' => exec step s' as

/-- Every step of the run meets `G` in the state it is taken from. -/
def Guarded (step : σ → α → Option σ) (G : σ → α → Prop) : σ → List α → Prop
  | _, [] => True
  | s, a :: as => G s a ∧
      match step s a with
      | none => True
      | some s' => Guarded step G s' as

instance Guarded.decide (step : σ → α → Option σ) (G : σ → α → Prop)
    [hG : ∀ s a, Decidable (G s a)] : ∀ (s : σ) (as : List α), Decidable (Guarded step G s as)
  | _, [] => .isTrue trivial
  | s, a :: as =>
    match hG s a, h : step s a with
    | .isFalse hn, _ => .isFalse fun hg => hn hg.1
    | .isTrue hy, none => .isTrue ⟨hy, by rw [h]; trivial⟩
    | .isTrue hy, some s' =>
      match Guarded.decide step G s' as with
      | .isTrue hg => .isTrue ⟨hy, by rw [h]; exact hg⟩
      | .isFalse hn => .isFalse fun hg => hn (by have := hg.2; rwa [h] at this)

variable {step : σ → α → Option σ} {G : σ → α → Prop} {Inv : σ → Prop}
  {s s' : σ} {a : α} {as : List α}

theorem exec_cons_eq_some :
    exec step s (a :: as) = some s' ↔ ∃ m, step s a = some m ∧ exec step m as = some s' := by
  simp [exec, Option.bind_eq_some_iff]

theorem guarded_cons (h : step s a = some s') :
    Guarded step G s (a :: as) ↔ G s a ∧ Guarded step G s' as := by
  rw [Guarded, h]

variable {H : σ → α → Prop}

theorem Guarded.and (hG : Guarded step G s as) (hH : Guarded step H s as) :
    Guarded step (fun s a => G s a ∧ H s a) s as := by
  induction as generalizing s with
  | nil => trivial
  | cons a as ih =>
    refine ⟨⟨hG.1, hH.1⟩, ?_⟩
    have hG := hG.2
    have hH := hH.2
    cases hs : step s a with
    | none => trivial
    | some s' =>
      rw [hs] at hG hH
      exact ih hG hH

theorem guarded_congr (h : ∀ s a, G s a ↔ H s a) : Guarded step G s as ↔ Guarded step H s as := by
  have hGH : G = H := funext fun s => funext fun a => propext (h s a)
  rw [hGH]

/-- What a guarded step preserves gives what every step of a guarded run meets. -/
theorem guarded_of_invariant
    (hstep : ∀ {s a s'}, Inv s → G s a → step s a = some s' → Inv s')
    (h : ∀ {s a}, Inv s → G s a → H s a) :
    ∀ {as : List α} {s : σ}, Inv s → Guarded step G s as → Guarded step H s as
  | [], _, _, _ => trivial
  | a :: as, s, hi, hg => by
      refine ⟨h hi hg.1, ?_⟩
      cases hs : step s a with
      | none => trivial
      | some s' => exact guarded_of_invariant hstep h (hstep hi hg.1 hs) ((guarded_cons hs).mp hg).2

theorem Guarded.last (hg : Guarded step G s (as ++ [a])) (h : exec step s as = some s') :
    G s' a := by
  induction as generalizing s with
  | nil =>
    cases h
    exact hg.1
  | cons b as ih =>
    obtain ⟨m, hm, h⟩ := exec_cons_eq_some.mp h
    exact ih ((guarded_cons hm).mp hg).2 h

theorem guarded_of_forall_mem {P : α → Prop} (h : ∀ a ∈ as, P a) :
    Guarded step (fun _ a => P a) s as := by
  induction as generalizing s with
  | nil => trivial
  | cons a as ih =>
    refine ⟨h a List.mem_cons_self, ?_⟩
    cases step s a with
    | none => trivial
    | some s' => exact ih fun b hb => h b (List.mem_cons_of_mem a hb)

/-- **The run rule.** What one guarded step preserves, a guarded run
preserves. -/
theorem exec_invariant (hstep : ∀ {s a s'}, Inv s → G s a → step s a = some s' → Inv s') :
    ∀ {as : List α} {s s' : σ}, Guarded step G s as → exec step s as = some s' → Inv s → Inv s'
  | [], s, s', _, hs, hi => by
      cases hs
      exact hi
  | a :: as, s, s', hg, hs, hi => by
      obtain ⟨m, hm, hs⟩ := exec_cons_eq_some.mp hs
      obtain ⟨hga, hg⟩ := (guarded_cons hm).mp hg
      exact exec_invariant hstep hg hs (hstep hi hga hm)

theorem exec_invariant_of_step (hstep : ∀ {s a s'}, Inv s → step s a = some s' → Inv s')
    (hs : exec step s as = some s') (hi : Inv s) : Inv s' :=
  exec_invariant (fun hi (_ : True) h => hstep hi h)
    (guarded_of_forall_mem fun _ _ => trivial) hs hi

/-! ## What holds throughout a run -/

/-- `P` holds in every state that the run goes through. -/
def Throughout (step : σ → α → Option σ) (P : σ → Prop) (s : σ) (as : List α) : Prop :=
  ∀ bs cs s', bs ++ cs = as → exec step s bs = some s' → P s'

section

variable {P : σ → Prop}

theorem Throughout.start (h : Throughout step P s as) : P s := h [] as s rfl rfl

@[simp] theorem throughout_nil : Throughout step P s [] ↔ P s := by
  refine ⟨Throughout.start, fun hp bs cs s' hsplit hs => ?_⟩
  obtain ⟨rfl, -⟩ := List.append_eq_nil_iff.mp hsplit
  cases hs
  exact hp

theorem throughout_cons :
    Throughout step P s (a :: as) ↔ P s ∧ ∀ m, step s a = some m → Throughout step P m as := by
  constructor
  · intro h
    refine ⟨h.start, fun m hm bs cs s' hsplit hs => ?_⟩
    exact h (a :: bs) cs s' (by rw [List.cons_append, hsplit]) (exec_cons_eq_some.mpr ⟨m, hm, hs⟩)
  · rintro ⟨hp, hrest⟩ (_ | ⟨b, bs⟩) cs s' hsplit hs
    · cases hs
      exact hp
    · obtain ⟨rfl, htail⟩ := List.cons.inj hsplit
      obtain ⟨m, hm, hs⟩ := exec_cons_eq_some.mp hs
      exact hrest m hm bs cs s' htail hs

theorem throughout_of_invariant (hstep : ∀ {s a s'}, Inv s → G s a → step s a = some s' → Inv s')
    (h : ∀ {s}, Inv s → P s) :
    ∀ {as : List α} {s : σ}, Inv s → Guarded step G s as → Throughout step P s as
  | [], _, hi, _ => throughout_nil.mpr (h hi)
  | a :: as, s, hi, hg => by
      refine throughout_cons.mpr ⟨h hi, fun m hm => ?_⟩
      obtain ⟨hga, hrest⟩ := (guarded_cons hm).mp hg
      exact throughout_of_invariant hstep h (hstep hi hga hm) hrest

/-- What holds throughout a run is a condition on its steps, where from a state in which
it holds every step says whether it does afterwards. -/
theorem throughout_iff_guarded (hstep : ∀ {s a s'}, Inv s → step s a = some s' → Inv s')
    (h : ∀ {s a}, Inv s → P s → (G s a ↔ ∀ s', step s a = some s' → P s')) :
    ∀ {as : List α} {s : σ}, Inv s → P s → (Throughout step P s as ↔ Guarded step G s as)
  | [], _, _, hp => iff_of_true (throughout_nil.mpr hp) trivial
  | a :: as, s, hi, hp => by
      rw [throughout_cons, and_iff_right hp]
      cases hs : step s a with
      | none =>
        have hg : G s a := (h hi hp).mpr fun s' hs' => by cases hs.symm.trans hs'
        rw [Guarded, hs]
        exact iff_of_true nofun ⟨hg, trivial⟩
      | some s' =>
        rw [guarded_cons hs, h hi hp, hs]
        constructor
        · intro hall
          have hrest := hall s' rfl
          refine ⟨fun m hm => Option.some.inj hm ▸ hrest.start, ?_⟩
          exact (throughout_iff_guarded hstep h (hstep hi hs) hrest.start).mp hrest
        · rintro ⟨hp', hrest⟩ m hm
          cases hm
          exact (throughout_iff_guarded hstep h (hstep hi hs) (hp' s' rfl)).mpr hrest

end

/-! ## Runs that can be evaluated -/

section

variable {β : Type*} {x : Option σ} {P : σ → Prop}

/-- What is known of the last state, from the part of it that can be compared. -/
theorem exists_of_view (view : σ → β) (b : β) (hview : x.map view = some b)
    (h : ∀ s, x = some s → view s = b → P s) : ∃ s, x = some s ∧ P s := by
  obtain ⟨s, hs, hb⟩ := Option.map_eq_some_iff.mp hview
  exact ⟨s, hs, h s hs hb⟩

theorem exists_of_any [DecidablePred P] (h : (x.any fun s => decide (P s))) :
    ∃ s, x = some s ∧ P s := by
  simpa [Option.any_eq_true] using h

end

/-! ## Steps that are always enabled -/

def always (f : σ → α → σ) : σ → α → Option σ := fun s a => some (f s a)

@[simp] theorem exec_always (f : σ → α → σ) (s : σ) (as : List α) :
    exec (always f) s as = some (as.foldl f s) := by
  induction as generalizing s with
  | nil => rfl
  | cons a as ih => exact ih (f s a)

theorem foldl_invariant {f : σ → α → σ}
    (hstep : ∀ {s a}, Inv s → G s a → Inv (f s a)) (hg : Guarded (always f) G s as)
    (hi : Inv s) : Inv (as.foldl f s) := by
  refine exec_invariant (fun {s a s'} hi ha hs => ?_) hg (exec_always f s as) hi
  cases hs
  exact hstep hi ha

end Moorgate.Framework
