import Moorgate.Framework.Base.Runs

/-!
# Concurrent calls over a shared store

A procedure that talks to a shared store in several statements is a program counter `π`, and `act`
performs the statement it stands before: a new store and a new program counter, or `none` when the
call has returned. A run is a list of moves, each of which starts a call or lets one call perform
its next statement, so the runs are exactly the interleavings of the calls at their statements. The
input `ι` of a move is what the statement takes from outside.
-/

namespace Moorgate.Framework

/-- The store, and where each call stands, in the order they were started. -/
structure Pool (σ π : Type*) where
  store : σ
  calls : List π

inductive Move (ρ ι : Type*) where
  | begin (r : ρ)
  | advance (c : ℕ) (i : ι)

variable {σ π ρ ι : Type*}

namespace Pool

/-- Where call `c` stands; `none` before it is started. -/
def call (s : Pool σ π) (c : ℕ) : Option π := s.calls[c]?

/-- One more call, which stands at `p`. -/
def enter (s : Pool σ π) (p : π) : Pool σ π := ⟨s.store, s.calls ++ [p]⟩

/-- Call `c` stands at `p` and the store is `st`. -/
def put (s : Pool σ π) (c : ℕ) (st : σ) (p : π) : Pool σ π := ⟨st, s.calls.set c p⟩

variable {s : Pool σ π} {c : ℕ} {p : π}

theorem mem_of_call (h : s.call c = some p) : p ∈ s.calls := List.mem_of_getElem? h

variable {q : π}

theorem mem_enter (h : q ∈ (s.enter p).calls) : q ∈ s.calls ∨ q = p := by
  rwa [enter, List.mem_append, List.mem_singleton] at h

theorem mem_put {st : σ} (h : q ∈ (s.put c st p).calls) : q ∈ s.calls ∨ q = p :=
  List.mem_or_eq_of_mem_set h

variable {d : ℕ}

theorem call_enter (h : (s.enter p).call d = some q) :
    s.call d = some q ∨ (d = s.calls.length ∧ q = p) := by
  unfold call enter at h
  rw [List.getElem?_append] at h
  split at h
  · exact .inl h
  right
  rw [List.getElem?_singleton] at h
  split at h
  · cases h
    exact ⟨by omega, rfl⟩
  · cases h

theorem call_put {st : σ} (h : (s.put c st p).call d = some q) :
    (d = c ∧ q = p) ∨ (d ≠ c ∧ s.call d = some q) := by
  unfold call put at h
  by_cases hd : d = c
  · subst hd
    rw [List.getElem?_set_self'] at h
    obtain ⟨-, -, rfl⟩ := Option.map_eq_some_iff.mp h
    exact .inl ⟨rfl, rfl⟩
  · rw [List.getElem?_set_ne (Ne.symm hd)] at h
    exact .inr ⟨hd, h⟩

theorem call_enter_of_call (h : s.call d = some q) (p : π) : (s.enter p).call d = some q := by
  obtain ⟨hlt, hget⟩ := List.getElem?_eq_some_iff.mp h
  unfold call enter
  rw [List.getElem?_append_left hlt]
  exact h

theorem call_put_self (h : s.call c = some p) (st : σ) (p' : π) :
    (s.put c st p').call c = some p' := by
  obtain ⟨hlt, -⟩ := List.getElem?_eq_some_iff.mp h
  exact List.getElem?_set_self hlt

@[simp] theorem call_put_of_ne (s : Pool σ π) (h : d ≠ c) (st : σ) (p : π) :
    (s.put c st p).call d = s.call d :=
  List.getElem?_set_ne h.symm

variable {P : π → Prop}

theorem forall_enter (h : ∀ q ∈ s.calls, P q) (hp : P p) : ∀ q ∈ (s.enter p).calls, P q := by
  intro q hq
  rcases mem_enter hq with hold | rfl
  · exact h q hold
  · exact hp

theorem forall_put {st : σ} (h : ∀ q ∈ s.calls, P q) (hp : P p) :
    ∀ q ∈ (s.put c st p).calls, P q := by
  intro q hq
  rcases mem_put hq with hold | rfl
  · exact h q hold
  · exact hp

theorem forall_put_iff (h : s.call c = some p) (st : σ) (p' : π) :
    (∀ q ∈ (s.put c st p').calls, P q) ↔ P p' ∧ ∀ d q, d ≠ c → s.call d = some q → P q := by
  constructor
  · intro hall
    refine ⟨hall p' (mem_of_call (call_put_self h st p')), fun d q hne hq => hall q ?_⟩
    refine mem_of_call (c := d) ?_
    rwa [call_put_of_ne s hne]
  · rintro ⟨hp', hothers⟩ q hq
    obtain ⟨d, hd⟩ := List.mem_iff_getElem?.mp hq
    rcases call_put hd with ⟨-, rfl⟩ | ⟨hne, hold⟩
    · exact hp'
    · exact hothers d q hne hold

section

variable {R : π → π → Prop} (hsymm : ∀ {p q}, R p q → R q p) {s : Pool σ π} {c d e : ℕ} {p q r : π}
  (hold : ∀ {a b p q}, a ≠ b → s.call a = some p → s.call b = some q → R p q)

include hsymm hold

/-- What holds between any two calls still does when one more is started between
which and every other it holds. -/
theorem pair_enter (hnew : ∀ q ∈ s.calls, R p q) (hne : d ≠ e) (hq : (s.enter p).call d = some q)
    (hr : (s.enter p).call e = some r) : R q r := by
  rcases call_enter hq with hq₀ | ⟨rfl, rfl⟩
  · rcases call_enter hr with hr₀ | ⟨-, rfl⟩
    · exact hold hne hq₀ hr₀
    · exact hsymm (hnew q (mem_of_call hq₀))
  · rcases call_enter hr with hr₀ | ⟨rfl, -⟩
    · exact hnew r (mem_of_call hr₀)
    · exact absurd rfl hne

theorem pair_put {st : σ} (hnew : ∀ {d q}, d ≠ c → s.call d = some q → R p q) (hne : d ≠ e)
    (hq : (s.put c st p).call d = some q) (hr : (s.put c st p).call e = some r) : R q r := by
  rcases call_put hq with ⟨rfl, rfl⟩ | ⟨hdc, hq₀⟩
  · rcases call_put hr with ⟨rfl, -⟩ | ⟨hec, hr₀⟩
    · exact absurd rfl hne
    · exact hnew hec hr₀
  · rcases call_put hr with ⟨-, rfl⟩ | ⟨-, hr₀⟩
    · exact hsymm (hnew hdc hq₀)
    · exact hold hne hq₀ hr₀

end

theorem mem_put_of_mem (h : s.call c = some p) (hq : q ∈ s.calls)
    (st : σ) (p' : π) : q = p ∨ q ∈ (s.put c st p').calls := by
  obtain ⟨d, hd⟩ := List.mem_iff_getElem?.mp hq
  by_cases hdc : d = c
  · subst hdc
    exact .inl (Option.some.inj (hd.symm.trans h))
  · right
    apply List.mem_of_getElem? (i := d)
    rw [put, List.getElem?_set_ne (Ne.symm hdc)]
    exact hd

theorem countP_put (f : π → Bool) (h : s.call c = some p) (st : σ) (p' : π) :
    (s.put c st p').calls.countP f + (if f p then 1 else 0) = s.calls.countP f +
      (if f p' then 1 else 0) := by
  obtain ⟨hlt, hget⟩ := List.getElem?_eq_some_iff.mp h
  rw [put, List.countP_set hlt, hget]
  by_cases hp : f p
  · have hpos : 0 < s.calls.countP f := List.countP_pos_iff.mpr ⟨p, mem_of_call h, hp⟩
    simp only [hp, if_true]
    omega
  · simp [hp]

/-- No more calls stand somewhere when the one that moved stood there if it does now. -/
theorem countP_put_le {p' : π} {f : π → Bool} (h : s.call c = some p)
    (hf : f p' → f p) (st : σ) : (s.put c st p').calls.countP f ≤ s.calls.countP f := by
  have hcount := countP_put f h st p'
  by_cases hp : f p'
  · rw [if_pos hp, if_pos (hf hp)] at hcount
    omega
  · rw [if_neg hp] at hcount
    omega

/-- Where one call at most has a property and the one that moved had it, no other has. -/
theorem eq_or_of_countP_le_one {f : π → Bool} {st : σ} {p' : π} (hone : s.calls.countP f ≤ 1)
    (hc : s.call c = some p) (hp : f p) (hq : q ∈ (s.put c st p').calls) :
    q = p' ∨ f q = false := by
  obtain ⟨hlt, rfl⟩ := List.getElem?_eq_some_iff.mp hc
  obtain ⟨before, after, hcalls, -, hset⟩ :
      ∃ l₁ l₂, s.calls = l₁ ++ s.calls[c] :: l₂ ∧ l₁.length = c ∧
      s.calls.set c p' = l₁ ++ p' :: l₂ :=
    List.exists_of_set hlt
  rw [hcalls, List.countP_append, List.countP_cons, if_pos hp] at hone
  have hbefore : before.countP f = 0 := by omega
  have hafter : after.countP f = 0 := by omega
  rw [List.countP_eq_zero] at hbefore hafter
  rw [put, hset] at hq
  rcases List.mem_append.mp hq with hq | hq
  · exact .inr (Bool.eq_false_iff.mpr (hbefore q hq))
  rcases List.mem_cons.mp hq with rfl | hq
  · exact .inl rfl
  · exact .inr (Bool.eq_false_iff.mpr (hafter q hq))

theorem sum_put (f : π → ℕ) (h : s.call c = some p) (st : σ) (p' : π) :
    ((s.put c st p').calls.map f).sum + f p = (s.calls.map f).sum + f p' := by
  obtain ⟨hlt, rfl⟩ := List.getElem?_eq_some_iff.mp h
  obtain ⟨before, after, hcalls, -, hset⟩ :
      ∃ l₁ l₂, s.calls = l₁ ++ s.calls[c] :: l₂ ∧ l₁.length = c ∧
      s.calls.set c p' = l₁ ++ p' :: l₂ :=
    List.exists_of_set hlt
  rw [put, hset]
  conv_rhs => rw [hcalls]
  simp only [List.map_append, List.map_cons, List.sum_append, List.sum_cons]
  omega

@[simp] theorem countP_enter (s : Pool σ π) (f : π → Bool) (p : π) :
    (s.enter p).calls.countP f = s.calls.countP f + (if f p then 1 else 0) := by
  rw [enter, List.countP_append, List.countP_singleton]

end Pool

variable (start : ρ → π) (act : ι → σ → π → Option (σ × π))

def poolStep (s : Pool σ π) : Move ρ ι → Option (Pool σ π)
  | .begin r => some (s.enter (start r))
  | .advance c i =>
    match s.call c with
    | none => none
    | some p => (act i s.store p).map fun next => s.put c next.1 next.2

variable {start act}

theorem poolStep_cases {s s' : Pool σ π} {m : Move ρ ι} (h : poolStep start act s m = some s') :
    (∃ r, m = .begin r ∧ s' = s.enter (start r)) ∨
    (∃ c i p st p', m = .advance c i ∧ s.call c = some p ∧ act i s.store p = some (st, p') ∧
      s' = s.put c st p') := by
  cases m with
  | begin r =>
    cases h
    exact .inl ⟨r, rfl, rfl⟩
  | advance c i =>
    simp only [poolStep] at h
    split at h
    · cases h
    · rename_i p hp
      obtain ⟨⟨st, p'⟩, hact, rfl⟩ := Option.map_eq_some_iff.mp h
      exact .inr ⟨c, i, p, st, p', rfl, hp, hact, rfl⟩

/-- What every outcome of a statement of a call has is said of the statement itself. -/
theorem forall_advance_iff {s : Pool σ π} {c : ℕ} {i : ι} {P : Pool σ π → Prop} :
    (∀ s', poolStep start act s (.advance c i) = some s' → P s') ↔
      ∀ p next, s.call c = some p → act i s.store p = some next → P (s.put c next.1 next.2) := by
  constructor
  · intro h p next hc hact
    refine h _ ?_
    simp only [poolStep, hc, hact, Option.map_some]
  · intro h s' hs
    rcases poolStep_cases hs with ⟨_, hm, -⟩ | ⟨_, _, p, st, p', hm, hc, hact, rfl⟩
    · cases hm
    · cases hm
      exact h p (st, p') hc hact

/-- A statement keeps `P` iff it is not harmful, where a harmful one is enabled. -/
theorem advance_iff {s : Pool σ π} {c : ℕ} {i : ι} {P : Pool σ π → Prop} {H : Prop}
    (henabled : H → ∃ p next, s.call c = some p ∧ act i s.store p = some next)
    (hput : ∀ {p st p'}, s.call c = some p → act i s.store p = some (st, p') →
      (P (s.put c st p') ↔ ¬ H)) :
    ¬ H ↔ ∀ s', poolStep start act s (.advance c i) = some s' → P s' := by
  rw [forall_advance_iff]
  refine ⟨fun h p next hc hact => (hput hc hact).mpr h, fun h hharm => ?_⟩
  obtain ⟨p, next, hc, hact⟩ := henabled hharm
  exact (hput hc hact).mp (h p next hc hact) hharm

end Moorgate.Framework
