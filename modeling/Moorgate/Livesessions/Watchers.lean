import Mathlib.Data.Set.Card
import Moorgate.Framework.Base.Runs
import Moorgate.Livesessions.Broker

/-!
# The gate of a broker: `livesessions/broker.go`

`Active` reads one number, without the lock. Local watchers are counted under the lock;
for a peer the number follows when the lock was released, so while calls are under way it
lags behind the maps by what they still have to add.
-/

namespace Moorgate.Livesessions

open Framework Models

/-- A broker, what the calls under way have to add to `total`, and the channels that were
closed. -/
structure Gate where
  broker : Broker
  pending : List ℤ
  closed : List (UUID × ℕ)

inductive GateOp where
  | subscribe (sid : UUID)
  | unsubscribe (sid : UUID) (id : ℕ)
  | registerLocal (sid : UUID)
  | remoteWatchStart (sid : UUID) (origin : String)
  | remoteWatchStop (sid : UUID) (origin : String)
  | add (n : ℤ)
  | publish (sid : UUID) (f : Frame)
  | clear (sid : UUID)

def gateStep (g : Gate) : GateOp → Option Gate
  | .subscribe sid => some { g with broker := (g.broker.subscribe sid).1 }
  | .unsubscribe sid id => some { g with
      broker := g.broker.unsubscribe sid id
      closed := if id ∈ (g.broker.subs sid).map Prod.fst then (sid, id) :: g.closed else g.closed }
  | .registerLocal sid => some { g with broker := g.broker.registerLocal sid }
  | .remoteWatchStart sid origin => some { g with
      broker := (g.broker.remoteWatchStart sid origin).1
      pending := (g.broker.remoteWatchStart sid origin).2.1 :: g.pending }
  | .remoteWatchStop sid origin => some { g with
      broker := (g.broker.remoteWatchStop sid origin).1
      pending := (g.broker.remoteWatchStop sid origin).2 :: g.pending }
  | .add n =>
    if n ∈ g.pending then
      some { g with broker := g.broker.addTotal n, pending := g.pending.erase n }
    else none
  | .publish sid f => some { g with broker := (g.broker.publish sid f).1 }
  | .clear sid => some { g with broker := g.broker.clear sid }

/-- The local subscriptions, and the peers that watch a session. -/
def Broker.watchers (b : Broker) : Set (UUID × (ℕ ⊕ String)) :=
  {w | w.2.elim (· ∈ (b.subs w.1).map Prod.fst) (· ∈ b.remoteOut w.1)}

/-- With no call under way the gate is open iff someone watches; and no channel that
`Publish` sends on is closed. -/
structure GateExact (g : Gate) : Prop where
  total : g.pending = [] → g.broker.watchers.Finite ∧ g.broker.total = g.broker.watchers.ncard
  active : g.pending = [] → (g.broker.active ↔ g.broker.watchers.Nonempty)
  unclosed : ∀ sid, ∀ ch ∈ g.broker.subs sid, (sid, ch.1) ∉ g.closed

structure GateInv (g : Gate) : Prop where
  finite : g.broker.watchers.Finite
  total : g.broker.total + g.pending.sum = g.broker.watchers.ncard
  unclosed : ∀ sid id, (sid, .inl id) ∈ g.broker.watchers → (sid, id) ∉ g.closed
  numbered : ∀ sid id, (sid, .inl id) ∈ g.broker.watchers ∨ (sid, id) ∈ g.closed →
    id ≤ g.broker.next

section

variable {b : Broker} {sid : UUID} {id : ℕ} {origin : String} {g g' : Gate} {op : GateOp}

theorem watchers_subscribe :
    (b.subscribe sid).1.watchers = insert (sid, .inl (b.next + 1)) b.watchers := by
  ext ⟨sid', _ | _⟩ <;> by_cases h : sid' = sid <;>
    simp [Broker.watchers, Broker.subscribe, Function.update_apply, h, exists_or, or_comm]

theorem watchers_unsubscribe (h : id ∈ (b.subs sid).map Prod.fst) :
    (b.unsubscribe sid id).watchers = b.watchers \ {(sid, .inl id)} := by
  rw [Broker.unsubscribe, if_pos h]
  ext ⟨sid', _ | _⟩ <;> by_cases h : sid' = sid <;> simp [Broker.watchers, Function.update_apply, h]

theorem watchers_publish (sid : UUID) (f : Frame) : (b.publish sid f).1.watchers = b.watchers := by
  ext ⟨sid', _ | _⟩ <;> by_cases h : sid' = sid <;>
    simp [Broker.watchers, Broker.publish, Broker.offer, Function.update_apply, h]

theorem watchers_remoteWatchStart (h : b.isLocal sid) :
    (b.remoteWatchStart sid origin).1.watchers = insert (sid, .inr origin) b.watchers := by
  rw [Broker.remoteWatchStart, if_pos h]
  ext ⟨sid', _ | _⟩ <;> by_cases h : sid' = sid <;> simp [Broker.watchers, Function.update_apply, h]

theorem watchers_remoteWatchStop :
    (b.remoteWatchStop sid origin).1.watchers = b.watchers \ {(sid, .inr origin)} := by
  ext ⟨sid', _ | _⟩ <;> by_cases h : sid' = sid <;>
    simp [Broker.watchers, Broker.remoteWatchStop, Function.update_apply, h, and_comm]

open Classical in
theorem GateInv.insert (hi : GateInv g) {w : UUID × (ℕ ⊕ String)}
    (hw : g'.broker.watchers = insert w g.broker.watchers)
    (hsum : g'.broker.total + g'.pending.sum =
      g.broker.total + g.pending.sum + if w ∈ g.broker.watchers then 0 else 1)
    (hclosed : g'.closed = g.closed) (hnext : g.broker.next ≤ g'.broker.next)
    (hnew : ∀ sid id, w = (sid, .inl id) → id = g.broker.next + 1 ∧ id ≤ g'.broker.next) :
    GateInv g' := by
  obtain ⟨hfin, htotal, hunclosed, hnumbered⟩ := hi
  refine ⟨hw ▸ hfin.insert w, ?_, ?_, ?_⟩
  · rw [hsum, htotal, hw, Set.ncard_insert_eq_ite hfin]
    split <;> simp
  · rw [hw, hclosed]
    rintro sid id (heq | hmem) hc
    · have := hnumbered sid id (.inr hc)
      have := (hnew sid id heq.symm).1
      omega
    · exact hunclosed sid id hmem hc
  · rw [hw, hclosed]
    rintro sid id ((heq | hmem) | hc)
    · exact (hnew sid id heq.symm).2
    · exact (hnumbered sid id (.inl hmem)).trans hnext
    · exact (hnumbered sid id (.inr hc)).trans hnext

open Classical in
theorem GateInv.erase (hi : GateInv g) {w : UUID × (ℕ ⊕ String)}
    (hw : g'.broker.watchers = g.broker.watchers \ {w})
    (hsum : g'.broker.total + g'.pending.sum =
      g.broker.total + g.pending.sum - if w ∈ g.broker.watchers then 1 else 0)
    (hclosed : ∀ p ∈ g'.closed, p ∈ g.closed ∨ w = (p.1, .inl p.2) ∧ w ∈ g.broker.watchers)
    (hnext : g'.broker.next = g.broker.next) : GateInv g' := by
  obtain ⟨hfin, htotal, hunclosed, hnumbered⟩ := hi
  refine ⟨hw ▸ hfin.sdiff, ?_, ?_, ?_⟩
  · rw [hsum, htotal, hw]
    split
    · next hmem =>
      have := Set.ncard_sdiff_singleton_add_one hmem hfin
      omega
    · next hmem => rw [Set.sdiff_singleton_eq_self hmem, sub_zero]
  · rw [hw]
    rintro sid id ⟨hmem, hne⟩ hc
    rcases hclosed _ hc with hold | ⟨heq, -⟩
    · exact hunclosed sid id hmem hold
    · exact hne heq.symm
  · rw [hw, hnext]
    rintro sid id (⟨hmem, -⟩ | hc)
    · exact hnumbered sid id (.inl hmem)
    · rcases hclosed _ hc with hold | ⟨rfl, hmem⟩
      · exact hnumbered sid id (.inr hold)
      · exact hnumbered sid id (.inl hmem)

theorem gateInv_step (hi : GateInv g) (h : gateStep g op = some g') : GateInv g' := by
  cases op with
  | subscribe sid =>
    obtain rfl := Option.some.inj h
    have hnew : (sid, .inl (g.broker.next + 1)) ∉ g.broker.watchers := fun hmem =>
      absurd (hi.numbered _ _ (.inl hmem)) (Nat.not_succ_le_self _)
    refine hi.insert watchers_subscribe ?_ rfl (Nat.le_succ _) ?_
    · rw [if_neg hnew]
      exact add_right_comm _ _ _
    · rintro _ _ ⟨⟩
      exact ⟨rfl, le_rfl⟩
  | unsubscribe sid id =>
    obtain rfl := Option.some.inj h
    by_cases hmem : id ∈ (g.broker.subs sid).map Prod.fst
    · refine hi.erase (watchers_unsubscribe hmem) ?_ ?_ ?_ <;> dsimp only
      · rw [Broker.unsubscribe, if_pos hmem,
          if_pos (show (sid, .inl id) ∈ g.broker.watchers from hmem)]
        exact sub_add_eq_add_sub _ _ _
      · rw [if_pos hmem]
        intro p hp
        refine (List.mem_cons.mp hp).symm.imp_right ?_
        rintro rfl
        exact ⟨rfl, hmem⟩
      · rw [Broker.unsubscribe, if_pos hmem]
    · rw [if_neg hmem, Broker.unsubscribe, if_neg hmem]
      exact hi
  | registerLocal sid | clear sid =>
    obtain rfl := Option.some.inj h
    exact ⟨hi.finite, hi.total, hi.unclosed, hi.numbered⟩
  | remoteWatchStart sid origin =>
    obtain rfl := Option.some.inj h
    cases hlocal : g.broker.isLocal sid with
    | true =>
      refine hi.insert (watchers_remoteWatchStart hlocal) ?_ rfl ?_ nofun <;>
        rw [Broker.remoteWatchStart, if_pos hlocal]
      dsimp only
      rw [List.sum_cons, add_left_comm, add_comm]
      congr 1
      simp [Broker.watchers]
    | false =>
      have hsame : g.broker.remoteWatchStart sid origin =
          (g.broker, 0, none) := by simp [Broker.remoteWatchStart, hlocal]
      rw [hsame]
      exact ⟨hi.finite, by simpa using hi.total, hi.unclosed, hi.numbered⟩
  | remoteWatchStop sid origin =>
    obtain rfl := Option.some.inj h
    refine hi.erase watchers_remoteWatchStop ?_ (fun p hp => .inl hp) rfl
    rw [Broker.remoteWatchStop]
    dsimp only
    rw [List.sum_cons, add_left_comm, add_comm, sub_eq_add_neg]
    congr 1
    simp [Broker.watchers, apply_ite]
  | add n =>
    obtain ⟨hn, h⟩ := Option.ite_none_right_eq_some.mp h
    obtain rfl := Option.some.inj h
    refine ⟨hi.finite, ?_, hi.unclosed, hi.numbered⟩
    have htotal := hi.total
    rw [← List.sum_erase hn, ← add_assoc] at htotal
    exact htotal
  | publish sid f =>
    obtain rfl := Option.some.inj h
    have ⟨hfin, htotal, hunclosed, hnumbered⟩ := hi
    rw [← watchers_publish sid f] at hfin htotal hunclosed hnumbered
    exact ⟨hfin, htotal, hunclosed, hnumbered⟩

theorem gateInv_new : GateInv ⟨.new, [], []⟩ := by
  have hnobody : Broker.new.watchers = ∅ := by
    ext ⟨sid, _ | _⟩ <;> simp [Broker.watchers, Broker.new]
  constructor <;> simp [hnobody]
  rfl

/-- In every interleaving the gate is exact. -/
theorem gate_exact {ops : List GateOp} (h : exec gateStep ⟨.new, [], []⟩ ops = some g) :
    GateExact g := by
  have hi := exec_invariant_of_step gateInv_step h gateInv_new
  have htotal (hdone : g.pending = []) : g.broker.total = g.broker.watchers.ncard := by
    have hsum := hi.total
    rwa [hdone, List.sum_nil, add_zero] at hsum
  refine ⟨fun hdone => ⟨hi.finite, htotal hdone⟩, fun hdone => ?_, fun sid ch hch => ?_⟩
  · rw [← Set.ncard_pos hi.finite, Broker.active, decide_eq_true_iff, htotal hdone, Int.natCast_pos]
  · exact hi.unclosed sid ch.1 (List.mem_map.mpr ⟨ch, hch, rfl⟩)

/-- A watcher leaves twice, while a peer is added. -/
theorem gate_exact_left_twice : ∃ g, exec gateStep ⟨.new, [], []⟩
      [.subscribe (.ofNat 1), .registerLocal (.ofNat 1), .remoteWatchStart (.ofNat 1) "b",
        .unsubscribe (.ofNat 1) 1, .unsubscribe (.ofNat 1) 1, .add 1] = some g ∧
          g.broker.total = 1 ∧ GateExact g :=
  exists_of_view (fun g => g.broker.total) 1 (by decide +kernel) fun _ hg htotal => ⟨htotal,
    gate_exact hg⟩

end

end Moorgate.Livesessions
