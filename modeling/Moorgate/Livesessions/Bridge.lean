import Moorgate.Framework.Base.Calls
import Moorgate.Livesessions.Broker

/-!
# Shadowing across instances: `livesessions/broker.go`, `ws/backplane.go`

Watchers on one instance come and go while the session they watch is on another one. The first of
them announces the instance's interest, the last one withdraws it, and the owner mirrors in
between. A watcher is counted under the lock of its broker and announces after it: a withdrawal
that is overtaken by the next watcher's announcement arrives last, and that watcher gets no frames.
Nobody can withdraw before the interest was announced, since whoever announces it is counted
meanwhile.
-/

namespace Moorgate.Livesessions

open Framework Models

structure Announcement where
  want : Bool
  target : UUID
  origin : String

/-- The instance of the watchers, the announcements under way, and the instance of
the sessions. -/
structure Bridge where
  watching : Broker
  wire : List Announcement
  owning : Broker

/-- `dispatch` of an announcement on the instance `self`, up to the number of
watchers. -/
def dispatch (self : String) (m : Announcement) (b : Broker) : Broker × ℤ :=
  if m.origin = self then (b, 0)
  else if m.want then
    let (b', n, _) := b.remoteWatchStart m.target m.origin
    (b', n)
  else b.remoteWatchStop m.target m.origin

inductive ShadowRequest where
  | watch (sid : UUID)
  | deliver

/-- A watcher takes the lock, announces, watches, takes the lock again, withdraws. -/
inductive ShadowPc where
  | subscribing (sid : UUID)
  | wanting (sid : UUID) (first : Bool)
  | watching (sid : UUID)
  | releasing (sid : UUID) (last : Bool)
  | left | listening
  | counting (n : ℤ)
  | handled
deriving DecidableEq

def shadowStart : ShadowRequest → ShadowPc
  | .watch sid => .subscribing sid
  | .deliver => .listening

def Bridge.send (m : Announcement) (b : Bridge) : Bridge := { b with wire := b.wire ++ [m] }

def shadowAct (watcher owner : String) (_ : Unit) (b : Bridge) :
    ShadowPc → Option (Bridge × ShadowPc)
  | .subscribing sid =>
    let (w, first) := b.watching.wantRemote sid
    some ({ b with watching := w }, .wanting sid first)
  | .wanting sid first => some (if first then b.send ⟨true, sid, watcher⟩ else b, .watching sid)
  | .watching sid =>
    let (w, last) := b.watching.releaseRemote sid
    some ({ b with watching := w }, .releasing sid last)
  | .releasing sid last => some (if last then b.send ⟨false, sid, watcher⟩ else b, .left)
  | .listening =>
    match b.wire with
    | [] => none
    | m :: rest =>
      let (o, n) := dispatch owner m b.owning
      some ({ b with wire := rest, owning := o }, .counting n)
  | .counting n => some ({ b with owning := b.owning.addTotal n }, .handled)
  | .left | .handled => none

abbrev ShadowPool := Pool Bridge ShadowPc
abbrev ShadowMove := Move ShadowRequest Unit

def shadowStep (watcher owner : String) : ShadowPool → ShadowMove → Option ShadowPool :=
  poolStep shadowStart (shadowAct watcher owner)

def unwatched (owned : UUID → Bool) : ShadowPool :=
  ⟨⟨Broker.new.setPeer, [], { Broker.new.setPeer with isLocal := owned }⟩, []⟩

def ShadowPc.idle : ShadowPc → Bool
  | .watching _ | .left | .handled => true
  | _ => false

def Settled (s : ShadowPool) : Prop := s.store.wire = [] ∧ ∀ pc ∈ s.calls, pc.idle

def ShadowPc.withdraws : ShadowPc → Option UUID
  | .releasing sid true => some sid
  | _ => none

/-- Interest in a session is withdrawn when nobody watches it, or before the one who
came first has announced it again. -/
def WithdrawnInTime (s : ShadowPool) : ShadowMove → Prop
  | .begin _ => True
  | .advance k _ => ∀ pc ∈ s.call k, ∀ sid ∈ pc.withdraws,
      s.store.watching.remoteIn sid = 0 ∨ .wanting sid true ∈ s.calls

instance (s : ShadowPool) (m : ShadowMove) : Decidable (WithdrawnInTime s m) := by
  unfold WithdrawnInTime
  split <;> infer_instance

/-- The owner mirrors a session to the watching instance iff somebody watches it
there. -/
structure Mirrors (watcher : String) (b : Bridge) (sid : UUID) : Prop where
  interest : watcher ∈ b.owning.remoteOut sid ↔ 0 < b.watching.remoteIn sid
  frames : ∀ f, (b.owning.publish sid f).2 ↔ 0 < b.watching.remoteIn sid

/-! ## The owner -/

/-- The interest that the owner will know of when it has heard the announcements. -/
def hears (sid : UUID) (ms : List Announcement) (known : Bool) : Bool :=
  ms.foldl (fun known m => if m.target = sid then m.want else known) known

/-- The interest that the owner of a session will know of when all has arrived. -/
def Bridge.interest (watcher : String) (sid : UUID) (b : Bridge) : Bool :=
  hears sid b.wire (decide (watcher ∈ b.owning.remoteOut sid))

section

variable {watcher owner : String} {sid : UUID} {m : Announcement} {b : Broker}

theorem hears_append (ms : List Announcement) (known : Bool) :
    hears sid (ms ++ [m]) known = if m.target = sid then m.want else hears sid ms known := by
  unfold hears
  rw [List.foldl_append]
  rfl

theorem dispatch_cases (hne : m.origin ≠ owner) :
    (m.want ∧ b.isLocal m.target ∧ (dispatch owner m b).1.remoteOut =
      Function.update b.remoteOut m.target (insert m.origin (b.remoteOut m.target))) ∨
    (m.want ∧ b.isLocal m.target = false ∧ (dispatch owner m b).1.remoteOut = b.remoteOut) ∨
    (m.want = false ∧ (dispatch owner m b).1.remoteOut =
      Function.update b.remoteOut m.target ((b.remoteOut m.target).erase m.origin)) := by
  unfold dispatch
  rw [if_neg hne]
  cases hwant : m.want with
  | false => exact .inr (.inr ⟨rfl, rfl⟩)
  | true =>
    cases hlocal : b.isLocal m.target with
    | false =>
      refine .inr (.inl ⟨rfl, rfl, Broker.remoteOut_remoteWatchStart.trans ?_⟩)
      rw [hlocal]
      rfl
    | true =>
      refine .inl ⟨rfl, rfl, Broker.remoteOut_remoteWatchStart.trans ?_⟩
      rw [hlocal]
      rfl

theorem isLocal_dispatch : (dispatch owner m b).1.isLocal = b.isLocal := by
  unfold dispatch
  split_ifs
  · rfl
  · exact Broker.isLocal_remoteWatchStart
  · rfl

theorem peered_dispatch : (dispatch owner m b).1.peered = b.peered := by
  unfold dispatch
  split_ifs
  · rfl
  · exact Broker.peered_remoteWatchStart
  · rfl

theorem mem_remoteOut_dispatch (hne : watcher ≠ owner) (horigin : m.origin = watcher)
    (hlocal : b.isLocal sid) : decide (watcher ∈ (dispatch owner m b).1.remoteOut sid) =
      if m.target = sid then m.want else decide (watcher ∈ b.remoteOut sid) := by
  subst horigin
  rcases dispatch_cases hne with ⟨hwant, -, hout⟩ | ⟨-, hnot, hout⟩ | ⟨hwant, hout⟩
  · rw [hout, hwant, Function.update_apply]
    by_cases htarget : sid = m.target <;> simp [htarget, Ne.symm]
  · rw [hout, if_neg]
    rintro rfl
    rw [hlocal] at hnot
    cases hnot
  · rw [hout, hwant, Function.update_apply]
    by_cases htarget : sid = m.target <;> simp [htarget, Ne.symm]

theorem only_dispatch (hne : watcher ≠ owner) (horigin : m.origin = watcher)
    (h : ∀ sid, ∀ o ∈ b.remoteOut sid, o = watcher) :
    ∀ sid, ∀ o ∈ (dispatch owner m b).1.remoteOut sid, o = watcher := by
  subst horigin
  intro sid o ho
  rcases dispatch_cases hne with ⟨-, -, hout⟩ | ⟨-, -, hout⟩ | ⟨-, hout⟩
  · rw [hout, Function.update_apply] at ho
    split_ifs at ho
    · exact (Finset.mem_insert.mp ho).elim id (h _ o)
    · exact h sid o ho
  · rw [hout] at ho
    exact h sid o ho
  · rw [hout, Function.update_apply] at ho
    split_ifs at ho
    · exact h _ o (Finset.mem_of_mem_erase ho)
    · exact h sid o ho

end

/-! ## Runs -/

def ShadowPc.counted (sid : UUID) : ShadowPc → Bool
  | .wanting sid' _ | .watching sid' => decide (sid' = sid)
  | _ => false

structure BridgeInv (watcher : String) (owned : UUID → Bool) (s : ShadowPool) : Prop where
  peered : s.store.watching.peered ∧ s.store.owning.peered
  isLocal : s.store.owning.isLocal = owned
  origins : ∀ m ∈ s.store.wire, m.origin = watcher
  only : ∀ sid, ∀ o ∈ s.store.owning.remoteOut sid, o = watcher
  counted : ∀ sid, s.store.watching.remoteIn sid = s.calls.countP (ShadowPc.counted sid)
  withdrawn : ∀ sid, owned sid → s.store.watching.remoteIn sid = 0 →
    .releasing sid true ∈ s.calls ∨ s.store.interest watcher sid = false

/-- Somebody who watches is known of, or about to announce it. This needs that
withdrawals come in time. -/
def Announced (watcher : String) (owned : UUID → Bool) (s : ShadowPool) : Prop :=
  ∀ sid, owned sid → 0 < s.store.watching.remoteIn sid →
    .wanting sid true ∈ s.calls ∨ s.store.interest watcher sid

section

variable {watcher owner : String} {owned : UUID → Bool} {s s' : ShadowPool} {k : ℕ}
  {pc pc' : ShadowPc} {b' : Bridge} {m : ShadowMove} {ms : List ShadowMove}

theorem interest_send (watcher : String) (a : Announcement) (b : Bridge) (sid : UUID) :
    (b.send a).interest watcher sid = if a.target = sid then a.want else b.interest watcher sid :=
  hears_append b.wire _

variable {sid : UUID}

variable {a : Announcement} {rest : List Announcement}

/-- What the owner will know is the same before and after it hears an announcement. -/
theorem interest_dispatch (hne : watcher ≠ owner) {b : Bridge}
    (hwire : b.wire = a :: rest) (horigin : a.origin = watcher) (hlocal : b.owning.isLocal sid) :
    Bridge.interest watcher sid { b with wire := rest, owning := (dispatch owner a b.owning).1 } =
      b.interest watcher sid := by
  unfold Bridge.interest
  rw [hwire, mem_remoteOut_dispatch hne horigin hlocal]
  rfl

theorem mem_put_of_ne {pc₀ : ShadowPc} (hk : s.call k = some pc) (hmem : pc₀ ∈ s.calls)
    (hne : pc₀ ≠ pc) : pc₀ ∈ (s.put k b' pc').calls :=
  (Pool.mem_put_of_mem hk hmem b' pc').resolve_left hne

theorem mem_put_self (hk : s.call k = some pc) : pc' ∈ (s.put k b' pc').calls :=
  List.mem_of_getElem? (Pool.call_put_self hk b' pc')

/-- What is known of a session, or about to be told, stays so when another call moves. -/
theorem told_put {pc₀ : ShadowPc} {v : Bool} (hk : s.call k = some pc) (hne : pc₀ ≠ pc)
    (hsame : b'.interest watcher sid = s.store.interest watcher sid)
    (h : pc₀ ∈ s.calls ∨ s.store.interest watcher sid = v) :
    pc₀ ∈ (s.put k b' pc').calls ∨ b'.interest watcher sid = v :=
  h.imp (mem_put_of_ne hk · hne) hsame.trans

section

variable (hi : BridgeInv watcher owned s)

include hi

theorem counted_put (hk : s.call k = some pc)
    (hin : ∀ sid, b'.watching.remoteIn sid + (if pc.counted sid then 1 else 0) =
      s.store.watching.remoteIn sid + (if pc'.counted sid then 1 else 0)) (sid : UUID) :
    b'.watching.remoteIn sid = (s.put k b' pc').calls.countP (ShadowPc.counted sid) := by
  have hcount := Pool.countP_put (ShadowPc.counted sid) hk b' pc'
  have hbefore := hi.counted sid
  have hstep := hin sid
  omega

theorem remoteIn_pos (hk : s.call k = some pc)
    (hcounted : pc.counted sid) : 0 < s.store.watching.remoteIn sid := by
  rw [hi.counted sid]
  exact List.countP_pos_iff.mpr ⟨pc, Pool.mem_of_call hk, hcounted⟩

theorem bridgeInv_enter (q : ShadowRequest) :
    BridgeInv watcher owned (s.enter (shadowStart q)) := by
  refine ⟨hi.peered, hi.isLocal, hi.origins, hi.only, ?_, ?_⟩
  · intro sid
    have hnot : (shadowStart q).counted sid = false := by cases q <;> rfl
    rw [Pool.countP_enter, hnot]
    exact hi.counted sid
  · intro sid howned hzero
    exact (hi.withdrawn sid howned hzero).imp_left (List.mem_append_left _)

theorem BridgeInv.origins_send (want : Bool) (sid : UUID) :
    ∀ m ∈ (s.store.send ⟨want, sid, watcher⟩).wire, m.origin = watcher := by
  intro m hm
  rcases List.mem_append.mp hm with hm | hm
  · exact hi.origins m hm
  · rw [List.mem_singleton.mp hm]

/-- All that a step does. Who comes first is about to announce, and who leaves last to
withdraw. -/
structure ShadowEffect (watcher : String) (owned : UUID → Bool) (b b' : Bridge)
    (pc pc' : ShadowPc) : Prop where
  peered : b'.watching.peered ∧ b'.owning.peered
  isLocal : b'.owning.isLocal = owned
  origins : ∀ m ∈ b'.wire, m.origin = watcher
  only : ∀ sid, ∀ o ∈ b'.owning.remoteOut sid, o = watcher
  counted : ∀ sid, b'.watching.remoteIn sid + (if pc.counted sid then 1 else 0) =
    b.watching.remoteIn sid + (if pc'.counted sid then 1 else 0)
  comes : ∀ sid, pc'.counted sid → pc.counted sid = false →
    pc' = .wanting sid (decide (b.watching.remoteIn sid = 0))
  leaves : ∀ sid, pc.counted sid → pc'.counted sid = false →
    pc' = .releasing sid (decide (b'.watching.remoteIn sid = 0))
  told : ∀ sid, owned sid → b'.interest watcher sid =
    if pc = .wanting sid true then true else if pc = .releasing sid true then false
    else b.interest watcher sid

theorem shadowAct_effect (hne : watcher ≠ owner) (hk : s.call k = some pc)
    (h : shadowAct watcher owner () s.store pc = some (b', pc')) :
    ShadowEffect watcher owned s.store b' pc pc' := by
  cases pc with
  | subscribing sid =>
    cases h
    refine ⟨hi.peered, hi.isLocal, hi.origins, hi.only, ?_, ?_, nofun, fun _ _ => rfl⟩
    · intro sid'
      show (s.store.watching.wantRemote sid).1.remoteIn sid' + _ = _
      rw [Broker.remoteIn_wantRemote]
      simp [ShadowPc.counted]
    · intro sid' hcounted _
      obtain rfl : sid = sid' := of_decide_eq_true hcounted
      exact congrArg _ (Broker.wantRemote_snd hi.peered.1)
  | wanting sid first =>
    have hsame {sid' : UUID} {P : Prop} : decide (sid = sid') = true →
        decide (sid = sid') = false → P :=
      fun h h' => Bool.noConfusion (h.symm.trans h')
    cases h
    cases first with
    | false =>
      exact ⟨hi.peered, hi.isLocal, hi.origins, hi.only, fun _ => rfl, fun _ => hsame,
        fun _ => hsame, fun _ _ => by simp⟩
    | true =>
      exact ⟨hi.peered, hi.isLocal, hi.origins_send _ sid, hi.only, fun _ => rfl, fun _ => hsame,
        fun _ => hsame, fun _ _ => by simp [interest_send]⟩
  | watching sid =>
    cases h
    have hin := Broker.remoteIn_releaseRemote (remoteIn_pos hi hk (decide_eq_true rfl))
    refine ⟨hi.peered, hi.isLocal, hi.origins, hi.only, ?_, nofun, ?_, fun _ _ => rfl⟩
    · intro sid'
      show (s.store.watching.releaseRemote sid).1.remoteIn sid' + _ = _
      rw [← hin sid']
      simp [ShadowPc.counted]
    · intro sid' hcounted _
      obtain rfl : sid = sid' := of_decide_eq_true hcounted
      exact congrArg _ (Broker.releaseRemote_snd hi.peered.1)
  | releasing sid last =>
    cases h
    cases last with
    | false => exact ⟨hi.peered, hi.isLocal, hi.origins, hi.only, fun _ => rfl, nofun, nofun,
        fun _ _ => by simp⟩
    | true =>
      exact ⟨hi.peered, hi.isLocal, hi.origins_send _ sid, hi.only, fun _ => rfl, nofun, nofun,
        fun _ _ => by simp [interest_send]⟩
  | listening =>
    simp only [shadowAct] at h
    split at h
    · cases h
    rename_i a rest hwire
    cases h
    have horigin : a.origin = watcher := hi.origins a (hwire ▸ List.mem_cons_self)
    refine ⟨⟨hi.peered.1, peered_dispatch.trans hi.peered.2⟩, isLocal_dispatch.trans hi.isLocal, ?_,
      only_dispatch hne horigin hi.only, fun _ => rfl, nofun, nofun, ?_⟩
    · intro a' ha'
      exact hi.origins a' (hwire ▸ List.mem_cons_of_mem a ha')
    · intro sid howned
      exact interest_dispatch hne hwire horigin (hi.isLocal ▸ howned)
  | counting n =>
    cases h
    exact ⟨hi.peered, hi.isLocal, hi.origins, hi.only, fun _ => rfl, nofun, nofun, fun _ _ => rfl⟩
  | left | handled => cases h

theorem bridgeInv_put (hk : s.call k = some pc)
    (h : ShadowEffect watcher owned s.store b' pc pc') :
    BridgeInv watcher owned (s.put k b' pc') := by
  have hcounted := counted_put hi hk h.counted
  refine ⟨h.peered, h.isLocal, h.origins, h.only, hcounted, fun sid howned hzero => ?_⟩
  have hzero' : b'.watching.remoteIn sid = 0 := hzero
  have hgone : pc'.counted sid = false := by
    rw [hcounted sid, List.countP_eq_zero] at hzero'
    exact Bool.eq_false_iff.mpr (hzero' pc' (mem_put_self hk))
  have hin := h.counted sid
  have htold := h.told sid howned
  cases hpc : pc.counted sid with
  | true =>
    left
    rw [h.leaves sid hpc hgone, decide_eq_true hzero']
    exact mem_put_self hk
  | false =>
    rw [hpc, hgone, hzero'] at hin
    have hfirst : pc ≠ .wanting sid true := by
      rintro rfl
      cases hpc.symm.trans (decide_eq_true rfl)
    rw [if_neg hfirst] at htold
    by_cases hlast : pc = .releasing sid true
    · exact .inr (htold.trans (if_pos hlast))
    · exact told_put hk (Ne.symm hlast) (htold.trans (if_neg hlast))
        (hi.withdrawn sid howned hin.symm)

theorem bridgeInv_step (hne : watcher ≠ owner)
    (h : shadowStep watcher owner s m = some s') : BridgeInv watcher owned s' := by
  rcases poolStep_cases h with ⟨q, rfl, rfl⟩ | ⟨k, i, pc, b', pc', rfl, hk, hact, rfl⟩
  · exact bridgeInv_enter hi q
  · exact bridgeInv_put hi hk (shadowAct_effect hi hne hk hact)

end

theorem announced_enter (h : Announced watcher owned s) (q : ShadowRequest) :
    Announced watcher owned (s.enter (shadowStart q)) := by
  intro sid howned hpos
  exact (h sid howned hpos).imp_left (List.mem_append_left _)

/-- A withdrawal is the only step for which the order of announcements matters. -/
theorem announced_put (ha : Announced watcher owned s) (hk : s.call k = some pc)
    (h : ShadowEffect watcher owned s.store b' pc pc')
    (htime : ∀ sid, pc = .releasing sid true → s.store.watching.remoteIn sid = 0 ∨
      .wanting sid true ∈ s.calls) :
    Announced watcher owned (s.put k b' pc') := by
  intro sid howned hpos
  have hpos' : 0 < b'.watching.remoteIn sid := hpos
  have hin := h.counted sid
  rcases Nat.eq_zero_or_pos (s.store.watching.remoteIn sid) with hzero | hbefore
  · left
    obtain ⟨hcounted, hnot⟩ : pc'.counted sid ∧ pc.counted sid = false := by
      split_ifs at hin <;> first | omega | simp_all
    rw [h.comes sid hcounted hnot, decide_eq_true hzero]
    exact mem_put_self hk
  have htold := h.told sid howned
  by_cases hfirst : pc = .wanting sid true
  · exact .inr (htold.trans (if_pos hfirst))
  rw [if_neg hfirst] at htold
  by_cases hlast : pc = .releasing sid true
  · rcases htime sid hlast with hzero | hmem
    · exact absurd hzero hbefore.ne'
    · exact .inl (mem_put_of_ne hk hmem (Ne.symm hfirst))
  · exact told_put hk (Ne.symm hfirst) (htold.trans (if_neg hlast)) (ha sid howned hbefore)

theorem announced_step (hne : watcher ≠ owner) (hi : BridgeInv watcher owned s)
    (h : Announced watcher owned s) (hg : WithdrawnInTime s m)
    (hstep : shadowStep watcher owner s m = some s') : Announced watcher owned s' := by
  rcases poolStep_cases hstep with ⟨q, rfl, rfl⟩ | ⟨k, i, pc, b', pc', rfl, hk, hact, rfl⟩
  · exact announced_enter h q
  · refine announced_put h hk (shadowAct_effect hi hne hk hact) fun sid hpc => ?_
    subst hpc
    exact hg _ hk sid rfl

theorem bridgeInv_unwatched : BridgeInv watcher owned (unwatched owned) where
  peered := ⟨rfl, rfl⟩
  isLocal := rfl
  origins _ h := absurd h List.not_mem_nil
  only _ _ h := absurd h (Finset.notMem_empty _)
  counted _ := rfl
  withdrawn sid _ _ := by
    right
    show decide (watcher ∈ (∅ : Finset String)) = false
    exact decide_eq_false (Finset.notMem_empty watcher)

theorem announced_unwatched : Announced watcher owned (unwatched owned) :=
  fun _ _ hpos => absurd hpos (Nat.lt_irrefl 0)

theorem interest_of_settled (hs : Settled s) (sid : UUID) :
    s.store.interest watcher sid = decide (watcher ∈ s.store.owning.remoteOut sid) := by
  unfold Bridge.interest
  rw [hs.1]
  rfl

theorem not_mem_of_settled (hs : Settled s) (h : pc.idle = false) : pc ∉ s.calls := by
  intro hmem
  rw [hs.2 pc hmem] at h
  cases h

/-- Nobody keeps the mirror on who has left, whatever the order. -/
theorem not_mem_remoteOut (hi : BridgeInv watcher owned s) (hs : Settled s)
    (howned : owned sid) (hzero : s.store.watching.remoteIn sid = 0) :
    watcher ∉ s.store.owning.remoteOut sid := by
  rcases hi.withdrawn sid howned hzero with hmem | hknown
  · exact absurd hmem (not_mem_of_settled hs rfl)
  · rw [interest_of_settled hs] at hknown
    exact of_decide_eq_false hknown

theorem mem_remoteOut (h : Announced watcher owned s) (hs : Settled s)
    (howned : owned sid) (hpos : 0 < s.store.watching.remoteIn sid) :
    watcher ∈ s.store.owning.remoteOut sid := by
  rcases h sid howned hpos with hmem | hknown
  · exact absurd hmem (not_mem_of_settled hs rfl)
  · rw [interest_of_settled hs] at hknown
    exact of_decide_eq_true hknown

theorem mirrors_of_interest (hi : BridgeInv watcher owned s)
    (h : watcher ∈ s.store.owning.remoteOut sid ↔ 0 < s.store.watching.remoteIn sid) :
    Mirrors watcher s.store sid := by
  refine ⟨h, fun f => ?_⟩
  show (s.store.owning.peered && decide (s.store.owning.remoteOut sid ≠ ∅)) ↔ _
  rw [hi.peered.2, Bool.true_and, decide_eq_true_iff, ← h, ← Finset.nonempty_iff_ne_empty]
  constructor
  · rintro ⟨o, ho⟩
    rwa [← hi.only sid o ho]
  · intro hmem
    exact ⟨watcher, hmem⟩

end

/-- In every run in which interest is withdrawn in time, once all is done, a session
is mirrored iff it is watched. -/
theorem shadowing_converges {watcher owner : String} (hne : watcher ≠ owner) {owned : UUID → Bool}
    {ms : List ShadowMove} {s : ShadowPool}
    (h : exec (shadowStep watcher owner) (unwatched owned) ms = some s)
    (htime : Guarded (shadowStep watcher owner) WithdrawnInTime (unwatched owned) ms)
    (hs : Settled s) {sid : UUID} (howned : owned sid) : Mirrors watcher s.store sid := by
  have hstep : ∀ {s m s'}, BridgeInv watcher owned s ∧ Announced watcher owned s →
      WithdrawnInTime s m →
      shadowStep watcher owner s m = some s' → BridgeInv watcher owned s' ∧
      Announced watcher owned s' :=
    fun hi hg hstep => ⟨bridgeInv_step hi.1 hne hstep, announced_step hne hi.1 hi.2 hg hstep⟩
  obtain ⟨hi, hannounced⟩ := exec_invariant hstep htime h ⟨bridgeInv_unwatched, announced_unwatched⟩
  refine mirrors_of_interest hi ⟨fun hmem => ?_, mem_remoteOut hannounced hs howned⟩
  exact Nat.pos_of_ne_zero fun hzero => not_mem_remoteOut hi hs howned hzero hmem

def shadowMove (k : ℕ) : ShadowMove := .advance k ()

/-- The first watcher comes and is heard of. It leaves, but has not withdrawn yet
when the second one is counted. -/
def overlapping : List ShadowMove :=
  [.begin (.watch (.ofNat 1)), shadowMove 0, shadowMove 0, .begin .deliver, shadowMove 1,
    shadowMove 1, shadowMove 0, .begin (.watch (.ofNat 1)), shadowMove 2]

def deliveries : List ShadowMove :=
  [.begin .deliver, shadowMove 3, shadowMove 3, .begin .deliver, shadowMove 4, shadowMove 4]

def shadowView (s : ShadowPool) : Bool × Bool × ℕ :=
  (s.store.wire.isEmpty && s.calls.all ShadowPc.idle,
    decide ("b" ∈ s.store.owning.remoteOut (.ofNat 1)), s.store.watching.remoteIn (.ofNat 1))

theorem settled_of_view {s : ShadowPool} {mirrored : Bool} {n : ℕ}
    (h : shadowView s = (true, mirrored, n)) :
    Settled s ∧ decide ("b" ∈ s.store.owning.remoteOut (.ofNat 1)) = mirrored ∧
      s.store.watching.remoteIn (.ofNat 1) = n := by
  obtain ⟨hdone, hrest⟩ := Prod.mk.inj h
  obtain ⟨hwire, hidle⟩ := Bool.and_eq_true_iff.mp hdone
  obtain ⟨hmirrored, hcount⟩ := Prod.mk.inj hrest
  exact ⟨⟨List.isEmpty_iff.mp hwire, List.all_eq_true.mp hidle⟩, hmirrored, hcount⟩

/-- The first watcher withdraws before the second one announces. -/
theorem shadowing_converges_overlapping : ∃ s, exec (shadowStep "b" "a") (unwatched fun _ => true)
        (overlapping ++ [shadowMove 0, shadowMove 2] ++ deliveries) = some s ∧
      s.store.watching.remoteIn (.ofNat 1) = 1 ∧ Mirrors "b" s.store (.ofNat 1) := by
  refine exists_of_view shadowView (true, true, 1) (by decide +kernel) fun s hs hview => ?_
  obtain ⟨hsettled, -, hcount⟩ := settled_of_view hview
  exact ⟨hcount, shadowing_converges (by decide) hs (by decide +kernel) hsettled rfl⟩

/-- The other way round, the second watcher is left without frames. -/
theorem watcher_without_frames : ∃ s, exec (shadowStep "b" "a") (unwatched fun _ => true)
        (overlapping ++ [shadowMove 2, shadowMove 0] ++ deliveries) = some s ∧ Settled s ∧
      0 < s.store.watching.remoteIn (.ofNat 1) ∧ "b" ∉ s.store.owning.remoteOut (.ofNat 1) := by
  refine exists_of_view shadowView (true, false, 1) (by decide +kernel) fun s _ hview => ?_
  obtain ⟨hsettled, hmirrored, hcount⟩ := settled_of_view hview
  refine ⟨hsettled, ?_, of_decide_eq_false hmirrored⟩
  rw [hcount]
  exact Nat.one_pos

end Moorgate.Livesessions
