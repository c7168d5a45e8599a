import Moorgate.Framework.Base.Calls

/-!
# Links of a site: `handleLink` of `federation/hub.go` and the registry of `federation/link`

`handleLink` runs once for each connection of the site: it verifies the token, puts the session in
the registry, writes `active` and `up`, and serves the session until it is closed; then it removes
the session of the site from the registry and writes `down`.

`Remove` takes the site, not the session. A handler that winds down closes what is registered at
that time, which is its successor's when the site has reconnected; and its `down` comes after the
successor's `up`. These, and a failing write of `up`, are all that unlinks a site whose connection
is open (`stays_linked_iff`). Sessions are numbered in the order in which they are put in the
registry.
-/

namespace Moorgate.Federation

open Framework

/-! ## The registry and the row of the site -/

inductive SiteStatus where
  | pending | active | revoked | error
deriving DecidableEq

inductive LinkState where
  | up | down
deriving DecidableEq

/-- The columns of `federation_sites` that a link reads or writes. -/
structure SiteRow where
  status : SiteStatus
  link : LinkState
deriving DecidableEq

/-- What the hub has for a site: its row, the sessions so far, those whose peer is gone,
those that the hub has closed, and the one in the registry. -/
structure HubLink where
  row : Option SiteRow
  accepted : ℕ
  (dropped closed : ℕ → Bool)
  registered : Option ℕ

namespace HubLink

variable (s : HubLink)

def setSiteStatus (status : SiteStatus) : HubLink :=
  { s with row := s.row.map fun r => { r with status } }

def setSiteLink (link : LinkState) : HubLink := { s with row := s.row.map fun r => { r with link } }

def isClosed (k : ℕ) : Bool := s.dropped k || s.closed k

def close (k : ℕ) : HubLink := { s with closed := Function.update s.closed k true }

def closeRegistered : HubLink :=
  match s.registered with
  | some k => s.close k
  | none => s

def put : HubLink :=
  { s.closeRegistered with accepted := s.accepted + 1, registered := some s.accepted }

def get : Option ℕ := s.registered.filter fun k => !s.isClosed k

def remove : HubLink := { s.closeRegistered with registered := none }

end HubLink

/-! ## Handlers -/

inductive LinkPc where
  | looking | verifying | upgrading | putting
  | activating (k : ℕ)
  | linking (k : ℕ)
  | serving (k : ℕ)
  | removing (k : ℕ)
  | unlinking (k : ℕ)
  | returned
deriving DecidableEq

/-- One statement of `handleLink`. `ok` says whether what it calls succeeds: the query, the
token, the upgrade, the write. -/
def handleLinkAct (ok : Bool) (s : HubLink) : LinkPc → Option (HubLink × LinkPc)
  | .looking =>
    let admitted := ok && s.row.any fun r => decide (r.status ≠ .revoked)
    some (s, if admitted then .verifying else .returned)
  | .verifying => some (s, if ok then .upgrading else .returned)
  | .upgrading => some (s, if ok then .putting else .returned)
  | .putting => some (s.put, .activating s.accepted)
  -- the errors of the three writes are dropped
  | .activating k => some (if ok then s.setSiteStatus .active else s, .linking k)
  | .linking k => some (if ok then s.setSiteLink .up else s, .serving k)
  | .serving k => if s.isClosed k then some (s, .removing k) else none
  | .removing k => some (s.remove, .unlinking k)
  | .unlinking _ => some (if ok then s.setSiteLink .down else s, .returned)
  | .returned => none

/-- A handler, the loss of a peer, and the goroutine of a `ping` stream. -/
inductive LinkCall where
  | handler (pc : LinkPc)
  | dropping (k : ℕ)
  | pinging | done
deriving DecidableEq

inductive LinkRequest where
  | connect
  | drop (k : ℕ)
  | ping

def LinkRequest.start : LinkRequest → LinkCall
  | .connect => .handler .looking
  | .drop k => .dropping k
  | .ping => .pinging

def linkAct (ok : Bool) (s : HubLink) : LinkCall → Option (HubLink × LinkCall)
  | .handler pc => (handleLinkAct ok s pc).map fun next => (next.1, .handler next.2)
  | .dropping k =>
    some (if k < s.accepted then { s with dropped := Function.update s.dropped k true }
      else s, .done)
  | .pinging => some (if ok then s.setSiteLink .up else s, .done)
  | .done => none

abbrev LinkPool := Pool HubLink LinkCall

abbrev LinkMove := Move LinkRequest Bool

def linkStep : LinkPool → LinkMove → Option LinkPool := poolStep LinkRequest.start linkAct

def unlinked (row : SiteRow) : LinkPool := ⟨⟨some row, 0, fun _ => false, fun _ => false, none⟩, []⟩

/-! ## The property -/

def LinkCall.session : LinkCall → Option ℕ
  | .handler (.activating k) | .handler (.linking k) | .handler (.serving k) | .handler
      (.removing k)
  | .handler (.unlinking k) => some k
  | _ => none

def HubLink.Open (s : HubLink) (k : ℕ) : Prop := k + 1 = s.accepted ∧ s.dropped k = false

/-- The call is not in the way of session `k` being up: it is for none, or serves this one. -/
def LinkCall.Past (k : ℕ) (c : LinkCall) : Prop :=
  ∀ j, c.session = some j → c = .handler (.serving k)

def OthersPast (s : Pool HubLink LinkCall) (c k : ℕ) : Prop :=
  ∀ d q, d ≠ c → s.call d = some q → q.Past k

def HubLink.IsUp (s : HubLink) : Prop := s.row.any fun r => decide (r.link = .up)

instance (s : HubLink) : Decidable s.IsUp := inferInstanceAs (Decidable (_ = true))

/-- The latest session is registered and not closed by the hub while its peer is there; and
when all older handlers have returned and its own one serves it, the link is up. -/
def StaysLinked (s : LinkPool) : Prop :=
  ∀ k, s.store.Open k → s.store.get = some k ∧ s.store.closed k = false ∧
    ((∀ c ∈ s.calls, c.Past k) → s.store.IsUp)

/-- The statement takes session `k` down: an older handler removes it from the registry, or
is the last one to write `down`, or the `up` of its own handler fails. -/
def LinkPc.Tears (s : Pool HubLink LinkCall) (c : ℕ) (ok : Bool) (k : ℕ) : LinkPc → Prop
  | .removing j => j ≠ k
  | .unlinking j => j ≠ k ∧ OthersPast s c k ∧ (ok ∨ ¬ s.store.IsUp)
  | .linking j => j = k ∧ OthersPast s c k ∧ ok = false ∧ ¬ s.store.IsUp
  | _ => False

/-- The move tears down a session whose peer is there. -/
def TearsDown (s : LinkPool) : LinkMove → Prop
  | .begin _ => False
  | .advance c ok => ∃ pc k, s.call c = some (.handler pc) ∧ s.store.Open k ∧ pc.Tears s c ok k

/-! ## What is kept -/

/-- Only the latest session is registered, and sessions to come are open. -/
structure HubLink.Good (s : HubLink) : Prop where
  registered : ∀ k, s.registered = some k → k + 1 = s.accepted
  fresh : ∀ k, s.accepted ≤ k → s.dropped k = false ∧ s.closed k = false

/-- A handler that winds down has lost its session. -/
def LinkCall.Ended (s : HubLink) (c : LinkCall) : Prop :=
  ∀ k, c = .handler (.removing k) ∨ c = .handler (.unlinking k) → s.isClosed k

structure LinkInv (s : LinkPool) : Prop where
  row : s.store.row.isSome
  good : s.store.Good
  ended : ∀ c ∈ s.calls, c.Ended s.store

section

variable {s s' : LinkPool} {st st' : HubLink} {m : LinkMove} {c k : ℕ} {p p' : LinkCall} {ok : Bool}

theorem closed_closeRegistered (st : HubLink) (k : ℕ) :
    st.closeRegistered.closed k = (st.closed k || decide (st.registered = some k)) := by
  unfold HubLink.closeRegistered
  split
  · rename_i j hj
    unfold HubLink.close
    dsimp only
    rw [Function.update_apply, hj]
    by_cases hk : k = j
    · simp [hk]
    · simp [hk, Ne.symm hk]
  · next hnone => simp [hnone]

theorem fields_closeRegistered (st : HubLink) : st.closeRegistered.row = st.row ∧
    st.closeRegistered.dropped = st.dropped ∧ st.closeRegistered.accepted = st.accepted := by
  unfold HubLink.closeRegistered
  split
  all_goals exact ⟨rfl, rfl, rfl⟩

theorem isClosed_closeRegistered (h : st.isClosed k) : st.closeRegistered.isClosed k := by
  unfold HubLink.isClosed at *
  rw [closed_closeRegistered, (fields_closeRegistered st).2.1]
  simp only [Bool.or_eq_true] at h ⊢
  exact h.imp_right .inl

theorem HubLink.Good.fresh_closeRegistered (h : st.Good) (hk : st.accepted ≤ k) :
    st.closeRegistered.dropped k = false ∧ st.closeRegistered.closed k = false := by
  have hfresh := h.fresh k hk
  have hne : st.registered ≠ some k := by
    intro hreg
    have hlast := h.registered k hreg
    omega
  rw [closed_closeRegistered, (fields_closeRegistered st).2.1]
  simp [hfresh, hne]

theorem good_put (h : st.Good) : st.put.Good where
  registered k hk := by
    cases hk
    rfl
  fresh k hk := h.fresh_closeRegistered (Nat.le_of_succ_le hk)

theorem good_remove (h : st.Good) : st.remove.Good where
  registered k hk := by cases hk
  fresh k hk := by
    have haccepted : st.accepted ≤ k := (fields_closeRegistered st).2.2 ▸ hk
    exact h.fresh_closeRegistered haccepted

/-- A statement opens no session again, and keeps what is known of the registry. -/
structure LinkEffect (st st' : HubLink) (p p' : LinkCall) : Prop where
  row : st.row.isSome → st'.row.isSome
  good : st.Good → st'.Good
  closed : ∀ k, st.isClosed k → st'.isClosed k
  ended : p.Ended st → p'.Ended st'

theorem LinkEffect.passed (hended : p'.Ended st) : LinkEffect st st p p' :=
  ⟨id, id, fun _ h => h, fun _ => hended⟩

theorem ended_of_ne {c : LinkCall}
    (h : ∀ k, c ≠ .handler (.removing k) ∧ c ≠ .handler (.unlinking k)) : c.Ended st := by
  rintro k (rfl | rfl)
  · exact absurd rfl (h k).1
  · exact absurd rfl (h k).2

theorem LinkEffect.wrote (f : SiteRow → SiteRow)
    (hp' : ∀ k, p' ≠ .handler (.removing k) ∧ p' ≠ .handler (.unlinking k)) :
    LinkEffect st (if ok then { st with row := st.row.map f } else st) p p' := by
  split
  · refine ⟨fun h => ?_, fun h => ⟨h.registered, h.fresh⟩, fun _ h => h, fun _ => ended_of_ne hp'⟩
    simpa using h
  · exact .passed (ended_of_ne hp')

variable {pc pc' : LinkPc}

theorem handleLinkAct_effect (h : handleLinkAct ok st pc = some (st', pc')) :
    LinkEffect st st' (.handler pc) (.handler pc') := by
  cases pc with
  | looking | verifying | upgrading =>
    cases h
    refine .passed (ended_of_ne fun k => ?_)
    split <;> simp
  | putting =>
    cases h
    refine ⟨fun hrow => ?_, good_put, fun k => isClosed_closeRegistered,
      fun _ => ended_of_ne (by simp)⟩
    exact (fields_closeRegistered st).1 ▸ hrow
  | activating k | linking k | unlinking k =>
    cases h
    exact .wrote _ (by simp)
  | serving k =>
    obtain ⟨hclosed, ⟨⟩⟩ := Option.ite_none_right_eq_some.mp h
    refine .passed ?_
    rintro j (hj | hj)
    · cases hj
      exact hclosed
    · cases hj
  | removing k =>
    cases h
    refine ⟨fun hrow => ?_, good_remove, fun k => isClosed_closeRegistered, fun hended => ?_⟩
    · exact (fields_closeRegistered st).1 ▸ hrow
    rintro j (hj | hj)
    · cases hj
    · cases hj
      exact isClosed_closeRegistered (hended k (.inl rfl))
  | returned => cases h

theorem linkAct_effect (h : linkAct ok st p = some (st', p')) : LinkEffect st st' p p' := by
  cases p with
  | handler pc =>
    obtain ⟨⟨st₁, pc'⟩, hact, ⟨⟩⟩ := Option.map_eq_some_iff.mp h
    exact handleLinkAct_effect hact
  | dropping k =>
    cases h
    split
    · refine ⟨id, fun hgood => ⟨hgood.registered, fun j hj => ?_⟩, fun j hj => ?_,
        fun _ => ended_of_ne (by simp)⟩
      · have hne : j ≠ k := by
          have hle : st.accepted ≤ j := hj
          omega
        have hfresh := hgood.fresh j hj
        simpa [Function.update_of_ne hne] using hfresh
      · simp only [HubLink.isClosed, Function.update_apply, Bool.or_eq_true] at hj ⊢
        rcases hj with hdropped | hclosed
        · left
          split
          · rfl
          · exact hdropped
        · exact .inr hclosed
    · exact .passed (ended_of_ne (by simp))
  | pinging =>
    cases h
    exact .wrote _ (by simp)
  | done => cases h

theorem linkInv_step (hi : LinkInv s) (h : linkStep s m = some s') : LinkInv s' := by
  rcases poolStep_cases h with ⟨rq, -, rfl⟩ | ⟨c, ok, p, st, p', -, hc, hact, rfl⟩
  · refine ⟨hi.row, hi.good, Pool.forall_enter hi.ended (ended_of_ne fun k => ?_)⟩
    cases rq <;> simp [LinkRequest.start]
  · have heffect := linkAct_effect hact
    refine ⟨heffect.row hi.row, heffect.good hi.good, Pool.forall_put ?_ ?_⟩
    · intro q hq k hk
      exact heffect.closed k (hi.ended q hq k hk)
    · exact heffect.ended (hi.ended p (Pool.mem_of_call hc))

/-! ## One step -/

theorem past_of_session (h : p.session = none) : p.Past k := by
  intro j hj
  cases h.symm.trans hj

/-- A statement that leaves the sessions as they are, by a call that was not in the way or
still is. -/
theorem StaysLinked.put_of_same (hp : StaysLinked s) (hc : s.call c = some p)
    (haccepted : st.accepted = s.store.accepted) (hdropped : st.dropped = s.store.dropped)
    (hclosed : st.closed = s.store.closed) (hregistered : st.registered = s.store.registered)
    (hup : ∀ k, s.store.Open k → p'.Past k → OthersPast s c k → p.Past k ∧
      (s.store.IsUp → st.IsUp) ∨ st.IsUp) :
    StaysLinked (s.put c st p') := by
  intro k hopen
  have hopen₀ : s.store.Open k := by
    obtain ⟨hlast, hpeer⟩ := hopen
    exact ⟨hlast.trans haccepted, hdropped ▸ hpeer⟩
  obtain ⟨hget, hnot, hlink⟩ := hp k hopen₀
  refine ⟨?_, ?_, fun hall => ?_⟩
  · simpa only [HubLink.get, HubLink.isClosed, Pool.put, hdropped, hclosed, hregistered] using hget
  · simpa only [Pool.put, hclosed] using hnot
  obtain ⟨hp', hothers⟩ := (Pool.forall_put_iff hc st p').mp hall
  rcases hup k hopen₀ hp' hothers with ⟨hpast, hkept⟩ | hup
  · refine hkept (hlink fun q hq => ?_)
    obtain ⟨d, hd⟩ := List.mem_iff_getElem?.mp hq
    by_cases hdc : d = c
    · subst hdc
      cases hc.symm.trans hd
      exact hpast
    · exact hothers d q hdc hd
  · exact hup

variable {j : ℕ}

theorem StaysLinked.older (hi : LinkInv s) (hp : StaysLinked s) (hopen : s.store.Open k)
    (hc : s.call c = some (.handler (.removing j)) ∨ s.call c = some (.handler (.unlinking j))) :
    j ≠ k := by
  rintro rfl
  have hclosed : s.store.isClosed j := by
    rcases hc with hc | hc
    · exact hi.ended _ (Pool.mem_of_call hc) j (.inl rfl)
    · exact hi.ended _ (Pool.mem_of_call hc) j (.inr rfl)
  unfold HubLink.isClosed at hclosed
  rw [hopen.2, (hp j hopen).2.1] at hclosed
  cases hclosed

theorem isUp_setSiteLink (h : st.row.isSome) : (st.setSiteLink .up).IsUp := by
  obtain ⟨r, hr⟩ := Option.isSome_iff_exists.mp h
  unfold HubLink.IsUp HubLink.setSiteLink
  simp [hr]

theorem not_isUp_setSiteLink_down : ¬ (st.setSiteLink .down).IsUp := by
  unfold HubLink.IsUp HubLink.setSiteLink
  cases st.row <;> simp

theorem staysLinked_putting (hi : LinkInv s) (hc : s.call c = some (.handler .putting)) :
    StaysLinked (s.put c s.store.put (.handler (.activating s.store.accepted))) := by
  rintro k ⟨hlast, -⟩
  obtain rfl : k = s.store.accepted := Nat.succ.inj hlast
  obtain ⟨hdropped, hclosed⟩ := hi.good.fresh_closeRegistered le_rfl
  refine ⟨?_, hclosed, fun hall => ?_⟩
  · simp [HubLink.get, HubLink.put, HubLink.isClosed, Pool.put, Option.filter, hdropped, hclosed]
  · have hpast := hall _ (Pool.mem_of_call (Pool.call_put_self hc _ _)) s.store.accepted rfl
    cases hpast

theorem not_staysLinked_removing (hopen : s.store.Open k) :
    ¬ StaysLinked (s.put c s.store.remove (.handler (.unlinking j))) := by
  intro hp'
  obtain ⟨hlast, hpeer⟩ := hopen
  obtain ⟨-, hdropped, haccepted⟩ := fields_closeRegistered s.store
  have hopen' : s.store.remove.Open k := by
    refine ⟨hlast.trans haccepted.symm, ?_⟩
    show s.store.closeRegistered.dropped k = false
    rw [hdropped]
    exact hpeer
  obtain ⟨hget, -⟩ := hp' k hopen'
  cases hget

theorem staysLinked_removing (hno : ∀ k, ¬ s.store.Open k) :
    StaysLinked (s.put c s.store.remove (.handler (.unlinking j))) := by
  obtain ⟨-, hdropped, haccepted⟩ := fields_closeRegistered s.store
  rintro k ⟨hlast, hpeer⟩
  refine absurd ⟨?_, ?_⟩ (hno k)
  · exact hlast.trans haccepted
  · exact hdropped ▸ hpeer

theorem tears_enabled (h : pc.Tears s c ok k) :
    ∃ next, handleLinkAct ok s.store pc = some next := by
  cases pc with
  | removing j | unlinking j | linking j => exact ⟨_, rfl⟩
  | _ => exact absurd h not_false

section

variable (hi : LinkInv s) (hp : StaysLinked s)

include hi hp

theorem staysLinked_linking (hc : s.call c = some (.handler (.linking j))) :
    StaysLinked (s.put c (if ok then s.store.setSiteLink .up else s.store)
      (.handler (.serving j))) ↔ ∀ k, s.store.Open k → ¬ (LinkPc.linking j).Tears s c ok k := by
  cases ok with
  | true =>
    refine iff_of_true ?_ fun k _ htears => by cases htears.2.2.1
    refine hp.put_of_same hc rfl rfl rfl rfl fun k _ _ _ => .inr ?_
    exact isUp_setSiteLink hi.row
  | false =>
    constructor
    · rintro hp' k hopen ⟨rfl, hothers, -, hnot⟩
      refine hnot ((hp' j hopen).2.2 ((Pool.forall_put_iff hc _ _).mpr ⟨?_, hothers⟩))
      intro _ _
      rfl
    · intro hno
      refine hp.put_of_same hc rfl rfl rfl rfl fun k hopen hpast hothers => .inr ?_
      have hj := hpast j rfl
      cases hj
      by_contra hnot
      exact hno j hopen ⟨rfl, hothers, rfl, hnot⟩

theorem staysLinked_unlinking (hc : s.call c = some (.handler (.unlinking j))) :
    StaysLinked (s.put c (if ok then s.store.setSiteLink .down else s.store) (.handler .returned)) ↔
      ∀ k, s.store.Open k → ¬ (LinkPc.unlinking j).Tears s c ok k := by
  constructor
  · rintro hp' k hopen ⟨-, hothers, hbad⟩
    have hall := (Pool.forall_put_iff hc (if ok then s.store.setSiteLink .down else s.store)
      (.handler .returned)).mpr ⟨past_of_session rfl, hothers⟩
    have hup : (if ok then s.store.setSiteLink .down else s.store).IsUp := by
      refine (hp' k ?_).2.2 hall
      cases ok <;> exact hopen
    rcases hbad with rfl | hnot
    · exact not_isUp_setSiteLink_down hup
    · cases ok with
      | true => exact not_isUp_setSiteLink_down hup
      | false => exact hnot hup
  · intro hno
    have hbad : ∀ k, s.store.Open k → OthersPast s c k → ok = false ∧ s.store.IsUp := by
      intro k hopen hothers
      have hne := hp.older hi hopen (.inr hc)
      by_contra hcon
      refine hno k hopen ⟨hne, hothers, ?_⟩
      cases ok with
      | true => exact .inl rfl
      | false => exact .inr fun hup => hcon ⟨rfl, hup⟩
    cases ok with
    | true =>
      refine hp.put_of_same hc rfl rfl rfl rfl fun k hopen _ hothers => ?_
      cases (hbad k hopen hothers).1
    | false =>
      refine hp.put_of_same hc rfl rfl rfl rfl fun k hopen _ hothers => .inr ?_
      exact (hbad k hopen hothers).2

theorem staysLinked_handler (hc : s.call c = some (.handler pc))
    (hact : handleLinkAct ok s.store pc = some (st, pc')) :
    StaysLinked (s.put c st (.handler pc')) ↔ ∀ k, s.store.Open k → ¬ pc.Tears s c ok k := by
  -- a handler without a session is in nobody's way
  have hearly : (∀ k, ¬ pc.Tears s c ok k) → (LinkCall.handler pc).session = none → st = s.store →
      (StaysLinked (s.put c st (.handler pc')) ↔ ∀ k, s.store.Open k → ¬ pc.Tears s c ok k) := by
    rintro htears hsession rfl
    refine iff_of_true (hp.put_of_same hc rfl rfl rfl rfl fun k _ _ _ => ?_) fun k _ => htears k
    exact .inl ⟨past_of_session hsession, id⟩
  cases pc with
  | looking | verifying | upgrading =>
    cases hact
    exact hearly (fun _ => not_false) rfl rfl
  | putting =>
    cases hact
    exact iff_of_true (staysLinked_putting hi hc) fun k _ => not_false
  | activating j =>
    cases hact
    refine iff_of_true ?_ fun k _ => not_false
    have hnever : ∀ k, ¬ (LinkCall.handler (.linking j)).Past k := by
      intro k hpast
      cases hpast j rfl
    cases ok with
    | true | false =>
      exact hp.put_of_same hc rfl rfl rfl rfl fun k _ hpast _ => absurd hpast (hnever k)
  | linking j =>
    cases hact
    exact staysLinked_linking hi hp hc
  | serving j =>
    simp only [handleLinkAct] at hact
    split at hact
    · cases hact
      refine iff_of_true ?_ fun k _ => not_false
      refine hp.put_of_same hc rfl rfl rfl rfl fun k _ hpast _ => ?_
      cases hpast j rfl
    · cases hact
  | removing j =>
    cases hact
    by_cases hopen : ∃ k, s.store.Open k
    · obtain ⟨k, hopen⟩ := hopen
      refine iff_of_false (not_staysLinked_removing hopen) fun hno => ?_
      exact hno k hopen (hp.older hi hopen (.inl hc))
    · refine iff_of_true (staysLinked_removing (not_exists.mp hopen)) fun k hk => ?_
      exact absurd ⟨k, hk⟩ hopen
  | unlinking j =>
    cases hact
    exact staysLinked_unlinking hi hp hc
  | returned => cases hact

theorem staysLinked_other (hc : s.call c = some p)
    (hp₀ : ∀ pc, p ≠ .handler pc) (hact : linkAct ok s.store p = some (st, p')) :
    StaysLinked (s.put c st p') := by
  cases p with
  | handler pc => exact absurd rfl (hp₀ pc)
  | dropping j =>
    cases hact
    split
    · rintro k ⟨hlast, hpeer⟩
      have hne : k ≠ j := by
        rintro rfl
        simp [Pool.put] at hpeer
      have hopen : s.store.Open k := by
        refine ⟨hlast, ?_⟩
        simpa [Pool.put, Function.update_of_ne hne] using hpeer
      obtain ⟨hget, hnot, hlink⟩ := hp k hopen
      refine ⟨?_, hnot, fun hall => hlink fun q hq => ?_⟩
      · have hreg : s.store.registered = some k := Option.eq_some_of_filter_eq_some hget
        simp [HubLink.get, HubLink.isClosed, Pool.put, hreg, Function.update_of_ne hne, hopen.2,
          hnot, Option.filter]
      · rcases Pool.mem_put_of_mem hc hq _ .done with rfl | hmem
        · exact past_of_session rfl
        · exact hall q hmem
    · exact hp.put_of_same hc rfl rfl rfl rfl fun k _ _ _ => .inl ⟨past_of_session rfl, id⟩
  | pinging =>
    cases hact
    split
    · refine hp.put_of_same hc rfl rfl rfl rfl fun k _ _ _ => .inr ?_
      exact isUp_setSiteLink hi.row
    · exact hp.put_of_same hc rfl rfl rfl rfl fun k _ _ _ => .inl ⟨past_of_session rfl, id⟩
  | done => cases hact

theorem staysLinked_step_iff :
    ¬ TearsDown s m ↔ ∀ s', linkStep s m = some s' → StaysLinked s' := by
  cases m with
  | begin rq =>
    refine iff_of_true not_false fun s' hs => ?_
    cases hs
    intro k hopen
    obtain ⟨hget, hnot, hlink⟩ := hp k hopen
    refine ⟨hget, hnot, fun hall => hlink fun q hq => hall q ?_⟩
    exact List.mem_append_left _ hq
  | advance c ok =>
    refine Iff.trans ?_ forall_advance_iff.symm
    constructor
    · intro hno p next hc hact
      cases p with
      | handler pc =>
        obtain ⟨⟨st, pc'⟩, hhandler, rfl⟩ := Option.map_eq_some_iff.mp hact
        refine (staysLinked_handler hi hp hc hhandler).mpr fun k hopen htears => ?_
        exact hno ⟨pc, k, hc, hopen, htears⟩
      | dropping j | pinging | done => exact staysLinked_other hi hp hc (by simp) hact
    · rintro hall ⟨pc, k, hc, hopen, htears⟩
      obtain ⟨next, hact⟩ := tears_enabled htears
      refine (staysLinked_handler hi hp hc hact).mp (hall _ (next.1, .handler next.2) hc ?_) k
        hopen htears
      simp only [linkAct, hact, Option.map_some]

end

theorem linkInv_unlinked (row : SiteRow) : LinkInv (unlinked row) where
  row := rfl
  good := ⟨nofun, fun _ _ => ⟨rfl, rfl⟩⟩
  ended _ h := absurd h List.not_mem_nil

theorem staysLinked_unlinked (row : SiteRow) : StaysLinked (unlinked row) := by
  rintro k ⟨hlast, -⟩
  cases hlast

end

/-- **A reconnecting site stays linked** exactly in the runs in which no statement tears its
latest session down. -/
theorem stays_linked_iff (row : SiteRow) (ms : List LinkMove) :
    Throughout linkStep StaysLinked (unlinked row) ms ↔
      Guarded linkStep (fun s m => ¬ TearsDown s m) (unlinked row) ms :=
  throughout_iff_guarded linkInv_step staysLinked_step_iff (linkInv_unlinked row)
    (staysLinked_unlinked row)

/-! ## A reconnect -/

def linked (c : ℕ) : List LinkMove := List.replicate 6 (.advance c true)

def reconnect : List LinkMove :=
  [.begin .connect] ++ linked 0 ++ [.begin .connect] ++ linked 1 ++ [.advance 0 true]

/-- The first handler winds down: it removes and closes the session of the second, which is
open at the site, and writes `down`. -/
theorem reconnect_torn_down : ∃ s,
    exec linkStep (unlinked ⟨.active, .down⟩)
      (reconnect ++ List.replicate 2 (.advance 0 true)) = some s ∧
    ¬ StaysLinked s ∧ s.store.Open 1 ∧ s.store.registered = none ∧ s.store.closed 1 ∧
    ¬ s.store.IsUp ∧ s.calls = [.handler .returned, .handler (.serving 1)] := by
  have hopen : ∀ s : LinkPool, s.store.registered = none → s.store.Open 1 → ¬ StaysLinked s := by
    intro s hnone hopen hlinked
    have hget := (hlinked 1 hopen).1
    unfold HubLink.get at hget
    rw [hnone] at hget
    cases hget
  refine ⟨_, rfl, hopen _ rfl ⟨rfl, rfl⟩, ⟨rfl, rfl⟩, rfl,
    by decide +kernel, by decide +kernel, rfl⟩

end Moorgate.Federation
