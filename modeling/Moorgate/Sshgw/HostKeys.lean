import Moorgate.Framework.Base.Runs
import Moorgate.Framework.Base.Table
import Moorgate.Models.Ids

/-!
# Host-key pins of a cluster: `sshgw/hostkey.go` and `store/hostkeys.go`

The first key that a host presents is pinned: in the table `ssh_host_keys`, and in the memory of
the instance that has met the host, which then looks at nothing else. `check` holds the lock of its
verifier from the first statement to the last, so an instance is in at most one check.

The key of a first use is accepted and remembered whatever `PinHostKey` does; and a change of the
pin in the table reaches no memory but that of the instance which clears it. Runs without the one
and the other (`PinsUnrecorded`, `LeavesPins`) have one key for a host from change to change
(`host_keys_agree`).
-/

namespace Moorgate.Sshgw

open Framework Models

/-! ## The table -/

inductive PinSource where
  | tofu | pinned
deriving DecidableEq

structure HostKeyPin where
  (host keyLine keyType : String)
  source : PinSource
deriving DecidableEq

abbrev HostKeys := Table HostKeyPin.host

/-- A key as it is presented, with its line in the format of `authorized_keys`. -/
structure HostKey where
  (keyType line : String)
deriving DecidableEq

def getHostKey (host : String) (t : HostKeys) : Option HostKeyPin := t.lookup host

def pinHostKey (host : String) (key : HostKey) (t : HostKeys) : HostKeys :=
  t.insertNew ⟨host, key.line, key.keyType, .tofu⟩

def setPinnedHostKey (host : String) (key : HostKey) (t : HostKeys) : HostKeys :=
  t.upsert ⟨host, key.line, key.keyType, .pinned⟩

def deleteHostKeys (hosts : List String) (t : HostKeys) : HostKeys :=
  t.delete fun r => decide (r.host ∈ hosts)

/-! ## Verifiers -/

/-- A pin outside the table. `age` is how many deliberate changes the pin of the host had
seen when this one was made or read. -/
structure Pin where
  line : String
  age : ℕ
deriving DecidableEq

/-- Where a check stands: before `GetHostKey`, behind it, before `PinHostKey`. -/
inductive Check where
  | looking (id : String) (key : HostKey)
  | found (id : String) (key : HostKey) (pin : Option Pin)
  | pinning (id : String) (key : HostKey)
deriving DecidableEq

/-- `hostKeyVerifier`: the pins in memory, and the check that has the lock. -/
structure Verifier where
  seen : String → Option Pin
  busy : Option Check

def newHostKeyVerifier : Verifier := ⟨fun _ => none, none⟩

/-- A clearing of pins whose rows are deleted and whose instance has not forgotten them
yet; `marks` has the number of the change for each host. -/
structure Clearing where
  gateway : UUID
  hosts : List String
  marks : String → ℕ

/-- How a check ends, and the pin that it went by. A first use and a failed lookup go by
none. -/
structure Decision where
  (id line : String)
  accepted : Bool
  pin : Option Pin
deriving DecidableEq

/-- The instances and the table. The last three are for the statements about runs: how many
changes the pin of a host has seen, the last one that is completed, and the keys that
were accepted since, while no change was under way. -/
structure Gateways where
  verifiers : UUID → Verifier
  table : HostKeys
  clearings : List Clearing
  (changes completed : String → ℕ)
  accepted : String → List String

inductive GatewayOp where
  | check (i : UUID) (id : String) (key : HostKey)
  | lookup (i : UUID) (ok : Bool)
  | settle (i : UUID)
  | pin (i : UUID) (ok : Bool)
  | setPinned (id : String) (key : HostKey) (ok : Bool)
  | deletePins (i : UUID) (hosts : List String) (ok : Bool)
  | forget (k : ℕ)
  | restart (i : UUID)

def compare (id : String) (pinned : Pin) (key : HostKey) : Decision :=
  ⟨id, key.line, decide (pinned.line = key.line), some pinned⟩

def forgetHostKeys (ids : List String) (v : Verifier) : Verifier :=
  { v with seen := fun id => if id ∈ ids then none else v.seen id }

namespace Gateways

variable (s : Gateways)

def setVerifier (i : UUID) (v : Verifier) : Gateways :=
  { s with verifiers := Function.update s.verifiers i v }

def change (hosts : List String) (table : HostKeys) : Gateways :=
  { s with
    table
    changes := fun id => if id ∈ hosts then s.changes id + 1 else s.changes id
    accepted := fun id => if id ∈ hosts then [] else s.accepted id }

def complete (hosts : List String) (marks : String → ℕ) : Gateways :=
  { s with
    completed := fun id =>
      if id ∈ hosts then max (s.completed id) (marks id) else s.completed id }

/-- No change of the host's pin is under way. -/
def Quiet (id : String) : Prop := ∀ c ∈ s.clearings, id ∉ c.hosts

instance (id : String) : Decidable (s.Quiet id) :=
  inferInstanceAs (Decidable (∀ c ∈ s.clearings, _))

end Gateways

section

variable (s : Gateways)

/-- The statement of an operation: the state it leaves, and the decision if it ends a check. -/
def gatewayAct : GatewayOp → Option (Gateways × Option Decision)
  | .check i id key =>
    match (s.verifiers i).busy with
    | some _ => none
    | none =>
      match (s.verifiers i).seen id with
      | some prev => some (s, some (compare id prev key))
      | none => some (s.setVerifier i { s.verifiers i with busy := some (.looking id key) }, none)
  | .lookup i ok =>
    match (s.verifiers i).busy with
    | some (.looking id key) =>
      if ok then
        let pin := (getHostKey id s.table).map fun row => ⟨row.keyLine, s.changes id⟩
        some (s.setVerifier i { s.verifiers i with busy := some (.found id key pin) }, none)
      else
        -- fail closed
        some (s.setVerifier i { s.verifiers i with busy := none }, some ⟨id, key.line, false, none⟩)
    | _ => none
  | .settle i =>
    match (s.verifiers i).busy with
    | some (.found id key (some pin)) =>
      let v : Verifier := ⟨Function.update (s.verifiers i).seen id (some pin), none⟩
      some (s.setVerifier i v, some (compare id pin key))
    | some (.found id key none) =>
      let first : Pin := ⟨key.line, s.changes id⟩
      let v : Verifier :=
        ⟨Function.update (s.verifiers i).seen id (some first), some (.pinning id key)⟩
      some (s.setVerifier i v, none)
    | _ => none
  | .pin i ok =>
    match (s.verifiers i).busy with
    | some (.pinning id key) =>
      -- a failure is only logged
      let table := if ok then pinHostKey id key s.table else s.table
      let s' := s.setVerifier i { s.verifiers i with busy := none }
      some ({ s' with table }, some ⟨id, key.line, true, none⟩)
    | _ => none
  | .setPinned id key ok =>
    if ok then
      let s' := s.change [id] (setPinnedHostKey id key s.table)
      some (s'.complete [id] s'.changes, none)
    else some (s, none)
  | .deletePins i hosts ok =>
    if ok then
      let s' := s.change hosts (deleteHostKeys hosts s.table)
      some ({ s' with clearings := s.clearings ++ [⟨i, hosts, s'.changes⟩] }, none)
    else some (s, none)
  | .forget k =>
    match s.clearings[k]? with
    | none => none
    | some c =>
      match (s.verifiers c.gateway).busy with
      | some _ => none
      | none =>
        let v := forgetHostKeys c.hosts (s.verifiers c.gateway)
        let s' := (s.setVerifier c.gateway v).complete c.hosts c.marks
        some ({ s' with clearings := s.clearings.eraseIdx k }, none)
  | .restart i =>
    let s' := s.setVerifier i newHostKeyVerifier
    some ({ s' with clearings := s.clearings.filter fun c => decide (c.gateway ≠ i) }, none)

end

/-- A key that is accepted while no change is under way is noted. -/
def Gateways.note (s : Gateways) : Option Decision → Gateways
  | some ⟨id, line, true, _⟩ =>
    if s.Quiet id then { s with accepted := Function.update s.accepted id (line :: s.accepted id) }
      else s
  | _ => s

def gatewayStep (s : Gateways) (op : GatewayOp) : Option Gateways :=
  (gatewayAct s op).map fun next => next.1.note next.2

def startedGateways (table : HostKeys) : Gateways :=
  ⟨fun _ => newHostKeyVerifier, table, [], 0, 0, fun _ => []⟩

/-! ## The property -/

/-- A key that is accepted while no change is under way is the one that was accepted since
the last change, and no decision goes by a pin that is older than a completed change. -/
def Sound (s : Gateways) (op : GatewayOp) : Prop :=
  ∀ s' d, gatewayAct s op = some (s', some d) →
    (d.accepted → s.Quiet d.id → ∀ line ∈ s.accepted d.id, line = d.line) ∧
    ∀ pin, d.pin = some pin → s.completed d.id ≤ pin.age

def Verifier.Holds (v : Verifier) (id : String) (pin : Pin) : Prop :=
  v.seen id = some pin ∨ ∃ key, v.busy = some (.found id key (some pin))

/-- The pin is changed while an instance holds one, other than the instance that clears it. -/
def LeavesPins (s : Gateways) : GatewayOp → Prop
  | .setPinned id _ true => ∃ j pin, (s.verifiers j).Holds id pin
  | .deletePins i hosts true => ∃ j, j ≠ i ∧ ∃ id ∈ hosts, ∃ pin, (s.verifiers j).Holds id pin
  | _ => False

def Gateways.Stored (s : Gateways) (id line : String) : Prop :=
  ∃ row, getHostKey id s.table = some row ∧ row.keyLine = line

/-- `PinHostKey` fails, or finds another key. -/
def PinsUnrecorded (s : Gateways) : GatewayOp → Prop
  | .pin i ok => ∃ id key, (s.verifiers i).busy = some (.pinning id key) ∧
      ¬ (ok ∧ ∀ row, getHostKey id s.table = some row → row.keyLine = key.line)
  | _ => False

/-! ## What is kept -/

/-- A pin that an instance holds. `fresh` is what the changes of the table take care of,
`backed` what the first uses do. -/
structure GoodPin (s : Gateways) (j : UUID) (id : String) (pin : Pin) : Prop where
  age_le : pin.age ≤ s.changes id
  fresh : pin.age = s.changes id ∨ ∃ c ∈ s.clearings, c.gateway = j ∧ id ∈ c.hosts
  completed_le : s.completed id ≤ pin.age
  marks_le : ∀ c ∈ s.clearings, id ∈ c.hosts → c.gateway ≠ j → c.marks id ≤ pin.age
  backed : pin.age = s.changes id →
    s.Stored id pin.line ∨ ∃ key, (s.verifiers j).busy = some (.pinning id key) ∧
    key.line = pin.line

structure PinInv (s : Gateways) : Prop where
  pins : ∀ j id pin, (s.verifiers j).Holds id pin → GoodPin s j id pin
  completed_le : ∀ id, s.completed id ≤ s.changes id
  marks_le : ∀ c ∈ s.clearings, ∀ id ∈ c.hosts, c.marks id ≤ s.changes id
  accepted : ∀ id, ∀ line ∈ s.accepted id, s.Stored id line

theorem Verifier.not_holds_new (id : String) (pin : Pin) : ¬ newHostKeyVerifier.Holds id pin := by
  rintro (h | ⟨key, h⟩) <;> cases h

theorem pinInv_started (table : HostKeys) : PinInv (startedGateways table) where
  pins _ id pin h := absurd h (Verifier.not_holds_new id pin)
  completed_le _ := le_rfl
  marks_le _ h := absurd h List.not_mem_nil
  accepted _ _ h := absurd h List.not_mem_nil

section

variable {s s' : Gateways} {i j : UUID} {v : Verifier} {id : String} {key : HostKey} {pin : Pin}
  {d : Decision}

theorem verifiers_setVerifier_self : (s.setVerifier i v).verifiers i = v := Function.update_self ..

theorem verifiers_setVerifier_of_ne (h : j ≠ i) : (s.setVerifier i v).verifiers j = s.verifiers j :=
  Function.update_of_ne h ..

/-- Only the pins of the instance that moves have to be looked at. -/
theorem PinInv.setVerifier (hi : PinInv s)
    (hv : ∀ id pin, v.Holds id pin → GoodPin (s.setVerifier i v) i id pin) :
    PinInv (s.setVerifier i v) where
  pins := by
    intro j id pin hholds
    by_cases hj : j = i
    · subst hj
      rw [verifiers_setVerifier_self] at hholds
      exact hv id pin hholds
    · rw [verifiers_setVerifier_of_ne hj] at hholds
      have hgood := hi.pins j id pin hholds
      refine ⟨hgood.age_le, hgood.fresh, hgood.completed_le, hgood.marks_le, ?_⟩
      rw [verifiers_setVerifier_of_ne hj]
      exact hgood.backed
  completed_le := hi.completed_le
  marks_le := hi.marks_le
  accepted := hi.accepted

/-- An instance moves: what it holds it held before, or is as old as the table and is there
or on its way there. -/
theorem PinInv.moved (hi : PinInv s) (hv : ∀ id pin, v.Holds id pin →
      ((s.verifiers i).Holds id pin ∧ ∀ key, (s.verifiers i).busy ≠ some (.pinning id key)) ∨
      (pin.age = s.changes id ∧
        (s.Stored id pin.line ∨ ∃ key, v.busy = some (.pinning id key) ∧ key.line = pin.line))) :
    PinInv (s.setVerifier i v) := by
  refine hi.setVerifier fun id pin hholds => ?_
  rcases hv id pin hholds with ⟨hold, hbusy⟩ | ⟨hage, hstored⟩
  · have hgood := hi.pins i id pin hold
    refine ⟨hgood.age_le, hgood.fresh, hgood.completed_le, hgood.marks_le, fun hage => ?_⟩
    rcases hgood.backed hage with hstored | ⟨key, hkey, -⟩
    · exact .inl hstored
    · exact absurd hkey (hbusy key)
  · have hle := hi.completed_le id
    refine ⟨hage.le, .inl hage, hage ▸ hle, fun c hc hid _ => hage ▸ hi.marks_le c hc id hid,
      fun _ => ?_⟩
    rw [verifiers_setVerifier_self]
    exact hstored

/-! ### A decision -/

/-- What a statement that ends a check leaves, and what it went by. -/
structure Decided (s s' : Gateways) (d : Decision) : Prop where
  stored : d.accepted → s.Quiet d.id → s'.Stored d.id d.line
  keeps : ∀ line, s.Stored d.id line → s'.Stored d.id line
  current : ∀ pin, d.pin = some pin → s.completed d.id ≤ pin.age
  clearings : s'.clearings = s.clearings

theorem Stored.unique {line line' : String} (h : s.Stored id line) (h' : s.Stored id line') :
    line = line' := by
  obtain ⟨row, hrow, rfl⟩ := h
  obtain ⟨row', hrow', rfl⟩ := h'
  rw [hrow] at hrow'
  cases hrow'
  rfl

/-- In a quiet state a pin that is held is the one in the table. -/
theorem PinInv.stored_of_quiet (hi : PinInv s) (hholds : (s.verifiers i).Holds id pin)
    (hbusy : ∀ key, (s.verifiers i).busy ≠ some (.pinning id key)) (hquiet : s.Quiet id) :
    s.Stored id pin.line := by
  have hgood := hi.pins i id pin hholds
  have hage : pin.age = s.changes id := by
    rcases hgood.fresh with hage | ⟨c, hc, -, hid⟩
    · exact hage
    · exact absurd hid (hquiet c hc)
  rcases hgood.backed hage with hstored | ⟨key, hkey, -⟩
  · exact hstored
  · exact absurd hkey (hbusy key)

theorem PinInv.decided_compare (hi : PinInv s) (hholds : (s.verifiers i).Holds id pin)
    (hbusy : ∀ key, (s.verifiers i).busy ≠ some (.pinning id key)) (htable : s'.table = s.table)
    (hclearings : s'.clearings = s.clearings) (key : HostKey) :
    Decided s s' (compare id pin key) where
  stored hacc hquiet := by
    obtain ⟨row, hrow, hline⟩ := hi.stored_of_quiet hholds hbusy hquiet
    exact ⟨row, htable ▸ hrow, hline.trans (of_decide_eq_true hacc)⟩
  keeps line := by
    rintro ⟨row, hrow, hline⟩
    exact ⟨row, htable ▸ hrow, hline⟩
  current pin' h := by
    cases h
    exact (hi.pins i id pin hholds).completed_le
  clearings := hclearings

theorem pinInv_note (hi : PinInv s') (hd : Decided s s' d) : PinInv (s'.note (some d)) := by
  obtain ⟨id, line, accepted, pin⟩ := d
  cases accepted with
  | false => exact hi
  | true =>
    unfold Gateways.note
    dsimp only
    split
    · rename_i hquiet
      have hstored : s'.Stored id line := by
        refine hd.stored rfl ?_
        unfold Gateways.Quiet
        rw [← hd.clearings]
        exact hquiet
      refine ⟨fun j id' pin' hholds => ?_, hi.completed_le, hi.marks_le, ?_⟩
      · have hgood := hi.pins j id' pin' hholds
        exact ⟨hgood.age_le, hgood.fresh, hgood.completed_le, hgood.marks_le, hgood.backed⟩
      · intro id' line' hline
        dsimp only at hline
        rw [Function.update_apply] at hline
        split at hline
        · rename_i hid
          subst hid
          rcases List.mem_cons.mp hline with rfl | hold
          · exact hstored
          · exact hi.accepted _ _ hold
        · exact hi.accepted _ _ hline
    · exact hi

/-! ### The statements of a check -/

/-- What an operation does when it succeeds. -/
structure Kept (s s' : Gateways) (d : Option Decision) : Prop where
  inv : PinInv s'
  decided : ∀ dec, d = some dec → Decided s s' dec

variable {t table : HostKeys} {hosts : List String}

theorem eq_or_seen_of_update {seen : String → Option Pin} {id' : String} {pin' : Pin}
    (h : Function.update seen id (some pin) id' = some pin') :
    (id' = id ∧ pin' = pin) ∨ seen id' = some pin' := by
  rw [Function.update_apply] at h
  split at h
  · rename_i hid
    cases h
    exact .inl ⟨hid, rfl⟩
  · exact .inr h

theorem stored_pinHostKey {line : String}
    (h : ∃ row, getHostKey id t = some row ∧ row.keyLine = line)
    (host : String) (key : HostKey) :
    ∃ row, getHostKey id (pinHostKey host key t) = some row ∧ row.keyLine = line := by
  obtain ⟨row, hrow, hline⟩ := h
  refine ⟨row, ?_, hline⟩
  unfold getHostKey pinHostKey at *
  rw [Table.lookup_insertNew, hrow, if_neg (by simp)]

theorem stored_pinHostKey_self (h : ∀ row, getHostKey id t = some row → row.keyLine = key.line) :
    ∃ row, getHostKey id (pinHostKey id key t) = some row ∧ row.keyLine = key.line := by
  unfold getHostKey pinHostKey at *
  rw [Table.lookup_insertNew]
  cases hrow : t.lookup id with
  | none => exact ⟨_, if_pos ⟨rfl, rfl⟩, rfl⟩
  | some row => exact ⟨row, if_neg (by simp), h row hrow⟩

theorem changes_change (hosts : List String) (table : HostKeys) (id : String) :
    (s.change hosts table).changes id = if id ∈ hosts then s.changes id + 1 else s.changes id := rfl

/-- What a change keeps of the hosts it is not about. -/
theorem PinInv.accepted_change (hi : PinInv s)
    (htable : ∀ id, id ∉ hosts → getHostKey id table = getHostKey id s.table) :
    ∀ id, ∀ line ∈ (s.change hosts table).accepted id, (s.change hosts table).Stored id line := by
  intro id line hline
  unfold Gateways.change at hline
  dsimp only at hline
  split at hline
  · cases hline
  · rename_i hid
    obtain ⟨row, hrow, hkey⟩ := hi.accepted id line hline
    exact ⟨row, (htable id hid).trans hrow, hkey⟩

theorem getHostKey_setPinnedHostKey_of_ne {id' : String} (hid : id' ∉ [id]) :
    getHostKey id' (setPinnedHostKey id key t) = getHostKey id' t := by
  unfold getHostKey setPinnedHostKey
  rw [Table.lookup_upsert]
  exact if_neg fun heq => hid (List.mem_singleton.mpr heq.symm)

theorem getHostKey_deleteHostKeys_of_notMem (hid : id ∉ hosts) :
    getHostKey id (deleteHostKeys hosts t) = getHostKey id t := by
  unfold getHostKey deleteHostKeys
  rw [Table.lookup_delete]
  cases hrow : t.lookup id with
  | none => rfl
  | some row =>
    have hhost : row.host = id := (Table.lookup_eq_some.mp hrow).2
    simp [hhost, hid]

/-- A clearing ages the pins of its hosts, which its own instance still has to forget. -/
theorem GoodPin.clearing (hgood : GoodPin s j id pin) (hid : id ∈ hosts) (marks : String → ℕ) :
    GoodPin { s.change hosts table with clearings := s.clearings ++ [⟨j, hosts, marks⟩] } j id
      pin := by
  have hage := hgood.age_le
  have hchanges : (s.change hosts table).changes id =
      s.changes id + 1 := by rw [changes_change, if_pos hid]
  refine ⟨?_, .inr ⟨_, List.mem_append_right _ (List.mem_singleton.mpr rfl), rfl, hid⟩,
    hgood.completed_le, ?_, ?_⟩
  · rw [hchanges]
    omega
  · intro c hc hmem hne
    rcases List.mem_append.mp hc with hold | hnew
    · exact hgood.marks_le c hold hmem hne
    · rw [List.mem_singleton.mp hnew] at hne
      exact absurd rfl hne
  · intro heq
    rw [hchanges] at heq
    omega

theorem GoodPin.clearing_of_notMem (hgood : GoodPin s j id pin)
    (hid : id ∉ hosts) (htable : getHostKey id table = getHostKey id s.table) (marks : String → ℕ) :
    GoodPin { s.change hosts table with clearings := s.clearings ++ [⟨i, hosts, marks⟩] } j id
      pin := by
  have hchanges : (s.change hosts table).changes id =
      s.changes id := by rw [changes_change, if_neg hid]
  refine ⟨?_, ?_, hgood.completed_le, ?_, ?_⟩
  · rw [hchanges]
    exact hgood.age_le
  · rw [hchanges]
    exact hgood.fresh.imp_right fun ⟨c, hc, hrest⟩ => ⟨c, List.mem_append_left _ hc, hrest⟩
  · intro c hc hmem hne
    rcases List.mem_append.mp hc with hold | hnew
    · exact hgood.marks_le c hold hmem hne
    · rw [List.mem_singleton.mp hnew] at hmem
      exact absurd hmem hid
  · intro hage
    rw [hchanges] at hage
    simpa only [Gateways.Stored, Gateways.change, htable] using hgood.backed hage

theorem mem_eraseIdx_or_eq {α : Type*} {l : List α} {a b : α} {k : ℕ} (ha : a ∈ l)
    (hk : l[k]? = some b) : a ∈ l.eraseIdx k ∨ a = b := by
  obtain ⟨n, hn⟩ := List.getElem?_of_mem ha
  by_cases hne : n = k
  · subst hne
    rw [hn] at hk
    cases hk
    exact .inr rfl
  · exact .inl (List.mem_eraseIdx_iff_getElem?.mpr ⟨n, hne, hn⟩)

variable {od : Option Decision} {ok : Bool} {k : ℕ} {op : GatewayOp} (hi : PinInv s)

include hi

theorem kept_check (h : gatewayAct s (.check i id key) = some (s', od)) : Kept s s' od := by
  simp only [gatewayAct] at h
  split at h
  · cases h
  rename_i hbusy
  have hnot : ∀ id key, (s.verifiers i).busy ≠ some (.pinning id key) := by simp [hbusy]
  split at h
  · rename_i prev hseen
    cases h
    refine ⟨hi, ?_⟩
    rintro _ ⟨⟩
    exact hi.decided_compare (.inl hseen) (hnot id) rfl rfl key
  · cases h
    refine ⟨hi.moved fun id' pin hholds => ?_, nofun⟩
    rcases hholds with hseen | ⟨_, hfound⟩
    · exact .inl ⟨.inl hseen, hnot id'⟩
    · cases hfound

theorem kept_lookup (h : gatewayAct s (.lookup i ok) = some (s', od)) : Kept s s' od := by
  simp only [gatewayAct] at h
  split at h
  · rename_i id key hbusy
    have hnot : ∀ id key, (s.verifiers i).busy ≠ some (.pinning id key) := by simp [hbusy]
    split at h
    · cases h
      refine ⟨hi.moved fun id' pin hholds => ?_, nofun⟩
      rcases hholds with hseen | ⟨_, hfound⟩
      · exact .inl ⟨.inl hseen, hnot id'⟩
      -- the pin is read from the table as it is
      simp only [Option.some.injEq, Check.found.injEq] at hfound
      obtain ⟨rfl, -, hpin⟩ := hfound
      obtain ⟨row, hrow, rfl⟩ := Option.map_eq_some_iff.mp hpin
      exact .inr ⟨rfl, .inl ⟨row, hrow, rfl⟩⟩
    · cases h
      refine ⟨hi.moved fun id' pin hholds => ?_, ?_⟩
      · rcases hholds with hseen | ⟨_, hfound⟩
        · exact .inl ⟨.inl hseen, hnot id'⟩
        · cases hfound
      · rintro _ ⟨⟩
        exact ⟨nofun, fun _ hstored => hstored, nofun, rfl⟩
  · cases h

theorem kept_settle (h : gatewayAct s (.settle i) = some (s', od)) : Kept s s' od := by
  simp only [gatewayAct] at h
  split at h
  · rename_i id key pin hbusy
    have hnot : ∀ id key, (s.verifiers i).busy ≠ some (.pinning id key) := by simp [hbusy]
    have hhand : (s.verifiers i).Holds id pin := .inr ⟨key, hbusy⟩
    cases h
    refine ⟨hi.moved fun id' pin' hholds => .inl ⟨?_, hnot id'⟩, ?_⟩
    · rcases hholds with hseen | ⟨_, hfound⟩
      · rcases eq_or_seen_of_update hseen with ⟨rfl, rfl⟩ | hold
        · exact hhand
        · exact .inl hold
      · cases hfound
    · rintro _ ⟨⟩
      refine hi.decided_compare hhand (hnot id) ?_ ?_ key
      · rfl
      · rfl
  · rename_i id key hbusy
    have hnot : ∀ id key, (s.verifiers i).busy ≠ some (.pinning id key) := by simp [hbusy]
    cases h
    refine ⟨hi.moved fun id' pin' hholds => ?_, nofun⟩
    rcases hholds with hseen | ⟨_, hfound⟩
    · rcases eq_or_seen_of_update hseen with ⟨rfl, rfl⟩ | hold
      · exact .inr ⟨rfl, .inr ⟨key, rfl, rfl⟩⟩
      · exact .inl ⟨.inl hold, hnot id'⟩
    · cases hfound
  · cases h

theorem kept_pin (hrec : ¬ PinsUnrecorded s (.pin i ok))
    (h : gatewayAct s (.pin i ok) = some (s', od)) : Kept s s' od := by
  simp only [gatewayAct] at h
  split at h
  · rename_i id key hbusy
    obtain ⟨rfl, hsame⟩ : ok ∧ ∀ row, getHostKey id s.table = some row →
        row.keyLine = key.line := by
      by_contra hnot
      exact hrec ⟨id, key, hbusy, hnot⟩
    cases h
    have hself := stored_pinHostKey_self hsame
    refine ⟨⟨fun j id' pin hholds => ?_, hi.completed_le, hi.marks_le, ?_⟩, ?_⟩
    · have hold : (s.verifiers j).Holds id' pin := by
        by_cases hj : j = i
        · subst hj
          simp only [verifiers_setVerifier_self] at hholds
          rcases hholds with hseen | ⟨_, hfound⟩
          · exact .inl hseen
          · cases hfound
        · simpa only [verifiers_setVerifier_of_ne hj] using hholds
      have hgood := hi.pins j id' pin hold
      refine ⟨hgood.age_le, hgood.fresh, hgood.completed_le, hgood.marks_le, fun hage => ?_⟩
      rcases hgood.backed hage with hstored | ⟨key', hkey', hline⟩
      · exact .inl (stored_pinHostKey hstored id key)
      by_cases hj : j = i
      · -- the pin that was on its way has arrived
        subst hj
        rw [hbusy] at hkey'
        cases hkey'
        exact .inl (hline ▸ hself)
      · refine .inr ⟨key', ?_, hline⟩
        simpa only [verifiers_setVerifier_of_ne hj] using hkey'
    · intro id' line hline
      exact stored_pinHostKey (hi.accepted id' line hline) id key
    · rintro _ ⟨⟩
      exact ⟨fun _ _ => hself, fun _ hstored => stored_pinHostKey hstored id key, nofun, rfl⟩
  · cases h

/-! ### The changes -/

theorem kept_setPinned (hno : ¬ LeavesPins s (.setPinned id key ok))
    (h : gatewayAct s (.setPinned id key ok) = some (s', od)) : Kept s s' od := by
  simp only [gatewayAct] at h
  split at h
  · rename_i hok
    subst hok
    cases h
    have htable : ∀ id', id' ∉ [id] →
        getHostKey id' (setPinnedHostKey id key s.table) = getHostKey id' s.table :=
      fun _ => getHostKey_setPinnedHostKey_of_ne
    refine ⟨⟨fun j id' pin hholds => ?_, fun id' => ?_, fun c hc id' hid' => ?_,
      hi.accepted_change htable⟩, nofun⟩
    · -- nobody holds a pin of this host
      have hne : id' ∉ [id] := by
        intro hid
        rw [List.mem_singleton] at hid
        subst hid
        exact hno ⟨j, pin, hholds⟩
      have hgood := hi.pins j id' pin hholds
      refine ⟨?_, ?_, ?_, hgood.marks_le, ?_⟩ <;>
        simp only [Gateways.complete, Gateways.change, Gateways.Stored, htable id' hne, if_neg hne]
      exacts [hgood.age_le, hgood.fresh, hgood.completed_le, hgood.backed]
    · have hle := hi.completed_le id'
      simp only [Gateways.complete, Gateways.change]
      split <;> omega
    · have hle := hi.marks_le c hc id' hid'
      simp only [Gateways.complete, Gateways.change]
      split <;> omega
  · cases h
    exact ⟨hi, nofun⟩

theorem kept_deletePins
    (hno : ¬ LeavesPins s (.deletePins i hosts ok))
    (h : gatewayAct s (.deletePins i hosts ok) = some (s', od)) : Kept s s' od := by
  simp only [gatewayAct] at h
  split at h
  · rename_i hok
    subst hok
    cases h
    have htable : ∀ id, id ∉ hosts →
        getHostKey id (deleteHostKeys hosts s.table) = getHostKey id s.table :=
      fun _ => getHostKey_deleteHostKeys_of_notMem
    refine ⟨⟨fun j id pin hholds => ?_, fun id => ?_, fun c hc id hid => ?_,
      hi.accepted_change htable⟩, nofun⟩
    · have hgood := hi.pins j id pin hholds
      by_cases hid : id ∈ hosts
      · -- only the instance that clears holds one, and it forgets it
        have hj : j = i := by
          by_contra hne
          exact hno ⟨j, hne, id, hid, pin, hholds⟩
        subst hj
        exact hgood.clearing hid _
      · exact hgood.clearing_of_notMem hid (htable id hid) _
    · have hle := hi.completed_le id
      rw [changes_change]
      show s.completed id ≤ _
      split <;> omega
    · rcases List.mem_append.mp hc with hold | hnew
      · have hle := hi.marks_le c hold id hid
        rw [changes_change]
        split <;> omega
      · rw [List.mem_singleton.mp hnew]
  · cases h
    exact ⟨hi, nofun⟩

theorem kept_forget (h : gatewayAct s (.forget k) = some (s', od)) : Kept s s' od := by
  simp only [gatewayAct] at h
  split at h
  · cases h
  rename_i c hk
  have hc := List.mem_of_getElem? hk
  split at h
  · cases h
  rename_i hbusy
  cases h
  have hsub : ∀ {b}, b ∈ s.clearings.eraseIdx k → b ∈ s.clearings :=
    fun hb => List.mem_of_mem_eraseIdx hb
  refine ⟨⟨fun j id pin hholds => ?_, fun id => ?_, fun b hb => hi.marks_le b (hsub hb),
    hi.accepted⟩, nofun⟩
  · -- what is left is held by another instance, or is not of these hosts
    obtain ⟨hold, hother⟩ : (s.verifiers j).Holds id pin ∧ (id ∈ c.hosts → c.gateway ≠ j) := by
      by_cases hj : j = c.gateway
      · subst hj
        simp only [Gateways.complete, verifiers_setVerifier_self, forgetHostKeys] at hholds
        rcases hholds with hseen | ⟨key, hfound⟩
        · dsimp only at hseen
          split at hseen
          · cases hseen
          · next hid => exact ⟨.inl hseen, fun hmem => absurd hmem hid⟩
        · rw [hbusy] at hfound
          cases hfound
      · simp only [Gateways.complete, verifiers_setVerifier_of_ne hj] at hholds
        exact ⟨hholds, fun _ heq => hj heq.symm⟩
    have hgood := hi.pins j id pin hold
    refine ⟨hgood.age_le, ?_, ?_, fun b hb => hgood.marks_le b (hsub hb), ?_⟩
    · rcases hgood.fresh with hage | ⟨b, hb, hgateway, hid⟩
      · exact .inl hage
      · rcases mem_eraseIdx_or_eq hb hk with hstays | rfl
        · exact .inr ⟨b, hstays, hgateway, hid⟩
        · exact absurd hgateway (hother hid)
    · simp only [Gateways.complete, Gateways.setVerifier]
      split
      · next hid => exact max_le hgood.completed_le (hgood.marks_le c hc hid (hother hid))
      · exact hgood.completed_le
    · intro hage
      rcases hgood.backed hage with hstored | ⟨key, hkey, hline⟩
      · exact .inl hstored
      have hj : j ≠ c.gateway := by
        rintro rfl
        rw [hbusy] at hkey
        cases hkey
      refine .inr ⟨key, ?_, hline⟩
      simpa only [Gateways.complete, verifiers_setVerifier_of_ne hj] using hkey
  · simp only [Gateways.complete, Gateways.setVerifier]
    split
    · next hid => exact max_le (hi.completed_le id) (hi.marks_le c hc id hid)
    · exact hi.completed_le id

theorem kept_restart (h : gatewayAct s (.restart i) = some (s', od)) : Kept s s' od := by
  cases h
  have hinv : PinInv (s.setVerifier i newHostKeyVerifier) :=
    hi.moved fun id pin hholds => absurd hholds (Verifier.not_holds_new id pin)
  have hsub : ∀ {b}, b ∈ s.clearings.filter (fun c => decide (c.gateway ≠ i)) → b ∈ s.clearings :=
    fun hb => (List.mem_filter.mp hb).1
  refine ⟨⟨fun j id pin hholds => ?_, hi.completed_le, fun b hb => hi.marks_le b (hsub hb),
    hi.accepted⟩, nofun⟩
  have hgood := hinv.pins j id pin hholds
  refine ⟨hgood.age_le, ?_, hgood.completed_le, fun b hb => hgood.marks_le b (hsub hb),
    hgood.backed⟩
  rcases hgood.fresh with hage | ⟨b, hb, hgateway, hid⟩
  · exact .inl hage
  have hj : j ≠ i := by
    rintro rfl
    simp only [verifiers_setVerifier_self] at hholds
    exact Verifier.not_holds_new id pin hholds
  refine .inr ⟨b, List.mem_filter.mpr ⟨hb, ?_⟩, hgateway, hid⟩
  simpa [hgateway] using hj

variable (hop : ¬ LeavesPins s op ∧ ¬ PinsUnrecorded s op)

include hop

theorem gatewayAct_kept (h : gatewayAct s op = some (s', od)) : Kept s s' od := by
  cases op with
  | check i id key => exact kept_check hi h
  | lookup i ok => exact kept_lookup hi h
  | settle i => exact kept_settle hi h
  | pin i ok => exact kept_pin hi hop.2 h
  | setPinned id key ok => exact kept_setPinned hi hop.1 h
  | deletePins i hosts ok => exact kept_deletePins hi hop.1 h
  | forget k => exact kept_forget hi h
  | restart i => exact kept_restart hi h

theorem pinInv_step (h : gatewayStep s op = some s') : PinInv s' := by
  obtain ⟨⟨st, od⟩, hact, rfl⟩ := Option.map_eq_some_iff.mp h
  have hkept := gatewayAct_kept hi hop hact
  cases od with
  | none => exact hkept.inv
  | some d => exact pinInv_note hkept.inv (hkept.decided d rfl)

/-- The keys accepted since the last change are in the table, and so is the one that is
accepted now. -/
theorem sound_of_inv : Sound s op := by
  intro s' d hact
  have hdecided := (gatewayAct_kept hi hop hact).decided d rfl
  refine ⟨fun hacc hquiet line hline => ?_, hdecided.current⟩
  exact Stored.unique (hdecided.keeps line (hi.accepted d.id line hline))
    (hdecided.stored hacc hquiet)

end

/-- **One key per host from change to change**, and none that is older, in every run whose
first uses all reach the table and whose changes leave no pin on another instance. -/
theorem host_keys_agree (table : HostKeys) (ops : List GatewayOp)
    (h : Guarded gatewayStep (fun s op => ¬ LeavesPins s op ∧
      ¬ PinsUnrecorded s op) (startedGateways table) ops) :
    Guarded gatewayStep Sound (startedGateways table) ops :=
  guarded_of_invariant pinInv_step sound_of_inv (pinInv_started table) h

/-! ## Runs of two instances -/

def oldKey : HostKey := ⟨"ssh-ed25519", "ssh-ed25519 AAAAold"⟩

def newKey : HostKey := ⟨"ssh-ed25519", "ssh-ed25519 AAAAnew"⟩

/-- A check from the lookup in memory to the one in the table. -/
def checkFrom (i : UUID) (id : String) (key : HostKey) : List GatewayOp :=
  [.check i id key, .lookup i true, .settle i]

/-- A key is pinned before any instance has met the host, and both go by it. -/
theorem host_keys_agree_provisioned : Guarded gatewayStep Sound (startedGateways .empty)
      ([.setPinned "10.0.0.7" newKey true] ++ checkFrom ⟨1⟩ "10.0.0.7" newKey ++
        checkFrom ⟨2⟩ "10.0.0.7" oldKey) := by
  refine host_keys_agree .empty _ ?_
  refine ⟨⟨?_, nofun⟩, ⟨nofun, nofun⟩, ⟨nofun, nofun⟩, ⟨nofun, nofun⟩, ⟨nofun, nofun⟩,
    ⟨nofun, nofun⟩, ⟨nofun, nofun⟩, trivial⟩
  rintro ⟨j, pin, hholds⟩
  exact Verifier.not_holds_new _ pin hholds

/-- Both instances look before either has pinned. -/
def racingFirstUses : List GatewayOp :=
  [.check ⟨1⟩ "10.0.0.7" oldKey, .check ⟨2⟩ "10.0.0.7" newKey, .lookup ⟨1⟩ true, .lookup ⟨2⟩ true,
    .settle ⟨1⟩, .settle ⟨2⟩, .pin ⟨1⟩ true]

/-- The first instance has met the host, and the key is replaced. -/
def replacedPin : List GatewayOp :=
  checkFrom ⟨1⟩ "10.0.0.7" oldKey ++ [.pin ⟨1⟩ true, .setPinned "10.0.0.7" newKey true]

/-- Two keys are accepted for one host; and the key that was pinned on purpose is refused for
the one before it. -/
theorem host_keys_disagree :
    (∃ s, exec gatewayStep (startedGateways .empty) racingFirstUses = some s ∧
      ¬ Sound s (.pin ⟨2⟩ true)) ∧
    ∃ s, exec gatewayStep (startedGateways .empty) replacedPin = some s ∧
      ¬ Sound s (.check ⟨1⟩ "10.0.0.7" newKey) := by
  constructor
  · refine ⟨_, rfl, fun hsound => ?_⟩
    have hsame := (hsound _ _ rfl).1 rfl (by decide +kernel) oldKey.line (by decide +kernel)
    exact absurd hsame (by decide)
  · refine ⟨_, rfl, fun hsound => ?_⟩
    have hcurrent := (hsound _ _ rfl).2 ⟨oldKey.line, 0⟩ rfl
    exact absurd hcurrent (by decide +kernel)

end Moorgate.Sshgw
