import Mathlib.Order.Bounds.Basic
import Moorgate.Framework.Base.Calls
import Moorgate.Framework.Base.Ipv4
import Moorgate.Framework.Base.Table
import Moorgate.Models.Ids

/-!
# Overlay addresses: `nextFreeWGCandidate`, `ReserveWGAddress`

A host gets the lowest address of the overlay that is free. The candidates are compared as texts,
with the jump address and with the addresses in use; texts of addresses are canonical, so that is
the same as comparing the addresses. `ReserveWGAddress` reads the addresses in use and assigns a
free one in one transaction, under a lock, so a call that takes the lock later finds it in use.
-/

namespace Moorgate.Store

open Framework Models

/-! ## The candidate -/

/-- What `net.ParseCIDR` yields: an IPv4 block, or a network of other addresses. -/
inductive IPNet where
  | v4 (b : Block)
  | other (text : String)

def Block.string (b : Block) : String := dotted b.base ++ "/" ++ zeroPad 0 b.ones

def firstFree (cand : ℕ → String) (jump : String) (used : List String) (off n : ℕ) :
    Option String :=
  ((List.range' off n).find? fun k => decide ¬(cand k = jump ∨ cand k ∈ used)).map cand

def candidate (b : Block) (off : ℕ) : String := dotted ((b.base + off % 2 ^ 32) % 2 ^ 32)

def maxWGScan : ℕ := 2 ^ 20

def scanRange (b : Block) : ℕ × ℕ :=
  let range := if b.size ≤ 2 then (0, b.size) else (1, b.size - 1)
  if range.2 - range.1 > maxWGScan then (range.1, range.1 + maxWGScan) else range

def firstFreeInNet (ipnet : IPNet) (jump : String) (used : List String) : Except String String :=
  match ipnet with
  | .other text => .error ("overlay subnet " ++ text ++ " is not IPv4")
  | .v4 b =>
    match firstFree (candidate b) jump used (scanRange b).1 ((scanRange b).2 - (scanRange b).1) with
    | some cand => .ok cand
    | none => .error ("no free overlay addresses in " ++ Block.string b)

section

/- `quote` is the verb `%q`, and `parseOther` what `net.ParseCIDR` does with a text that is no IPv4
block: the text of another network, or an error. -/
variable (quote : String → String) (parseOther : String → Except String String)

def parseCIDR (s : String) : Except String IPNet :=
  match parseBlock s with
  | some b => .ok (.v4 b)
  | none => (parseOther s).map .other

/-- The candidates without a subnet: the `/24` of the jump address. -/
def legacyCandidate (parts : List (List Char)) (n : ℕ) : String :=
  String.ofList (joinWith '.' (parts.take 3)) ++ "." ++ zeroPad 0 n

def nextFreeWGCandidate (jumpIP subnet : String) (used : List String) : Except String String :=
  let jump := trimSpace jumpIP
  let subnet := trimSpace subnet
  if subnet ≠ "" then
    match parseCIDR parseOther subnet with
    | .error err => .error ("invalid overlay subnet " ++ quote subnet ++ ": " ++ err)
    | .ok ipnet => firstFreeInNet ipnet jump used
  else
    let parts := splitWith '.' jump.toList
    if parts.length ≠ 4 then .error ("invalid jump ip " ++ quote jumpIP)
    else
      match firstFree (legacyCandidate parts) jump used 10 241 with
      | some cand => .ok cand
      | none => .error "no free overlay addresses"

end

section

variable {cand : ℕ → String} {jump : String} {used : List String}

variable {n off : ℕ} {s : String}

theorem firstFree_eq_some : firstFree cand jump used off n = some s ↔
      ∃ k, off ≤ k ∧ k < off + n ∧ s = cand k ∧ ¬(cand k = jump ∨ cand k ∈ used) ∧
        ∀ i, off ≤ i → i < k → cand i = jump ∨ cand i ∈ used := by
  simp only [firstFree, Option.map_eq_some_iff, List.find?_range'_eq_some, List.mem_range'_1,
    decide_eq_true_eq, Bool.not_eq_true', decide_eq_false_iff_not, not_not]
  constructor
  · rintro ⟨k, ⟨hfree, ⟨hle, hlt⟩, hbefore⟩, rfl⟩
    exact ⟨k, hle, hlt, rfl, hfree, hbefore⟩
  · rintro ⟨k, hle, hlt, rfl, hfree, hbefore⟩
    exact ⟨k, ⟨hfree, ⟨hle, hlt⟩, hbefore⟩, rfl⟩

theorem firstFree_eq_none :
    firstFree cand jump used off n = none ↔ ∀ k, off ≤ k → k < off + n → cand k = jump ∨
    cand k ∈ used := by
  simp [firstFree, or_iff_not_imp_left]

theorem firstFree_notMem (h : firstFree cand jump used off n = some s) : s ∉ used := by
  obtain ⟨k, -, -, rfl, hfree, -⟩ := firstFree_eq_some.mp h
  exact fun hmem => hfree (.inr hmem)

end

/-! ## The lowest free address -/

/-- The addresses for hosts: without the first and the last of the block if it has room for them. -/
def Block.Usable (b : Block) (a : ℕ) : Prop :=
  b.base ≤ a ∧ a < b.base + b.size ∧ (b.ones ≤ 30 → a ≠ b.base ∧ a ≠ b.base + b.size - 1)

def freeAddresses (b : Block) (jump : ℕ) (used : List ℕ) : Set ℕ :=
  {a | Block.Usable b a ∧ a ≠ jump ∧ a ∉ used}

section

variable {b : Block}

theorem size_le_two_iff (b : Block) : b.size ≤ 2 ↔ ¬b.ones ≤ 30 := by
  constructor
  · intro hsize hle
    have hfour : 2 ^ 2 ≤ 2 ^ (32 - b.ones) := Nat.pow_le_pow_right (by decide) (by omega)
    unfold Block.size at hsize
    omega
  · intro hlarge
    have htwo : 2 ^ (32 - b.ones) ≤ 2 ^ 1 := Nat.pow_le_pow_right (by decide) (by omega)
    exact htwo

theorem scanRange_snd_le (b : Block) : (scanRange b).2 ≤ b.size := by
  unfold scanRange
  by_cases hsmall : b.size ≤ 2
  · rw [if_pos hsmall]
    dsimp only
    split <;> dsimp only at * <;> omega
  · rw [if_neg hsmall]
    dsimp only
    split <;> dsimp only at * <;> omega

variable {off : ℕ}

theorem candidate_eq (h : off < b.size) :
    (b.base + off % 2 ^ 32) % 2 ^ 32 = b.base + off ∧ candidate b off = dotted (b.base + off) := by
  have hle := b.base_add_size_le
  have hsum : (b.base + off % 2 ^ 32) % 2 ^ 32 = b.base + off := by omega
  exact ⟨hsum, by rw [candidate, hsum]⟩

/-- A block that is small enough is looked at as a whole. -/
theorem usable_iff (hsize : b.size ≤ 2 ^ 20 + 2) {a : ℕ} :
    Block.Usable b a ↔ ∃ off, (scanRange b).1 ≤ off ∧ off < (scanRange b).2 ∧ a = b.base + off := by
  by_cases hsmall : b.size ≤ 2
  · have hrange : scanRange b = (0, b.size) := by
      unfold scanRange
      rw [if_pos hsmall, if_neg (by unfold maxWGScan; dsimp only; omega)]
    rw [hrange, Block.Usable]
    constructor
    · rintro ⟨hle, hlt, -⟩
      exact ⟨a - b.base, by omega, by dsimp only; omega, by omega⟩
    · rintro ⟨off, -, hlt, rfl⟩
      exact ⟨by omega, by dsimp only at hlt; omega,
        fun h => absurd h ((size_le_two_iff b).mp hsmall)⟩
  · have hrange : scanRange b = (1, b.size - 1) := by
      unfold scanRange
      rw [if_neg hsmall, if_neg (by unfold maxWGScan; dsimp only; omega)]
    have hones : b.ones ≤ 30 := not_not.mp fun h => hsmall ((size_le_two_iff b).mpr h)
    rw [hrange, Block.Usable]
    constructor
    · rintro ⟨hle, hlt, hends⟩
      exact ⟨a - b.base, by dsimp only; omega, by dsimp only; omega, by omega⟩
    · rintro ⟨off, hle, hlt, rfl⟩
      exact ⟨by omega, by omega, fun _ => ⟨by omega, by omega⟩⟩

variable {jump : ℕ} {used : List ℕ} (hjump : jump < 2 ^ 32) (hused : ∀ a ∈ used, a < 2 ^ 32)

include hjump hused

/-- As texts and as addresses, the same candidates are taken. -/
theorem taken_iff (h : off < b.size) :
    (candidate b off = dotted jump ∨ candidate b off ∈ used.map dotted) ↔ b.base + off = jump ∨
    b.base + off ∈ used := by
  have hlt : b.base + off < 2 ^ 32 := by
    have hle := b.base_add_size_le
    omega
  rw [(candidate_eq h).2]
  refine or_congr ⟨dotted_inj hlt hjump, fun h => h ▸ rfl⟩ ?_
  rw [List.mem_map]
  constructor
  · rintro ⟨a, ha, htext⟩
    exact dotted_inj (hused a ha) hlt htext ▸ ha
  · exact fun hmem => ⟨_, hmem, rfl⟩

theorem firstFree_isLeast (hsize : b.size ≤ 2 ^ 20 + 2) {cand : String} :
    firstFree (candidate b) (dotted jump) (used.map dotted)
      (scanRange b).1 ((scanRange b).2 - (scanRange b).1) =
        some cand ↔ ∃ a, IsLeast (freeAddresses b jump used) a ∧ cand = dotted a := by
  have hend := scanRange_snd_le b
  rw [firstFree_eq_some]
  constructor
  · rintro ⟨k, hle, hlt, rfl, hfree, hbefore⟩
    have hk : k < b.size := by omega
    rw [taken_iff hjump hused hk, not_or] at hfree
    refine ⟨b.base + k, ⟨⟨(usable_iff hsize).mpr ⟨k, hle, by omega, rfl⟩, hfree⟩, ?_⟩,
      (candidate_eq hk).2⟩
    rintro a ⟨husable, hfree'⟩
    obtain ⟨off, hoff, hoff', rfl⟩ := (usable_iff hsize).mp husable
    by_contra hless
    have htaken := hbefore off hoff (by omega)
    rw [taken_iff hjump hused (by omega)] at htaken
    exact htaken.elim hfree'.1 hfree'.2
  · rintro ⟨a, ⟨⟨husable, hfree⟩, hleast⟩, rfl⟩
    obtain ⟨off, hoff, hoff', rfl⟩ := (usable_iff hsize).mp husable
    have hlt : off < b.size := by omega
    refine ⟨off, hoff, by omega, (candidate_eq hlt).2.symm, ?_, fun i hi hik => ?_⟩
    · rw [taken_iff hjump hused hlt]
      exact fun h => h.elim hfree.1 hfree.2
    · rw [taken_iff hjump hused (by omega)]
      by_contra hfree'
      have hle := hleast ⟨(usable_iff hsize).mpr ⟨i, hi, by omega, rfl⟩, not_or.mp hfree'⟩
      omega

theorem firstFree_none_iff (hsize : b.size ≤ 2 ^ 20 + 2) :
    firstFree (candidate b) (dotted jump) (used.map dotted)
      (scanRange b).1 ((scanRange b).2 - (scanRange b).1) =
        none ↔ freeAddresses b jump used = ∅ := by
  have hend := scanRange_snd_le b
  rw [firstFree_eq_none, Set.eq_empty_iff_forall_notMem]
  constructor
  · rintro h a ⟨husable, hfree⟩
    obtain ⟨off, hoff, hoff', rfl⟩ := (usable_iff hsize).mp husable
    have htaken := h off hoff (by omega)
    rw [taken_iff hjump hused (by omega)] at htaken
    exact htaken.elim hfree.1 hfree.2
  · intro h k hle hlt
    rw [taken_iff hjump hused (by omega)]
    by_contra hfree
    exact h _ ⟨(usable_iff hsize).mpr ⟨k, hle, by omega, rfl⟩, not_or.mp hfree⟩

end

/-! ## Reservations -/

/-- `wgAddress` is `host(wg_address)`. -/
structure OverlayHost where
  id : UUID
  wgAddress : Option String

abbrev Hosts := Table OverlayHost.id

def usedWGAddressesTx (t : Hosts) : List String := t.rows.filterMap OverlayHost.wgAddress

def OverlayHost.assign (text : String) (r : OverlayHost) : OverlayHost :=
  { r with wgAddress := some text }

theorem OverlayHost.assign_id (text : String) (r : OverlayHost) : (r.assign text).id = r.id := rfl

def setWGAddress (hostID : UUID) (text : String) (t : Hosts) : Hosts :=
  t.update (fun r => decide (r.id = hostID)) (OverlayHost.assign text) (OverlayHost.assign_id text)

theorem mem_setWGAddress {hostID : UUID} {text : String} {t : Hosts} {r : OverlayHost} :
    r ∈ (setWGAddress hostID text t).rows ↔
    ∃ q ∈ t.rows, (if decide (q.id = hostID) then q.assign text else q) = r :=
  Table.mem_update

/-- `text` is `host($1::inet)`, and `none` for what is no address. -/
structure Inet where
  text : String → Option String
  text_dotted : ∀ a < 2 ^ 32, text (dotted a) = some (dotted a)

/-- `locked` is the advisory lock. What a transaction has not committed is not in `hosts`. -/
structure OverlayStore where
  hosts : Hosts
  locked : Bool

structure Reservation where
  hostID : UUID
  (jumpIP subnet : String)
  canonical : ∃ jump < 2 ^ 32, trimSpace jumpIP = dotted jump

/-- Each state stands before the statement it is named for. -/
inductive ReserveState where
  | locking | reading
  | writing (cand : String)
  | committing (cand text : String)
  | returned (assigned : Except String String)

structure Reserving where
  arg : Reservation
  state : ReserveState

/-- How a statement ends. A commit that is lost has happened. -/
inductive Ending where
  | ok
  | failed (err : String)
  | lost (err : String)

theorem legacyCandidate_dotted (jump : ℕ) {n : ℕ} (h : n < 256) :
    legacyCandidate (splitWith '.' (dotted jump).toList) n = dotted (jump / 256 * 256 + n) := by
  have hoctets : octets (jump / 256 * 256 + n) =
      [jump / 2 ^ 24 % 256, jump / 2 ^ 16 % 256, jump / 2 ^ 8 % 256, n] := by
    simp only [octets, List.cons.injEq, and_true]
    omega
  have htexts : octetTexts (jump / 256 * 256 + n) = (octetTexts jump).take 3 ++
      [(zeroPad 0 n).toList] := by
    rw [octetTexts, hoctets, octetTexts, octets]
    rfl
  rw [splitWith_dotted, dotted, htexts, ← String.toList_inj, legacyCandidate]
  simp [octetTexts, octets, joinWith, String.toList_append]

theorem trimSpace_dotted (a : ℕ) : trimSpace (dotted a) = dotted a := by
  have hplain : ∀ c ∈ (dotted a).toList, isSpace c = false := by
    intro c hc
    rcases mem_dotted hc with rfl | hdigit
    · rfl
    · exact isSpace_of_isDigit hdigit
  rw [trimSpace, trim_eq_self hplain, String.ofList_toList]

section

variable (quote : String → String) (parseOther : String → Except String String) (inet : Inet)

def rollback (err : String) (st : OverlayStore) (p : Reserving) : OverlayStore × Reserving :=
  ({ st with locked := false }, { p with state := .returned (.error err) })

def reserveWGAddress (i : Ending) (st : OverlayStore) (p : Reserving) :
    Option (OverlayStore × Reserving) :=
  match p.state, i with
  | .locking, .ok =>
    -- waits while another transaction has the lock
    if st.locked then none else some ({ st with locked := true }, { p with state := .reading })
  | .locking, .failed err | .locking, .lost err =>
    some (st, { p with state := .returned (.error err) })
  | .reading, .ok =>
    match nextFreeWGCandidate quote parseOther p.arg.jumpIP p.arg.subnet
      (usedWGAddressesTx st.hosts) with
    | .error err => some (rollback err st p)
    | .ok cand => some (st, { p with state := .writing cand })
  | .writing cand, .ok =>
    match inet.text cand with
    | none => some (rollback ("invalid input syntax for type inet: " ++ quote cand) st p)
    | some text => some (st, { p with state := .committing cand text })
  | .committing cand text, .ok =>
    some (⟨setWGAddress p.arg.hostID text st.hosts, false⟩,
      { p with state := .returned (.ok cand) })
  | .committing _ text, .lost err =>
    some (⟨setWGAddress p.arg.hostID text st.hosts, false⟩,
      { p with state := .returned (.error err) })
  | .reading, .failed err | .reading, .lost err | .writing _, .failed err | .writing _, .lost err
  | .committing _ _, .failed err => some (rollback err st p)
  | .returned _, _ => none

abbrev OverlayPool := Pool OverlayStore Reserving

def overlayStep (s : OverlayPool) (m : Move Reservation Ending) : Option OverlayPool :=
  poolStep (fun arg => ⟨arg, .locking⟩) (reserveWGAddress quote parseOther inet) s m

variable {arg : Reservation} {cand : String}

/-- The candidate of a call with a canonical jump address is free, and an address. -/
theorem nextFree_facts {used : List String}
    (h : nextFreeWGCandidate quote parseOther arg.jumpIP arg.subnet used = .ok cand) :
    cand ∉ used ∧ ∃ a < 2 ^ 32, cand = dotted a := by
  obtain ⟨jump, hjump, htext⟩ := arg.canonical
  revert h
  fun_cases nextFreeWGCandidate quote parseOther arg.jumpIP arg.subnet used with
  | case2 _ _ _ ipnet =>
    fun_cases firstFreeInNet ipnet (trimSpace arg.jumpIP) used with
    | case2 b found hfound =>
      rintro ⟨⟩
      obtain ⟨k, -, -, rfl, -⟩ := firstFree_eq_some.mp hfound
      exact ⟨firstFree_notMem hfound, _, Nat.mod_lt _ (by decide), rfl⟩
    | _ => rintro ⟨⟩
  | case4 _ _ _ _ _ found hfound =>
    rintro ⟨⟩
    obtain ⟨k, hle, hlt, rfl, -⟩ := firstFree_eq_some.mp hfound
    refine ⟨firstFree_notMem hfound, jump / 256 * 256 + k, by omega, ?_⟩
    rw [← legacyCandidate_dotted jump (by omega), ← htext]
  | _ => rintro ⟨⟩

variable {quote parseOther inet}

def ReserveState.holding : ReserveState → Bool
  | .reading | .writing _ | .committing _ _ => true
  | .locking | .returned _ => false

variable (quote parseOther inet) in
inductive Reserves (arg : Reservation) : OverlayStore → ReserveState → OverlayStore → ReserveState →
    Prop where
  | lock {st : OverlayStore} (hfree : st.locked = false) :
      Reserves arg st .locking { st with locked := true } .reading
  | refused {st : OverlayStore} {err : String} :
      Reserves arg st .locking st (.returned (.error err))
  | choose {st : OverlayStore} {cand : String}
      (hcand : nextFreeWGCandidate quote parseOther arg.jumpIP arg.subnet
      (usedWGAddressesTx st.hosts) = .ok cand) : Reserves arg st .reading st (.writing cand)
  | write {st : OverlayStore} {cand text : String} (htext : inet.text cand = some text) :
      Reserves arg st (.writing cand) st (.committing cand text)
  | rollback {st : OverlayStore} {state : ReserveState} {err : String} (hholds : state.holding) :
      Reserves arg st state { st with locked := false } (.returned (.error err))
  | commit {st : OverlayStore} {cand text : String} {assigned : Except String String}
      (hassigned : ∀ a, assigned = .ok a → a = cand) :
      Reserves arg st (.committing cand text) ⟨setWGAddress arg.hostID text st.hosts,
      false⟩ (.returned assigned)

variable {st' : OverlayStore} {p p' : Reserving}

theorem reserve_cases {i : Ending} {st : OverlayStore}
    (h : reserveWGAddress quote parseOther inet i st p = some (st', p')) :
    p'.arg = p.arg ∧ Reserves quote parseOther inet p.arg st p.state st' p'.state := by
  revert h
  fun_cases reserveWGAddress quote parseOther inet i st p with
  | case1 | case16 => rintro ⟨⟩
  | case2 hstate hfree =>
    rintro ⟨⟩
    exact ⟨rfl, hstate ▸ .lock (Bool.eq_false_iff.mpr hfree)⟩
  | case3 err hstate | case4 err hstate =>
    rintro ⟨⟩
    exact ⟨rfl, hstate ▸ .refused⟩
  | case6 hstate cand hcand =>
    rintro ⟨⟩
    exact ⟨rfl, hstate ▸ .choose hcand⟩
  | case8 cand hstate text htext =>
    rintro ⟨⟩
    exact ⟨rfl, hstate ▸ .write htext⟩
  | case9 cand text hstate =>
    rintro ⟨⟩
    exact ⟨rfl, hstate ▸ .commit fun a ha => (Except.ok.inj ha).symm⟩
  | case10 cand text err hstate =>
    rintro ⟨⟩
    exact ⟨rfl, hstate ▸ .commit nofun⟩
  | _ =>
    rintro ⟨⟩
    exact ⟨rfl, .rollback (by simp [*, ReserveState.holding])⟩

/-! ### One transaction at a time -/

/-- What a transaction is about to assign is an address that is not in use. -/
def ReserveState.Fresh (t : Hosts) : ReserveState → Prop
  | .writing cand => cand ∉ usedWGAddressesTx t ∧ ∃ a < 2 ^ 32, cand = dotted a
  | .committing cand text => cand ∉ usedWGAddressesTx t ∧ text = cand
  | .locking | .reading | .returned _ => True

theorem fresh_of_not_holding {state : ReserveState} {t : Hosts} (h : state.holding = false) :
    state.Fresh t := by
  cases state with
  | locking | reading | returned _ => trivial
  | writing _ | committing _ _ => cases h

structure Exclusive (s : OverlayPool) : Prop where
  locked : ∀ p ∈ s.calls, p.state.holding → s.store.locked
  alone : ∀ {c d p q}, c ≠ d → s.call c = some p → s.call d = some q →
    ¬(p.state.holding ∧ q.state.holding)
  fresh : ∀ p ∈ s.calls, p.state.Fresh s.store.hosts

variable {s : OverlayPool}

theorem Exclusive.enter (hs : Exclusive s) (arg : Reservation) :
    Exclusive (s.enter ⟨arg, .locking⟩) where
  locked := Pool.forall_enter hs.locked nofun
  alone := Pool.pair_enter (R := fun (p q : Reserving) => ¬(p.state.holding ∧ q.state.holding))
    (fun h hboth => h hboth.symm) hs.alone fun _ _ hboth => Bool.noConfusion hboth.1
  fresh := Pool.forall_enter hs.fresh trivial

variable {c : ℕ}

/-- A statement keeps it if another call that has the lock is not disturbed. -/
theorem Exclusive.put (hs : Exclusive s)
    (hlocked : p'.state.holding → st'.locked) (hfresh : p'.state.Fresh st'.hosts)
    (hothers : ∀ {d q}, d ≠ c → s.call d = some q → q.state.holding →
      st'.locked ∧ p'.state.holding = false ∧
      st'.hosts = s.store.hosts) : Exclusive (s.put c st' p') where
  locked q hq hholds := by
    obtain ⟨d, hd⟩ := List.mem_iff_getElem?.mp hq
    rcases Pool.call_put hd with ⟨-, rfl⟩ | ⟨hne, hold⟩
    · exact hlocked hholds
    · exact (hothers hne hold hholds).1
  alone := Pool.pair_put (R := fun (p q : Reserving) => ¬(p.state.holding ∧ q.state.holding))
    (fun h hboth => h hboth.symm) hs.alone fun hne hq hboth => by
      have hnot := (hothers hne hq hboth.2).2.1
      rw [hnot] at hboth
      exact Bool.noConfusion hboth.1
  fresh q hq := by
    obtain ⟨d, hd⟩ := List.mem_iff_getElem?.mp hq
    rcases Pool.call_put hd with ⟨-, rfl⟩ | ⟨hne, hold⟩
    · exact hfresh
    cases hholds : q.state.holding with
    | false => exact fresh_of_not_holding hholds
    | true =>
      have hhosts := (hothers hne hold hholds).2.2
      show q.state.Fresh st'.hosts
      rw [hhosts]
      exact hs.fresh q (Pool.mem_of_call hold)

theorem Exclusive.advance (hs : Exclusive s)
    (hc : s.call c = some p)
    (h : Reserves quote parseOther inet p.arg s.store p.state st' p'.state) :
    Exclusive (s.put c st' p') := by
  -- while this call has the lock no other has
  have hothers : ∀ {d q}, p.state.holding → d ≠ c → s.call d = some q → ¬q.state.holding :=
    fun hholds hne hq hq' => hs.alone hne hq hc ⟨hq', hholds⟩
  have hfresh := hs.fresh p (Pool.mem_of_call hc)
  have hheld := hs.locked p (Pool.mem_of_call hc)
  obtain ⟨arg', after⟩ := p'
  generalize p.state = before at *
  cases h with
  | lock hfree =>
    refine hs.put (fun _ => rfl) trivial fun hne hq hholds => ?_
    rw [hs.locked _ (Pool.mem_of_call hq) hholds] at hfree
    cases hfree
  | refused => exact hs.put nofun trivial fun hne hq hholds =>
      ⟨hs.locked _ (Pool.mem_of_call hq) hholds, rfl, rfl⟩
  | choose hcand =>
    refine hs.put (fun _ => hheld rfl) ?_ fun hne hq hholds => absurd hholds (hothers rfl hne hq)
    exact nextFree_facts quote parseOther hcand
  | write htext =>
    refine hs.put (fun _ => hheld rfl) ?_ fun hne hq hholds => absurd hholds (hothers rfl hne hq)
    obtain ⟨hunused, a, ha, rfl⟩ := hfresh
    rw [inet.text_dotted a ha] at htext
    exact ⟨hunused, (Option.some.inj htext).symm⟩
  | rollback hholding =>
    exact hs.put nofun trivial fun hne hq hholds => absurd hholds (hothers hholding hne hq)
  | commit hassigned =>
    exact hs.put nofun trivial fun hne hq hholds => absurd hholds (hothers rfl hne hq)

/-! ### Distinct hosts -/

def hostIDs (s : OverlayPool) : List UUID := s.calls.map fun p => p.arg.hostID

/-- The calls are for hosts that exist, no two for the same. -/
structure DistinctHosts (s : OverlayPool) : Prop where
  exist : ∀ id ∈ hostIDs s, id ∈ s.store.hosts.rows.map OverlayHost.id
  nodup : (hostIDs s).Nodup

instance (s : OverlayPool) : Decidable (DistinctHosts s) :=
  decidable_of_iff ((∀ id ∈ hostIDs s, id ∈ s.store.hosts.rows.map OverlayHost.id) ∧
    (hostIDs s).Nodup) ⟨fun h => ⟨h.1, h.2⟩, fun h => ⟨h.exist, h.nodup⟩⟩

theorem DistinctHosts.differ (h : DistinctHosts s) {d : ℕ} {q : Reserving} (hne : c ≠ d)
    (hp : s.call c = some p) (hq : s.call d = some q) : p.arg.hostID ≠ q.arg.hostID := by
  intro hsame
  have hget : ∀ {e r}, s.call e = some r → (hostIDs s)[e]? = some r.arg.hostID := fun hr => by
    rw [hostIDs, List.getElem?_map]
    exact congrArg (Option.map fun p : Reserving => p.arg.hostID) hr
  obtain ⟨hlt, -⟩ := List.getElem?_eq_some_iff.mp (hget hp)
  exact hne ((List.getElem?_inj hlt h.nodup).mp (by rw [hget hp, hget hq, hsame]))

def Apart (p q : Reserving) : Prop :=
  ∀ a b, p.state = .returned (.ok a) → q.state = .returned (.ok b) → a ≠ b

theorem Apart.symm (h : Apart p p') : Apart p' p := fun a b ha hb => (h b a hb ha).symm

/-- What was assigned is in the rows, and was assigned once. -/
structure Assigned (s : OverlayPool) : Prop where
  kept : ∀ p ∈ s.calls, ∀ a, p.state = .returned (.ok a) →
    ∃ r ∈ s.store.hosts.rows, r.id = p.arg.hostID ∧ r.wgAddress = some a
  once : ∀ {c d p q}, c ≠ d → s.call c = some p → s.call d = some q →
    ∀ a b, p.state = .returned (.ok a) → q.state = .returned (.ok b) → a ≠ b

theorem ids_of_reserves {st : OverlayStore} {before after : ReserveState}
    (h : Reserves quote parseOther inet arg st before st' after) :
    st'.hosts.rows.map OverlayHost.id = st.hosts.rows.map OverlayHost.id := by
  cases h with
  | lock _ | refused | choose _ | write _ | rollback _ => rfl
  | commit _ => exact Table.map_key_update _ _ _ (OverlayHost.assign_id _)

theorem DistinctHosts.of_enter (h : DistinctHosts (s.enter p)) : DistinctHosts s := by
  have hids : hostIDs (s.enter p) = hostIDs s ++ [p.arg.hostID] := List.map_append
  have hnodup := h.nodup
  rw [hids] at hnodup
  exact ⟨fun id hid => h.exist id (hids ▸ List.mem_append_left _ hid), hnodup.of_append_left⟩

theorem DistinctHosts.of_put (h : DistinctHosts (s.put c st' p')) (hc : s.call c = some p)
    (harg : p'.arg = p.arg)
    (hrows : st'.hosts.rows.map OverlayHost.id = s.store.hosts.rows.map OverlayHost.id) :
    DistinctHosts s := by
  have hids : hostIDs (s.put c st' p') = hostIDs s := by
    obtain ⟨hlt, rfl⟩ := List.getElem?_eq_some_iff.mp hc
    have hown : (hostIDs s).set c p'.arg.hostID = hostIDs s := by
      rw [harg, hostIDs, ← List.map_set (f := fun q : Reserving => q.arg.hostID),
        List.set_getElem_self]
    rw [← hown, hostIDs, Pool.put, List.map_set, hostIDs]
  exact ⟨fun id hid => hrows ▸ h.exist id (hids ▸ hid), hids ▸ h.nodup⟩

theorem Assigned.enter (hs : Assigned s) (arg : Reservation) :
    Assigned (s.enter ⟨arg, .locking⟩) where
  kept := Pool.forall_enter hs.kept nofun
  once := Pool.pair_enter (R := Apart) Apart.symm hs.once fun _ _ => nofun

theorem Assigned.put (hs : Assigned s)
    (hhosts : st'.hosts = s.store.hosts) (hnone : ∀ a, p'.state ≠ .returned (.ok a)) :
    Assigned (s.put c st' p') where
  kept := by
    refine Pool.forall_put (P := fun (p : Reserving) => ∀ a, p.state = .returned (.ok a) →
      ∃ r ∈ st'.hosts.rows, r.id = p.arg.hostID ∧ r.wgAddress = some a) ?_ fun a ha => absurd ha
      (hnone a)
    rw [hhosts]
    exact hs.kept
  once := Pool.pair_put (R := Apart) Apart.symm hs.once fun _ _ a _ ha => absurd ha (hnone a)

/-- The commit: no other call has the address, and no other call's row changes. -/
theorem Assigned.commit (hs : Assigned s) (hdistinct : DistinctHosts s) (hc : s.call c = some p)
    (harg : p'.arg = p.arg) (hunused : cand ∉ usedWGAddressesTx s.store.hosts)
    (hassigned : ∀ a, p'.state = .returned (.ok a) → a = cand) :
    Assigned (s.put c ⟨setWGAddress p.arg.hostID cand s.store.hosts, false⟩ p') where
  kept q hq a ha := by
    obtain ⟨d, hd⟩ := List.mem_iff_getElem?.mp hq
    rcases Pool.call_put hd with ⟨-, rfl⟩ | ⟨hne, hold⟩
    · obtain ⟨r, hr, hid⟩ :=
        List.mem_map.mp (hdistinct.exist _ (List.mem_map_of_mem (Pool.mem_of_call hc)))
      refine ⟨r.assign cand, mem_setWGAddress.mpr ⟨r, hr, if_pos (decide_eq_true hid)⟩, ?_, ?_⟩
      · rw [OverlayHost.assign_id, harg, hid]
      · rw [hassigned a ha]
        rfl
    · obtain ⟨r, hr, hid, hwg⟩ := hs.kept q (Pool.mem_of_call hold) a ha
      have hother : r.id ≠ p.arg.hostID := hid ▸ hdistinct.differ hne hold hc
      exact ⟨r, mem_setWGAddress.mpr ⟨r, hr, if_neg (by simpa using hother)⟩, hid, hwg⟩
  once := Pool.pair_put (R := Apart) Apart.symm hs.once fun {d q} hne hq a b ha hb hab => by
      obtain ⟨r, hr, -, hwg⟩ := hs.kept q (Pool.mem_of_call hq) b hb
      refine hunused (List.mem_filterMap.mpr ⟨r, hr, ?_⟩)
      rw [hwg, ← hab, hassigned a ha]

theorem Assigned.advance (hs : Assigned s) (hexclusive : Exclusive s) (hdistinct : DistinctHosts s)
    (hc : s.call c = some p) (harg : p'.arg = p.arg)
    (h : Reserves quote parseOther inet p.arg s.store p.state st' p'.state) :
    Assigned (s.put c st' p') := by
  have hfresh := hexclusive.fresh p (Pool.mem_of_call hc)
  obtain ⟨arg', after⟩ := p'
  generalize p.state = before at *
  cases h with
  | lock _ | refused | choose _ | write _ | rollback _ => exact hs.put rfl nofun
  | commit hassigned =>
    obtain ⟨hunused, rfl⟩ := hfresh
    exact hs.commit hdistinct hc harg hunused fun a ha => hassigned a (ReserveState.returned.inj ha)

theorem overlayStep_invariant {s' : OverlayPool} {m : Move Reservation Ending}
    (h : overlayStep quote parseOther inet s m = some s')
    (hs : Exclusive s ∧ (DistinctHosts s → Assigned s)) :
    Exclusive s' ∧ (DistinctHosts s' → Assigned s') := by
  obtain ⟨hexclusive, hassigned⟩ := hs
  rcases poolStep_cases h with ⟨arg, -, rfl⟩ | ⟨c, i, p, st', p', -, hc, hact, rfl⟩
  · exact ⟨hexclusive.enter arg, fun hdistinct => (hassigned hdistinct.of_enter).enter arg⟩
  obtain ⟨harg, hreserves⟩ := reserve_cases hact
  refine ⟨hexclusive.advance hc hreserves, fun hdistinct' => ?_⟩
  have hdistinct := hdistinct'.of_put hc harg (ids_of_reserves hreserves)
  exact (hassigned hdistinct).advance hexclusive hdistinct hc harg hreserves

end

def overlayStart (hosts : Hosts) : OverlayPool := ⟨⟨hosts, false⟩, []⟩

theorem call_overlayStart (hosts : Hosts) (c : ℕ) : (overlayStart hosts).call c = none :=
  List.getElem?_nil

theorem exclusive_start (hosts : Hosts) : Exclusive (overlayStart hosts) where
  locked _ hp := absurd hp List.not_mem_nil
  alone _ hc := by cases (call_overlayStart hosts _).symm.trans hc
  fresh _ hp := absurd hp List.not_mem_nil

theorem assigned_start (hosts : Hosts) : Assigned (overlayStart hosts) where
  kept _ hp := absurd hp List.not_mem_nil
  once _ hc := by cases (call_overlayStart hosts _).symm.trans hc

/-- **Overlay addresses.** In a subnet of at most `2 ^ 20 + 2` addresses the candidate is the lowest
free one, there is an error iff none is free, and the sums do not wrap. Whatever the order in which
calls for distinct hosts go through their statements, no two of them return the same address. -/
theorem overlay_allocation (quote : String → String) (parseOther : String → Except String String)
    (inet : Inet) : (∀ (subnet jumpIP : String) (b : Block) (jump : ℕ) (used : List ℕ),
      parseBlock (trimSpace subnet) = some b → b.size ≤ 2 ^ 20 + 2 →
      trimSpace jumpIP = dotted jump → jump < 2 ^ 32 → (∀ a ∈ used, a < 2 ^ 32) →
      (∀ cand, nextFreeWGCandidate quote parseOther jumpIP subnet (used.map dotted) = .ok cand ↔
        ∃ a, IsLeast (freeAddresses b jump used) a ∧ cand = dotted a) ∧
      ((∃ err, nextFreeWGCandidate quote parseOther jumpIP subnet (used.map dotted) = .error err) ↔
        freeAddresses b jump used = ∅) ∧
          ∀ off < (scanRange b).2, (b.base + off % 2 ^ 32) % 2 ^ 32 = b.base + off) ∧
    ∀ (hosts : Hosts) (run : List (Move Reservation Ending)) (s : OverlayPool),
      exec (overlayStep quote parseOther inet) (overlayStart hosts) run = some s → DistinctHosts s →
      ∀ c d p q a b, c ≠ d → s.call c = some p → s.call d = some q →
        p.state = .returned (.ok a) → q.state = .returned (.ok b) → a ≠ b := by
  constructor
  · intro subnet jumpIP b jump used hparse hsize hjumpIP hjump hused
    have hnext : nextFreeWGCandidate quote parseOther jumpIP subnet (used.map dotted) =
        firstFreeInNet (.v4 b) (dotted jump) (used.map dotted) := by
      have hne : trimSpace subnet ≠ "" := by
        intro hempty
        rw [hempty, parseBlock_empty] at hparse
        cases hparse
      rw [nextFreeWGCandidate, if_pos hne, parseCIDR, hparse, hjumpIP]
    have hleast := @firstFree_isLeast b jump used hjump hused hsize
    have hnone := firstFree_none_iff hjump hused hsize
    have hwrap : ∀ off < (scanRange b).2, (b.base + off % 2 ^ 32) % 2 ^ 32 = b.base + off :=
      fun off hoff =>
      (candidate_eq (lt_of_lt_of_le hoff (scanRange_snd_le b))).1
    rw [hnext, firstFreeInNet]
    generalize firstFree (candidate b) (dotted jump) (used.map dotted) (scanRange b).1
      ((scanRange b).2 - (scanRange b).1) = found at hleast hnone
    cases found with
    | none =>
      exact ⟨fun cand => iff_of_false nofun fun h => absurd (hleast.mpr h).symm
        (Option.some_ne_none _), iff_of_true ⟨_, rfl⟩ (hnone.mp rfl), hwrap⟩
    | some found =>
      refine ⟨fun cand => ?_, iff_of_false (fun ⟨_, h⟩ => by cases h) fun h => absurd (hnone.mpr h)
        (Option.some_ne_none _), hwrap⟩
      rw [← hleast]
      exact ⟨fun h => congrArg some (Except.ok.inj h),
        fun h => congrArg Except.ok (Option.some.inj h)⟩
  · intro hosts run s hrun hdistinct c d p q a b hne hc hd hp hq
    have hend := exec_invariant_of_step (fun hs h => overlayStep_invariant h hs) hrun
      ⟨exclusive_start hosts, fun _ => assigned_start hosts⟩
    exact (hend.2 hdistinct).once hne hc hd a b hp hq

theorem parse_text_dotted (a : ℕ) (h : a < 2 ^ 32) :
    (parseDotted (dotted a)).map (fun b => dotted b) = some (dotted a) := by
  rw [show dotted a = dotted (⟨a, h⟩ : Fin (2 ^ 32)).val from rfl, parseDotted_dotted]
  rfl

def inetV4 : Inet := ⟨fun s => (parseDotted s).map fun a => dotted a, parse_text_dotted⟩

theorem jump_canonical : ∃ jump < 2 ^ 32, trimSpace (dotted 174325761) = dotted jump :=
  ⟨174325761, by decide, trimSpace_dotted _⟩

def reservationOf (n : ℕ) : Reservation :=
  ⟨UUID.ofNat n, dotted 174325761, "10.100.0.0/29", jump_canonical⟩

def twoHosts : Hosts := ⟨[⟨UUID.ofNat 1, none⟩, ⟨UUID.ofNat 2, none⟩], by decide⟩

/-- The call for the second host waits until that for the first has committed. -/
def twoReserved : Option OverlayPool :=
  exec (overlayStep id .error inetV4) (overlayStart twoHosts)
    (.begin (reservationOf 1) :: .begin (reservationOf 2) ::
      (List.replicate 4 (.advance 0 .ok) ++ List.replicate 4 (.advance 1 .ok)))

def assignedOf (p : Reserving) : Option String :=
  match p.state with
  | .returned (.ok a) => some a
  | _ => none

theorem returned_of_assignedOf {p : Reserving} {a : String} (h : assignedOf p = some a) :
    p.state = .returned (.ok a) := by
  unfold assignedOf at h
  split at h
  · next hstate => rw [hstate, Option.some.inj h]
  · cases h

theorem twoReserved_assigns :
    ∃ s, twoReserved = some s ∧ (∃ p ∈ s.call 0, assignedOf p = some "10.100.0.2") ∧
    (∃ q ∈ s.call 1, assignedOf q = some "10.100.0.3") ∧ DistinctHosts s :=
  exists_of_any (by decide +kernel)

/-- Two hosts get the two lowest addresses after that of the jump host. -/
theorem overlay_allocation_two :
    (∃ a, IsLeast (freeAddresses (Block.ofAddress 174325760 29) 174325761 [174325762]) a ∧
      "10.100.0.3" = dotted a) ∧
      ∃ s p q, twoReserved = some s ∧ s.call 0 = some p ∧ s.call 1 = some q ∧
        assignedOf p = some "10.100.0.2" ∧ assignedOf q = some "10.100.0.3" ∧
        "10.100.0.2" ≠ "10.100.0.3" := by
  obtain ⟨hlowest, hreserve⟩ := overlay_allocation id .error inetV4
  constructor
  · have hfree :=
      hlowest "10.100.0.0/29" "10.100.0.1" (Block.ofAddress 174325760 29) 174325761 [174325762]
      (by rfl) (by decide) (by decide +kernel) (by decide) (by decide)
    exact (hfree.1 "10.100.0.3").mp (by decide +kernel)
  · obtain ⟨s, hs, ⟨p, hp, hp'⟩, ⟨q, hq, hq'⟩, hdistinct⟩ := twoReserved_assigns
    refine ⟨s, p, q, hs, hp, hq, hp', hq', ?_⟩
    exact hreserve _ _ _ hs hdistinct 0 1 p q _ _ (by decide) hp hq
      (returned_of_assignedOf hp') (returned_of_assignedOf hq')

end Moorgate.Store
