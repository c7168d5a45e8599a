import Moorgate.Framework.Base.Table
import Moorgate.Models.Ids

/-!
# Credential check-outs: `store/vault_checkouts.go`

A check-out is created pending or active. From there it is decided, checked in or
expired, and every statement that changes a status names the status it expects.
`Moves` is all that can happen to a row.
-/

namespace Moorgate.Store

open Framework Models

inductive CheckoutStatus where
  | pending | active | denied | checkedIn | expired
deriving DecidableEq

structure VaultCheckout where
  (id secretId userId : UUID)
  reason : String
  status : CheckoutStatus
  (requestedAt expiresAt : Instant)
  decidedBy : Option UUID
  (decidedAt checkedInAt : Option Instant)
deriving DecidableEq

abbrev VaultCheckouts := Table VaultCheckout.id

/-- The new row, and the table with it. -/
def createVaultCheckout (now : Instant) (newID secretID userID : UUID) (reason : String)
    (status : CheckoutStatus) (ttl : Duration) (t : VaultCheckouts) :
    Option (VaultCheckout × VaultCheckouts) :=
  let c : VaultCheckout :=
    ⟨newID, secretID, userID, reason, status, now, now + ttl, none, none, none⟩
  (t.insert c).map fun t' => (c, t')

def hasActiveCheckout (now : Instant) (secretID userID : UUID) (t : VaultCheckouts) : Bool :=
  0 < (t.select fun c => decide (c.secretId = secretID ∧ c.userId = userID ∧ c.status = .active ∧
    now < c.expiresAt)).length

def getVaultCheckout (id : UUID) (t : VaultCheckouts) : Option VaultCheckout := t.lookup id

/-- The row as `SetVaultCheckoutStatus` leaves it. -/
def VaultCheckout.setStatus (now : Instant) (dst : CheckoutStatus) (decidedBy : Option UUID)
    (c : VaultCheckout) : VaultCheckout :=
  let deciding := dst = .active ∨ dst = .denied
  { c with
    status := dst
    decidedBy := if deciding ∧ decidedBy ≠ none then decidedBy else c.decidedBy
    decidedAt := if deciding then some now else c.decidedAt
    checkedInAt := if dst = .checkedIn then some now else c.checkedInAt }

/-- Whether a row was in the state `src`, and what is left. -/
def setVaultCheckoutStatus (now : Instant) (id : UUID) (src dst : CheckoutStatus)
    (decidedBy : Option UUID) (t : VaultCheckouts) : Bool × VaultCheckouts :=
  let p := fun c : VaultCheckout => decide (c.id = id ∧ c.status = src)
  (decide (0 < (t.select p).length), t.update p (VaultCheckout.setStatus now dst decidedBy)
    fun _ => rfl)

def VaultCheckout.lapsed (now : Instant) (c : VaultCheckout) : Bool :=
  decide ((c.status = .active ∨ c.status = .pending) ∧ c.expiresAt < now)

def VaultCheckout.expire (c : VaultCheckout) : VaultCheckout := { c with status := .expired }

def expireVaultCheckouts (now : Instant) (t : VaultCheckouts) : ℕ × VaultCheckouts :=
  ((t.select (VaultCheckout.lapsed now)).length,
    t.update (VaultCheckout.lapsed now) VaultCheckout.expire fun _ => rfl)

/-! ## What a statement does to a row -/

/-- What a check-out is of, and until when. -/
structure VaultCheckout.Same (c c' : VaultCheckout) : Prop where
  id : c.id = c'.id
  secret : c.secretId = c'.secretId
  user : c.userId = c'.userId
  requested : c.requestedAt = c'.requestedAt
  expires : c.expiresAt = c'.expiresAt

/-- A row stays as it is, is decided by another user, or ends. -/
inductive VaultCheckout.Moves (c c' : VaultCheckout) : Prop where
  | stay (h : c' = c)
  | decided (src : c.status = .pending) (dst : c'.status = .active ∨ c'.status = .denied)
      (who : ∃ u, c'.decidedBy = some u ∧ u ≠ c.userId)
  | ended (src : c.status = .pending ∨ c.status = .active)
      (dst : c'.status = .checkedIn ∨ c'.status = .expired) (who : c'.decidedBy = c.decidedBy)

/-- Denied, checked in and expired. -/
def CheckoutStatus.final : CheckoutStatus → Bool
  | .denied | .checkedIn | .expired => true
  | .pending | .active => false

variable {c c' : VaultCheckout}

theorem VaultCheckout.Moves.status_of_final (h : c.Moves c')
    (hfinal : c.status.final) : c'.status = c.status := by
  cases h with
  | stay h => rw [h]
  | decided src _ _ =>
    rw [src] at hfinal
    cases hfinal
  | ended src _ _ =>
    rcases src with src | src <;>
      · rw [src] at hfinal
        cases hfinal

theorem VaultCheckout.Moves.not_pending (h : c.Moves c') (hleft : c.status ≠ .pending) :
    c'.status ≠ .pending := by
  cases h with
  | stay h => rwa [h]
  | decided src _ _ => exact absurd src hleft
  | ended _ dst _ => rcases dst with dst | dst <;> rw [dst] <;> exact nofun

theorem VaultCheckout.Moves.decidedBy_eq (h : c.Moves c')
    (hleft : c.status ≠ .pending) : c'.decidedBy = c.decidedBy := by
  cases h with
  | stay h => rw [h]
  | decided src _ _ => exact absurd src hleft
  | ended _ _ who => exact who

theorem hasActiveCheckout_iff {now : Instant} {secretID userID : UUID} {t : VaultCheckouts} :
    hasActiveCheckout now secretID userID t ↔
      ∃ c ∈ t.rows, c.secretId = secretID ∧ c.userId = userID ∧ c.status = .active ∧
      now < c.expiresAt := by
  unfold hasActiveCheckout
  rw [decide_eq_true_iff, List.length_pos_iff_exists_mem]
  refine exists_congr fun c => ?_
  rw [Table.mem_select, decide_eq_true_iff]

section

variable {now : Instant} {id : UUID} {src dst : CheckoutStatus} {decidedBy : Option UUID}
  {t : VaultCheckouts}

theorem setVaultCheckoutStatus_fst : (setVaultCheckoutStatus now id src dst decidedBy t).1 ↔
      ∃ c ∈ t.rows, c.id = id ∧ c.status = src := by
  unfold setVaultCheckoutStatus
  rw [decide_eq_true_iff, List.length_pos_iff_exists_mem]
  refine exists_congr fun c => ?_
  rw [Table.mem_select, decide_eq_true_iff]

theorem id_setStatus (c : VaultCheckout) : (c.setStatus now dst decidedBy).id = c.id := rfl

theorem setVaultCheckoutStatus_snd : (setVaultCheckoutStatus now id src dst decidedBy t).2 =
      t.update (fun c => decide (c.id = id ∧ c.status = src))
        (VaultCheckout.setStatus now dst decidedBy) id_setStatus :=
  rfl

/-- A row of the table afterwards: another one's, or the one that was found. -/
theorem mem_setVaultCheckoutStatus {c' : VaultCheckout}
    (h : c' ∈ (setVaultCheckoutStatus now id src dst decidedBy t).2.rows) :
    (c' ∈ t.rows ∧ ¬ (c'.id = id ∧ c'.status = src)) ∨
      ∃ c ∈ t.rows, c.id = id ∧ c.status = src ∧ c.setStatus now dst decidedBy = c' := by
  rw [setVaultCheckoutStatus_snd] at h
  rcases Table.mem_update_cases h with ⟨hold, hp⟩ | ⟨c, hold, hp, rfl⟩
  · exact .inl ⟨hold, of_decide_eq_false hp⟩
  · obtain ⟨hid, hstatus⟩ := of_decide_eq_true hp
    exact .inr ⟨c, hold, hid, hstatus, rfl⟩

variable {c : VaultCheckout}

theorem mem_setVaultCheckoutStatus_of_found (hc : c ∈ t.rows) (hid : c.id = id)
    (hsrc : c.status = src) :
    c.setStatus now dst decidedBy ∈ (setVaultCheckoutStatus now id src dst decidedBy t).2.rows := by
  rw [setVaultCheckoutStatus_snd, Table.mem_update]
  exact ⟨c, hc, if_pos (decide_eq_true ⟨hid, hsrc⟩)⟩

theorem decidedBy_setStatus (c : VaultCheckout) (u : UUID) (hdst : dst = .active ∨ dst = .denied) :
    (c.setStatus now dst (some u)).decidedBy = some u :=
  if_pos ⟨hdst, nofun⟩

theorem setStatus_decided {u : UUID} (hsrc : c.status = .pending)
    (hdst : dst = .active ∨ dst = .denied) (hother : c.userId ≠ u) :
    c.Moves (c.setStatus now dst (some u)) :=
  .decided hsrc hdst ⟨u, decidedBy_setStatus c u hdst, hother.symm⟩

theorem setStatus_checkedIn (hsrc : c.status = .pending ∨ c.status = .active) :
    c.Moves (c.setStatus now .checkedIn none) :=
  .ended hsrc (.inl rfl) rfl

end

/-- A new row is not decided, and has not yet the status of one that was. -/
structure VaultCheckout.Newborn (approval : UUID → Bool) (limit : Duration) (c : VaultCheckout) :
    Prop where
  bounded : c.expiresAt ≤ c.requestedAt + limit
  undecided : c.decidedBy = none
  pending : c.status = .pending ∨ (c.status = .active ∧ approval c.secretId = false)

/-- What a statement does to the table. -/
structure CheckoutsEvolve (approval : UUID → Bool) (limit : Duration) (t t' : VaultCheckouts) :
    Prop where
  kept : ∀ c ∈ t.rows, ∃ c' ∈ t'.rows, c.Same c' ∧ c.Moves c'
  origin : ∀ c' ∈ t'.rows, (∃ c ∈ t.rows, c.Same c' ∧ c.Moves c') ∨ c'.Newborn approval limit

/-- What holds of the check-outs between statements. `approval` are the credentials
whose check-outs have to be approved. -/
structure CheckoutsSound (approval : UUID → Bool) (limit : Duration) (t : VaultCheckouts) :
    Prop where
  bounded : ∀ c ∈ t.rows, c.expiresAt ≤ c.requestedAt + limit
  separate : ∀ c ∈ t.rows, c.decidedBy ≠ some c.userId
  undecided : ∀ c ∈ t.rows, c.status = .pending → c.decidedBy = none
  approved : ∀ c ∈ t.rows, approval c.secretId → c.status = .active ∨ c.status = .denied →
    c.decidedBy ≠ none

section

variable {approval : UUID → Bool} {limit : Duration} {t t' : VaultCheckouts} {now : Instant}

theorem VaultCheckout.Same.refl (c : VaultCheckout) : c.Same c := ⟨rfl, rfl, rfl, rfl, rfl⟩

theorem CheckoutsEvolve.refl (t : VaultCheckouts) : CheckoutsEvolve approval limit t t :=
  ⟨fun c hc => ⟨c, hc, .refl c, .stay rfl⟩, fun c hc => .inl ⟨c, hc, .refl c, .stay rfl⟩⟩

theorem CheckoutsEvolve.sound (h : CheckoutsEvolve approval limit t t')
    (ht : CheckoutsSound approval limit t) : CheckoutsSound approval limit t' := by
  have hall : ∀ c' ∈ t'.rows, c'.expiresAt ≤ c'.requestedAt + limit ∧
      c'.decidedBy ≠ some c'.userId ∧ (c'.status = .pending → c'.decidedBy = none) ∧
      (approval c'.secretId → c'.status = .active ∨ c'.status = .denied → c'.decidedBy ≠ none) := by
    intro c' hc'
    rcases h.origin c' hc' with ⟨c, hc, hsame, hmoves⟩ | hnew
    · rw [← hsame.expires, ← hsame.requested, ← hsame.user]
      refine ⟨ht.bounded c hc, ?_⟩
      cases hmoves with
      | stay h =>
        rw [h]
        exact ⟨ht.separate c hc, ht.undecided c hc, ht.approved c hc⟩
      | decided _ dst who =>
        obtain ⟨u, hu, hother⟩ := who
        rw [hu]
        refine ⟨fun hself => hother (Option.some.inj hself), fun hpending => ?_, nofun⟩
        rcases dst with dst | dst <;> cases dst.symm.trans hpending
      | ended _ dst who =>
        rw [who]
        rcases dst with dst | dst <;> rw [dst] <;> exact ⟨ht.separate c hc, nofun, nofun⟩
    · refine ⟨hnew.bounded, ?_⟩
      rw [hnew.undecided]
      refine ⟨nofun, fun _ => rfl, fun happroval hstatus => ?_⟩
      rcases hnew.pending with hpending | ⟨-, hno⟩
      · rw [hpending] at hstatus
        rcases hstatus with hstatus | hstatus <;> cases hstatus
      · rw [hno] at happroval
        cases happroval
  exact ⟨fun c hc => (hall c hc).1, fun c hc => (hall c hc).2.1, fun c hc => (hall c hc).2.2.1,
    fun c hc => (hall c hc).2.2.2⟩

theorem evolve_createVaultCheckout {newID secretID userID : UUID} {reason : String}
    {status : CheckoutStatus} {ttl : Duration} {co : VaultCheckout}
    (httl : ttl ≤ limit)
    (hstatus : status = .pending ∨ (status = .active ∧ approval secretID = false))
    (h : createVaultCheckout now newID secretID userID reason status ttl t = some (co, t')) :
    CheckoutsEvolve approval limit t t' := by
  obtain ⟨t₁, hins, ⟨⟩⟩ := Option.map_eq_some_iff.mp h
  constructor
  · intro c hc
    exact ⟨c, (Table.mem_insert hins).mpr (.inl hc), .refl c, .stay rfl⟩
  · intro c' hc'
    rcases (Table.mem_insert hins).mp hc' with hold | rfl
    · exact .inl ⟨c', hold, .refl c', .stay rfl⟩
    · exact .inr ⟨Int.add_le_add_left httl now, rfl, hstatus⟩

theorem evolve_setVaultCheckoutStatus {id : UUID} {src dst : CheckoutStatus}
    {decidedBy : Option UUID}
    (hmoves : ∀ c ∈ t.rows, c.id = id → c.status = src → c.Moves (c.setStatus now dst decidedBy)) :
    CheckoutsEvolve approval limit t (setVaultCheckoutStatus now id src dst decidedBy t).2 := by
  constructor
  · intro c hc
    rw [setVaultCheckoutStatus_snd]
    by_cases hp : c.id = id ∧ c.status = src
    · exact ⟨_, Table.mem_update_of_pos hc (decide_eq_true hp), ⟨rfl, rfl, rfl, rfl, rfl⟩,
        hmoves c hc hp.1 hp.2⟩
    · exact ⟨c, Table.mem_update_of_neg hc (decide_eq_false hp), .refl c, .stay rfl⟩
  · intro c' hc'
    left
    rcases mem_setVaultCheckoutStatus hc' with ⟨hold, -⟩ | ⟨c, hold, hid, hsrc, rfl⟩
    · exact ⟨c', hold, .refl c', .stay rfl⟩
    · exact ⟨c, hold, ⟨rfl, rfl, rfl, rfl, rfl⟩, hmoves c hold hid hsrc⟩

theorem expireVaultCheckouts_snd : (expireVaultCheckouts now t).2 =
    t.update (VaultCheckout.lapsed now) VaultCheckout.expire fun _ => rfl :=
  rfl

theorem moves_expire {c : VaultCheckout} (h : c.lapsed now) : c.Moves c.expire :=
  .ended (of_decide_eq_true h).1.symm (.inr rfl) rfl

theorem evolve_expireVaultCheckouts (now : Instant) (t : VaultCheckouts) :
    CheckoutsEvolve approval limit t (expireVaultCheckouts now t).2 := by
  rw [expireVaultCheckouts_snd]
  constructor
  · intro c hc
    cases hlapsed : c.lapsed now with
    | true => exact ⟨c.expire, Table.mem_update_of_pos hc hlapsed, ⟨rfl, rfl, rfl, rfl, rfl⟩,
        moves_expire hlapsed⟩
    | false => exact ⟨c, Table.mem_update_of_neg hc hlapsed, .refl c, .stay rfl⟩
  · intro c' hc'
    left
    rcases Table.mem_update_cases hc' with ⟨hold, -⟩ | ⟨c, hold, hlapsed, rfl⟩
    · exact ⟨c', hold, .refl c', .stay rfl⟩
    · exact ⟨c, hold, ⟨rfl, rfl, rfl, rfl, rfl⟩, moves_expire hlapsed⟩

end

end Moorgate.Store
