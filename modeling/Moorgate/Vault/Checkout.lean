import Moorgate.Framework.Base.Calls
import Moorgate.Store.Checkouts

/-!
# Credential check-outs: `vault/checkout.go`

A credential with the policy `approval` is handed out while its user has an active check-out. The
user requests one, another user decides, the user checks it in, and a job expires what has run out.
A handler reads the row, checks it and then sets the status if it is still the one it read; whose
check-out it is never changes. So a decision takes effect at most once, and never for the decider's
own request.
-/

namespace Moorgate.Vault

open Framework Models Store

inductive AccessPolicy where
  | openAccess | checkout | approval
deriving DecidableEq

structure CheckoutReq where
  reason : String
  minutes : ℤ

/-- The ids as `uuid.Parse` reads them; the body as it was decoded. -/
inductive CheckoutRequest where
  | requestCheckout (userID : UUID) (id : Option UUID) (body : Option CheckoutReq)
  | checkin (userID : UUID) (coid : Option UUID)
  | approveCheckout (userID : UUID) (coid : Option UUID)
  | denyCheckout (userID : UUID) (coid : Option UUID)
  | expire

inductive CheckoutReply where
  | created (co : VaultCheckout)
  | checkedIn
  | updated (co : Option VaultCheckout)
  | expired (n : ℕ)
  | error (code : ℕ) (message : String)
  | failed
deriving DecidableEq

/-- What is to be stored by `CreateVaultCheckout`. -/
structure NewCheckout where
  (secretID userID : UUID)
  reason : String
  status : CheckoutStatus
  ttl : Duration

/-- What is to be stored by `SetVaultCheckoutStatus` for a decision. -/
structure DecidedCheckout where
  (id userID : UUID)
  dst : CheckoutStatus

inductive CheckoutPc where
  | called
  | creating (new : NewCheckout)
  | checkingIn (id : UUID) (src : CheckoutStatus)
  | deciding (d : DecidedCheckout)
  | rereading (id : UUID)
  | returned (reply : CheckoutReply)

/-- `set` is what `SetVaultCheckoutStatus` returned, once it has without an error. -/
structure CheckoutCall where
  request : CheckoutRequest
  pc : CheckoutPc
  set : Option Bool

/-- `ok = false` is an error of the database, which changes nothing; `access` is
whether the user may see the credential at all. -/
structure CheckoutInput where
  now : Instant
  newID : UUID
  (ok access : Bool)

def statusText : CheckoutStatus → String
  | .pending => "pending"
  | .active => "active"
  | .denied => "denied"
  | .checkedIn => "checked_in"
  | .expired => "expired"

def alreadyError (status : CheckoutStatus) : CheckoutPc :=
  .returned (.error 409 ("this check-out is already " ++ statusText status))

/-- The minutes that are granted: an hour by default, eight at most. -/
def grantedMinutes (minutes : ℤ) : ℤ :=
  if minutes ≤ 0 then 60 else if 480 < minutes then 480 else minutes

/-- `requestCheckout` up to the insert. A body that is not JSON counts as an empty
one, its error notwithstanding. -/
def requestCheckout (policy : UUID → Option AccessPolicy) (i : CheckoutInput) (userID : UUID)
    (id : Option UUID) (body : Option CheckoutReq) : CheckoutPc :=
  match id with
  | none => .returned (.error 400 "invalid id")
  | some id =>
    let rq := body.getD ⟨"", 0⟩
    if i.access = false then .returned (.error 403 "you do not have access to that credential")
    else
      match (if i.ok then policy id else none) with
      | none => .returned (.error 404 "credential not found")
      | some .openAccess => .returned (.error 400 "this credential does not require check-out")
      | some .checkout =>
        .creating ⟨id, userID, rq.reason, .active, grantedMinutes rq.minutes * minute⟩
      | some .approval =>
        .creating ⟨id, userID, rq.reason, .pending, grantedMinutes rq.minutes * minute⟩

def checkin (i : CheckoutInput) (t : VaultCheckouts) (userID : UUID) (coid : Option UUID) :
    CheckoutPc :=
  match coid with
  | none => .returned (.error 400 "invalid id")
  | some id =>
    match (if i.ok then getVaultCheckout id t else none) with
    | none => .returned (.error 404 "check-out not found")
    | some co =>
      if co.userId ≠ userID then .returned (.error 404 "check-out not found")
      else if co.status ≠ .active ∧ co.status ≠ .pending then alreadyError co.status
      else .checkingIn id co.status

def decideCheckout (i : CheckoutInput) (t : VaultCheckouts) (userID : UUID) (coid : Option UUID)
    (dst : CheckoutStatus) : CheckoutPc :=
  match coid with
  | none => .returned (.error 400 "invalid id")
  | some id =>
    match (if i.ok then getVaultCheckout id t else none) with
    | none => .returned (.error 404 "check-out not found")
    | some co =>
      if co.status ≠ .pending then alreadyError co.status
      else if co.userId = userID then
        .returned (.error 403 "you cannot approve your own check-out request")
      else .deciding ⟨id, userID, dst⟩

def checkoutAct (policy : UUID → Option AccessPolicy) (i : CheckoutInput) (t : VaultCheckouts)
    (call : CheckoutCall) : Option (VaultCheckouts × CheckoutCall) :=
  match call.pc with
  | .called =>
    match call.request with
    | .requestCheckout userID id body =>
      some (t, { call with pc := requestCheckout policy i userID id body })
    | .checkin userID coid => some (t, { call with pc := checkin i t userID coid })
    | .approveCheckout userID coid =>
      some (t, { call with pc := decideCheckout i t userID coid .active })
    | .denyCheckout userID coid =>
      some (t, { call with pc := decideCheckout i t userID coid .denied })
    | .expire =>
      if i.ok then
        let (n, t') := expireVaultCheckouts i.now t
        some (t', { call with pc := .returned (.expired n) })
      else some (t, { call with pc := .returned .failed })
  | .creating new =>
    match (if i.ok then createVaultCheckout i.now i.newID new.secretID new.userID new.reason
      new.status new.ttl t else none) with
    | none => some (t, { call with pc := .returned (.error 500 "could not create check-out") })
    | some (co, t') => some (t', { call with pc := .returned (.created co) })
  | .checkingIn id src =>
    if i.ok then
      let (okd, t') := setVaultCheckoutStatus i.now id src .checkedIn none t
      let reply := if okd then .checkedIn else .error 409 "could not check in"
      some (t', { call with pc := .returned reply, set := some okd })
    else some (t, { call with pc := .returned (.error 409 "could not check in") })
  | .deciding d =>
    if i.ok then
      let (okd, t') := setVaultCheckoutStatus i.now d.id .pending d.dst (some d.userID) t
      let next := if okd then .rereading d.id
          else .returned (.error 409 "could not decide check-out")
      some (t', { call with pc := next, set := some okd })
    else some (t, { call with pc := .returned (.error 409 "could not decide check-out") })
  | .rereading id =>
    some (t, { call with
      pc := .returned (.updated (if i.ok then getVaultCheckout id t else none)) })
  | .returned _ => none

abbrev CheckoutPool := Pool VaultCheckouts CheckoutCall
abbrev CheckoutMove := Move CheckoutRequest CheckoutInput

def checkoutStep (policy : UUID → Option AccessPolicy) :
    CheckoutPool → CheckoutMove → Option CheckoutPool :=
  poolStep (fun q => ⟨q, .called, none⟩) (checkoutAct policy)

def CheckoutCall.decides (call : CheckoutCall) : Option UUID :=
  match call.request with
  | .approveCheckout _ coid | .denyCheckout _ coid => coid
  | _ => none

def CheckoutCall.performed (call : CheckoutCall) (id : UUID) : Prop :=
  call.decides = some id ∧ call.set ≠ none

def CheckoutCall.effective (call : CheckoutCall) (id : UUID) : Prop :=
  call.decides = some id ∧ call.set = some true

instance (call : CheckoutCall) (id : UUID) : Decidable (call.performed id) :=
  inferInstanceAs (Decidable (_ ∧ _))

instance (call : CheckoutCall) (id : UUID) : Decidable (call.effective id) :=
  inferInstanceAs (Decidable (_ ∧ _))

/-! ## One statement -/

def needsApproval (policy : UUID → Option AccessPolicy) (secretID : UUID) : Bool :=
  decide (policy secretID = some .approval)

def checkoutLimit : Duration := 480 * minute

section

variable (policy : UUID → Option AccessPolicy)

abbrev Evolve (t t' : VaultCheckouts) : Prop :=
  CheckoutsEvolve (needsApproval policy) checkoutLimit t t'

/-- What the statement to come relies on. -/
def CheckoutPc.Fits (t : VaultCheckouts) : CheckoutPc → Prop
  | .creating new => new.ttl ≤ checkoutLimit ∧
      (new.status = .pending ∨ (new.status = .active ∧ needsApproval policy new.secretID = false))
  | .checkingIn _ src => src = .pending ∨ src = .active
  | .deciding d =>
    (d.dst = .active ∨ d.dst = .denied) ∧ ∃ c ∈ t.rows, c.id = d.id ∧ c.userId ≠ d.userID
  | _ => True

/-- The status has not been set, and the statement that sets it is that of the
request. -/
def CheckoutCall.waits (call : CheckoutCall) : Prop :=
  match call.pc with
  | .called | .creating _ => call.set = none
  | .checkingIn _ _ => call.set = none ∧ call.decides = none
  | .deciding d => call.set = none ∧ call.decides = some d.id
  | _ => True

structure CheckoutCall.Fits (t : VaultCheckouts) (call : CheckoutCall) : Prop where
  pc : call.pc.Fits policy t
  waits : call.waits

variable {policy} {i : CheckoutInput} {t t' : VaultCheckouts} {call call' : CheckoutCall}

theorem grantedMinutes_le (minutes : ℤ) : grantedMinutes minutes * minute ≤ checkoutLimit := by
  have hle : grantedMinutes minutes ≤ 480 := by
    unfold grantedMinutes
    split_ifs <;> omega
  exact Int.mul_le_mul_of_nonneg_right hle (by decide)

/-- A statement that decides nothing. -/
structure Quiet (policy : UUID → Option AccessPolicy) (t t' : VaultCheckouts)
    (call call' : CheckoutCall) : Prop where
  evolve : Evolve policy t t'
  undecided : ∀ c' ∈ t'.rows, c'.decidedBy ≠ none → ∃ c ∈ t.rows, c.id = c'.id ∧ c.decidedBy ≠ none
  request : call'.request = call.request
  set : call'.set = call.set ∨ call.decides = none
  fits : call'.Fits policy t'

inductive CheckoutEffect (policy : UUID → Option AccessPolicy) (i : CheckoutInput)
    (t : VaultCheckouts) (call : CheckoutCall) : VaultCheckouts → CheckoutCall → Prop where
  | quiet {t' : VaultCheckouts} {call' : CheckoutCall} (h : Quiet policy t t' call call') :
      CheckoutEffect policy i t call t' call'
  | decides (d : DecidedCheckout) (pc' : CheckoutPc) (hpc : call.pc = .deciding d)
      (hpc' : pc' = .rereading d.id ∨ ∃ reply, pc' = .returned reply) :
      CheckoutEffect policy i t call
        (setVaultCheckoutStatus i.now d.id .pending d.dst (some d.userID) t).2
        ⟨call.request, pc',
        some (setVaultCheckoutStatus i.now d.id .pending d.dst (some d.userID) t).1⟩

theorem quiet_of_pc {pc' : CheckoutPc}
    (hfits : CheckoutCall.Fits policy t ⟨call.request, pc', call.set⟩) :
    Quiet policy t t call ⟨call.request, pc', call.set⟩ :=
  ⟨.refl t, fun c' hc' hne => ⟨c', hc', rfl, hne⟩, rfl, .inl rfl, hfits⟩

theorem quiet_of_returned (reply : CheckoutReply) :
    Quiet policy t t call ⟨call.request, .returned reply, call.set⟩ :=
  quiet_of_pc ⟨trivial, trivial⟩

theorem quiet_requestCheckout (hset : call.set = none) (userID : UUID) (id : Option UUID)
    (body : Option CheckoutReq) :
    Quiet policy t t call ⟨call.request, requestCheckout policy i userID id body, call.set⟩ := by
  fun_cases requestCheckout policy i userID id body with
  | case5 id _ _ hpolicy =>
    have hno : needsApproval policy id = false := by
      rw [Option.ite_none_right_eq_some] at hpolicy
      rw [needsApproval, hpolicy.2]
      rfl
    exact quiet_of_pc ⟨⟨grantedMinutes_le _, .inr ⟨rfl, hno⟩⟩, hset⟩
  | case6 => exact quiet_of_pc ⟨⟨grantedMinutes_le _, .inl rfl⟩, hset⟩
  | _ => exact quiet_of_returned _

theorem quiet_checkin (hset : call.set = none) (hdecides : call.decides = none) (userID : UUID)
    (coid : Option UUID) :
    Quiet policy t t call ⟨call.request, checkin i t userID coid, call.set⟩ := by
  fun_cases checkin i t userID coid with
  | case5 id co hread huser hstatus =>
    have hsrc : co.status = .pending ∨ co.status = .active := by tauto
    exact quiet_of_pc ⟨hsrc, hset, hdecides⟩
  | _ => exact quiet_of_returned _

/-- A decision comes to its compare-and-set for the request it was called for. -/
theorem quiet_decideCheckout (hset : call.set = none) (userID : UUID) {coid : Option UUID}
    (hdecides : call.decides = coid) {dst : CheckoutStatus} (hdst : dst = .active ∨ dst = .denied) :
    Quiet policy t t call ⟨call.request, decideCheckout i t userID coid dst, call.set⟩ := by
  fun_cases decideCheckout i t userID coid dst with
  | case5 id co hread hstatus hown =>
    rw [Option.ite_none_right_eq_some] at hread
    obtain ⟨hmem, hid⟩ := Table.lookup_eq_some.mp hread.2
    exact quiet_of_pc ⟨⟨hdst, co, hmem, hid, hown⟩, hset, hdecides⟩
  | _ => exact quiet_of_returned _

theorem CheckoutCall.Fits.deciding {d : DecidedCheckout} (hfits : call.Fits policy t)
    (hpc : call.pc = .deciding d) :
    ((d.dst = .active ∨ d.dst = .denied) ∧ ∃ c ∈ t.rows, c.id = d.id ∧ c.userId ≠ d.userID) ∧
      call.set = none ∧ call.decides = some d.id := by
  obtain ⟨hpcfits, hwaits⟩ := hfits
  rw [hpc] at hpcfits
  rw [CheckoutCall.waits, hpc] at hwaits
  exact ⟨hpcfits, hwaits⟩

theorem checkoutAct_effect (hfits : call.Fits policy t)
    (h : checkoutAct policy i t call = some (t', call')) :
    CheckoutEffect policy i t call t' call' := by
  have hset (hpc : call.pc = .called) : call.set = none := by
    have hwaits := hfits.waits
    rwa [CheckoutCall.waits, hpc] at hwaits
  revert h
  fun_cases checkoutAct policy i t call with
  | case1 hpc userID id body =>
    rintro ⟨⟩
    exact .quiet (quiet_requestCheckout (hset hpc) userID id body)
  | case2 hpc userID coid hrequest =>
    rintro ⟨⟩
    exact .quiet (quiet_checkin (hset hpc) (by rw [CheckoutCall.decides, hrequest]) userID coid)
  | case3 hpc userID coid hrequest =>
    rintro ⟨⟩
    exact .quiet (quiet_decideCheckout (hset hpc) userID (by rw [CheckoutCall.decides, hrequest])
      (.inl rfl))
  | case4 hpc userID coid hrequest =>
    rintro ⟨⟩
    exact .quiet (quiet_decideCheckout (hset hpc) userID (by rw [CheckoutCall.decides, hrequest])
      (.inr rfl))
  | case5 hpc hrequest hok n t₁ hexpired =>
    rintro ⟨⟩
    obtain rfl : t' = (expireVaultCheckouts i.now t).2 := by rw [hexpired]
    refine .quiet ⟨evolve_expireVaultCheckouts i.now t, ?_, rfl, .inl rfl, ⟨trivial, trivial⟩⟩
    intro c' hc' hne
    rw [expireVaultCheckouts_snd] at hc'
    rcases Table.mem_update_cases hc' with ⟨hold, -⟩ | ⟨c, hold, -, rfl⟩
    · exact ⟨c', hold, rfl, hne⟩
    · exact ⟨c, hold, rfl, hne⟩
  | case8 new hpc co t₁ hcreate =>
    rintro ⟨⟩
    obtain ⟨httl, hstatus⟩ : new.ttl ≤ checkoutLimit ∧ (new.status = .pending ∨ _) := by
      have := hfits.pc
      rwa [hpc] at this
    rw [Option.ite_none_right_eq_some] at hcreate
    refine .quiet ⟨evolve_createVaultCheckout httl hstatus hcreate.2, ?_, rfl, .inl rfl,
      ⟨trivial, trivial⟩⟩
    intro c' hc' hne
    obtain ⟨t₂, hins, ⟨⟩⟩ := Option.map_eq_some_iff.mp hcreate.2
    rcases (Table.mem_insert hins).mp hc' with hold | rfl
    · exact ⟨c', hold, rfl, hne⟩
    · exact absurd rfl hne
  | case9 id src hpc hok okd t₁ hwritten =>
    rintro ⟨⟩
    have hsrc : src = .pending ∨ src = .active := by
      have := hfits.pc
      rwa [hpc] at this
    have hdecides : call.decides = none := by
      have := hfits.waits
      rw [CheckoutCall.waits, hpc] at this
      exact this.2
    obtain rfl : t' = (setVaultCheckoutStatus i.now id src .checkedIn none t).2 := by rw [hwritten]
    refine .quiet ⟨evolve_setVaultCheckoutStatus fun c _ _ hc => setStatus_checkedIn
      (hc ▸ hsrc), ?_, rfl, .inr hdecides, ⟨trivial, trivial⟩⟩
    intro c' hc' hne
    rcases mem_setVaultCheckoutStatus hc' with ⟨hold, -⟩ | ⟨c, hold, -, -, rfl⟩
    · exact ⟨c', hold, rfl, hne⟩
    · exact ⟨c, hold, rfl, hne⟩
  | case11 d hpc hok okd t₁ hwritten =>
    rintro ⟨⟩
    obtain ⟨rfl, rfl⟩ := Prod.mk.inj hwritten
    exact .decides d _ hpc ((ite_eq_or_eq _ _ _).imp_right fun hreply => ⟨_, hreply⟩)
  | case14 => rintro ⟨⟩
  | _ =>
    rintro ⟨⟩
    exact .quiet (quiet_of_returned _)

/-- The row that a decision is about, and whether the decision finds it pending. -/
theorem decision_found {d : DecidedCheckout} (hfits : call.Fits policy t)
    (hpc : call.pc = .deciding d) : ∃ c ∈ t.rows, c.id = d.id ∧ c.userId ≠ d.userID ∧
      ((setVaultCheckoutStatus i.now d.id .pending d.dst (some d.userID) t).1 ↔
        c.status = .pending) := by
  obtain ⟨⟨-, c, hc, hid, hother⟩, -⟩ := hfits.deciding hpc
  refine ⟨c, hc, hid, hother, ?_⟩
  rw [setVaultCheckoutStatus_fst]
  constructor
  · rintro ⟨q, hq, hqid, hqstatus⟩
    rwa [Table.eq_of_key hc hq (hid.trans hqid.symm)]
  · intro hpending
    exact ⟨c, hc, hid, hpending⟩

theorem CheckoutEffect.evolve (hfits : call.Fits policy t)
    (h : CheckoutEffect policy i t call t' call') : Evolve policy t t' := by
  cases h with
  | quiet h => exact h.evolve
  | decides d pc' hpc _ =>
    obtain ⟨⟨hdst, c, hc, hid, hother⟩, -⟩ := hfits.deciding hpc
    refine evolve_setVaultCheckoutStatus fun q hq hqid hqstatus => ?_
    rw [Table.eq_of_key hq hc (hqid.trans hid.symm)] at hqstatus ⊢
    exact setStatus_decided hqstatus hdst hother

theorem CheckoutEffect.fits (h : CheckoutEffect policy i t call t' call') :
    call'.Fits policy t' := by
  cases h with
  | quiet h => exact h.fits
  | decides d pc' _ hpc' =>
    rcases hpc' with rfl | ⟨reply, rfl⟩
    all_goals exact ⟨trivial, trivial⟩

theorem CheckoutCall.Fits.evolve (hev : Evolve policy t t') (h : call.Fits policy t) :
    call.Fits policy t' := by
  refine ⟨?_, h.waits⟩
  have hpcfits := h.pc
  cases hpc : call.pc with
  | deciding d =>
    rw [hpc] at hpcfits
    obtain ⟨hdst, c, hc, hid, hother⟩ := hpcfits
    obtain ⟨c', hc', hsame, -⟩ := hev.kept c hc
    exact ⟨hdst, c', hc', hsame.id.symm.trans hid, hsame.user ▸ hother⟩
  | creating new | checkingIn id src =>
    rw [hpc] at hpcfits
    exact hpcfits
  | called | rereading id | returned reply => trivial

theorem Quiet.decides_eq (h : Quiet policy t t' call call') : call'.decides = call.decides := by
  unfold CheckoutCall.decides
  rw [h.request]

theorem Quiet.performed (h : Quiet policy t t' call call') {id : UUID} (hp : call'.performed id) :
    call.performed id := by
  obtain ⟨hid, hset⟩ := hp
  rw [h.decides_eq] at hid
  rcases h.set with heq | hnone
  · exact ⟨hid, heq ▸ hset⟩
  · cases hnone.symm.trans hid

theorem Quiet.effective_iff (h : Quiet policy t t' call call') {id : UUID} :
    call'.effective id ↔ call.effective id := by
  unfold CheckoutCall.effective
  rw [h.decides_eq]
  refine and_congr_right fun hid => ?_
  rcases h.set with heq | hnone
  · rw [heq]
  · cases hnone.symm.trans hid

end

/-! ## Runs -/

structure CheckoutInv (policy : UUID → Option AccessPolicy) (s : CheckoutPool) : Prop where
  sound : CheckoutsSound (needsApproval policy) checkoutLimit s.store
  fits : ∀ call ∈ s.calls, call.Fits policy s.store
  performed : ∀ call ∈ s.calls, ∀ id, call.performed id → ∃ c ∈ s.store.rows, c.id = id ∧
    c.status ≠ .pending
  effective : ∀ call ∈ s.calls, ∀ id, call.effective id →
    ∃ c ∈ s.store.rows, c.id = id ∧ c.status ≠ .pending ∧ c.decidedBy ≠ none
  decided : ∀ c ∈ s.store.rows, c.decidedBy ≠ none → ∃ k call, s.call k = some call ∧
    call.effective c.id
  once : ∀ {j k p q}, j ≠ k → s.call j = some p → s.call k = some q → ∀ id, p.effective id →
    ¬ q.effective id

section

variable {policy : UUID → Option AccessPolicy} {s s' : CheckoutPool} {m : CheckoutMove}
  {ms : List CheckoutMove}

variable {call : CheckoutCall} {id : UUID}

theorem CheckoutCall.effective.performed (h : call.effective id) : call.performed id := by
  refine ⟨h.1, ?_⟩
  rw [h.2]
  exact nofun

theorem not_effective_of_set (h : call.set = none) (id : UUID) : ¬ call.effective id := by
  rintro ⟨-, heff⟩
  rw [h] at heff
  cases heff

theorem evolve_step (hi : CheckoutInv policy s) (h : checkoutStep policy s m = some s') :
    Evolve policy s.store s'.store := by
  rcases poolStep_cases h with ⟨q, rfl, rfl⟩ | ⟨k, i, call, t', call', rfl, hk, hact, rfl⟩
  · exact .refl s.store
  · have hfits := hi.fits call (Pool.mem_of_call hk)
    exact (checkoutAct_effect hfits hact).evolve hfits

variable {t t' : VaultCheckouts}

/-- A performed decision finds the request left, now and later. -/
theorem performed_evolve (hev : Evolve policy t t')
    (h : ∃ c ∈ t.rows, c.id = id ∧ c.status ≠ .pending) :
    ∃ c ∈ t'.rows, c.id = id ∧ c.status ≠ .pending := by
  obtain ⟨c, hc, hid, hleft⟩ := h
  obtain ⟨c', hc', hsame, hmoves⟩ := hev.kept c hc
  exact ⟨c', hc', hsame.id.symm.trans hid, hmoves.not_pending hleft⟩

theorem effective_evolve (hev : Evolve policy t t')
    (h : ∃ c ∈ t.rows, c.id = id ∧ c.status ≠ .pending ∧ c.decidedBy ≠ none) :
    ∃ c ∈ t'.rows, c.id = id ∧ c.status ≠ .pending ∧ c.decidedBy ≠ none := by
  obtain ⟨c, hc, hid, hleft, hdecided⟩ := h
  obtain ⟨c', hc', hsame, hmoves⟩ := hev.kept c hc
  refine ⟨c', hc', hsame.id.symm.trans hid, hmoves.not_pending hleft, ?_⟩
  rwa [hmoves.decidedBy_eq hleft]

theorem checkoutInv_enter (hi : CheckoutInv policy s) (q : CheckoutRequest) :
    CheckoutInv policy (s.enter ⟨q, .called, none⟩) := by
  have hnew : ∀ id, ¬ CheckoutCall.effective ⟨q, .called, none⟩ id := not_effective_of_set rfl
  constructor
  · exact hi.sound
  · exact Pool.forall_enter hi.fits ⟨trivial, rfl⟩
  · exact Pool.forall_enter hi.performed fun id hp => absurd rfl hp.2
  · exact Pool.forall_enter hi.effective fun id heff => absurd heff (hnew id)
  · intro c hc hne
    obtain ⟨k, call, hk, heff⟩ := hi.decided c hc hne
    exact ⟨k, call, Pool.call_enter_of_call hk _, heff⟩
  · refine Pool.pair_enter ?_ hi.once ?_
    · exact fun h id hq hp => h id hp hq
    · intro q _ id heff
      exact absurd heff (hnew id)

theorem checkoutInv_quiet (hi : CheckoutInv policy s) {k : ℕ} {call' : CheckoutCall}
    (hk : s.call k = some call) (h : Quiet policy s.store t' call call') :
    CheckoutInv policy (s.put k t' call') := by
  constructor
  · exact h.evolve.sound hi.sound
  · exact Pool.forall_put (fun p hp => (hi.fits p hp).evolve h.evolve) h.fits
  · have hold : ∀ p ∈ s.calls, ∀ id, p.performed id → ∃ c ∈ t'.rows, c.id = id ∧
        c.status ≠ .pending :=
      fun p hp id hperf => performed_evolve h.evolve (hi.performed p hp id hperf)
    exact Pool.forall_put hold fun id hp => hold call (Pool.mem_of_call hk) id (h.performed hp)
  · have hold : ∀ p ∈ s.calls, ∀ id, p.effective id →
        ∃ c ∈ t'.rows, c.id = id ∧ c.status ≠ .pending ∧ c.decidedBy ≠ none :=
      fun p hp id heff => effective_evolve h.evolve (hi.effective p hp id heff)
    exact Pool.forall_put hold fun id heff => hold call (Pool.mem_of_call hk) id
      (h.effective_iff.mp heff)
  · intro c' hc' hne
    obtain ⟨c, hc, hid, hne⟩ := h.undecided c' hc' hne
    obtain ⟨j, p, hj, heff⟩ := hi.decided c hc hne
    rw [hid] at heff
    by_cases hjk : j = k
    · subst hjk
      rw [hk] at hj
      cases hj
      exact ⟨j, call', Pool.call_put_self hk _ _, h.effective_iff.mpr heff⟩
    · exact ⟨j, p, (Pool.call_put_of_ne s hjk _ _).trans hj, heff⟩
  · refine Pool.pair_put ?_ hi.once ?_
    · exact fun h id hq hp => h id hp hq
    · intro j q hne hq id heff
      exact hi.once (Ne.symm hne) hk hq id (h.effective_iff.mp heff)

/-- The compare-and-set of a decision. If the request is pending no decision has
taken effect yet, and this one does; otherwise nothing changes. -/
theorem checkoutInv_decides (hi : CheckoutInv policy s) {k : ℕ} {i : CheckoutInput}
    (hk : s.call k = some call) {d : DecidedCheckout} {pc' : CheckoutPc}
    (hpc : call.pc = .deciding d) (hpc' : pc' = .rereading d.id ∨ ∃ reply, pc' = .returned reply) :
    CheckoutInv policy (s.put k
      (setVaultCheckoutStatus i.now d.id .pending d.dst (some d.userID) s.store).2
      ⟨call.request, pc',
        some (setVaultCheckoutStatus i.now d.id .pending d.dst (some d.userID) s.store).1⟩) := by
  have hmem := Pool.mem_of_call hk
  have hfits := hi.fits call hmem
  have heffect : CheckoutEffect policy i s.store call _ _ := .decides d pc' hpc hpc'
  have hev := heffect.evolve hfits
  obtain ⟨⟨hdst, -⟩, hset, hdecides⟩ := hfits.deciding hpc
  obtain ⟨c, hc, hid, hother, hfound⟩ := decision_found (i := i) hfits hpc
  generalize hokd : (setVaultCheckoutStatus i.now d.id .pending d.dst
    (some d.userID) s.store).1 = okd at hfound heffect ⊢
  have hdecides' : CheckoutCall.decides ⟨call.request, pc', some okd⟩ = some d.id := hdecides
  have hleft : d.dst ≠ .pending := by
    rcases hdst with hdst | hdst <;> rw [hdst] <;> exact nofun
  constructor
  · exact hev.sound hi.sound
  · exact Pool.forall_put (fun p hp => (hi.fits p hp).evolve hev) heffect.fits
  · refine Pool.forall_put
      (fun p hp id hperf => performed_evolve hev (hi.performed p hp id hperf)) ?_
    rintro id ⟨hid', -⟩
    rw [hdecides'] at hid'
    cases hid'
    by_cases hpending : c.status = .pending
    · exact ⟨_, mem_setVaultCheckoutStatus_of_found hc hid hpending, hid, hleft⟩
    · exact performed_evolve hev ⟨c, hc, hid, hpending⟩
  · refine Pool.forall_put (fun p hp id heff => effective_evolve hev (hi.effective p hp id heff)) ?_
    rintro id ⟨hid', hset⟩
    rw [hdecides'] at hid'
    cases hid'
    have hpending := hfound.mp (Option.some.inj hset)
    refine ⟨_, mem_setVaultCheckoutStatus_of_found hc hid hpending, hid, hleft, ?_⟩
    rw [decidedBy_setStatus c d.userID hdst]
    exact nofun
  · intro c' hc' hne
    rcases mem_setVaultCheckoutStatus hc' with ⟨hold, -⟩ | ⟨q, hq, hqid, hqstatus, rfl⟩
    · obtain ⟨j, p, hj, heff⟩ := hi.decided c' hold hne
      have hjk : j ≠ k := by
        rintro rfl
        rw [hk] at hj
        cases hj
        exact not_effective_of_set hset _ heff
      exact ⟨j, p, (Pool.call_put_of_ne s hjk _ _).trans hj, heff⟩
    · have hpending : c.status = .pending := by
        rwa [Table.eq_of_key hc hq (hid.trans hqid.symm)]
      refine ⟨k, _, Pool.call_put_self hk _ _, ?_, ?_⟩
      · rw [hdecides']
        exact congrArg some hqid.symm
      · exact congrArg some (hfound.mpr hpending)
  · refine Pool.pair_put ?_ hi.once ?_
    · exact fun h id hq hp => h id hp hq
    · rintro j q - hq id ⟨hid', hset⟩ heff
      rw [hdecides'] at hid'
      cases hid'
      have hpending := hfound.mp (Option.some.inj hset)
      obtain ⟨c₀, hc₀, hid₀, hleft⟩ := hi.performed q (Pool.mem_of_call hq) d.id heff.performed
      rw [Table.eq_of_key hc₀ hc (hid₀.trans hid.symm)] at hleft
      exact hleft hpending

theorem checkoutInv_step (hi : CheckoutInv policy s) (h : checkoutStep policy s m = some s') :
    CheckoutInv policy s' := by
  rcases poolStep_cases h with ⟨q, rfl, rfl⟩ | ⟨k, i, call, t', call', rfl, hk, hact, rfl⟩
  · exact checkoutInv_enter hi q
  · cases checkoutAct_effect (hi.fits call (Pool.mem_of_call hk)) hact with
    | quiet h => exact checkoutInv_quiet hi hk h
    | decides d pc' hpc hpc' => exact checkoutInv_decides hi hk hpc hpc'

def noCheckouts : CheckoutPool := ⟨.empty, []⟩

theorem checkoutInv_noCheckouts : CheckoutInv policy noCheckouts where
  sound := by constructor <;> exact fun _ h => absurd h Table.not_mem_empty
  fits _ h := absurd h List.not_mem_nil
  performed _ h := absurd h List.not_mem_nil
  effective _ h := absurd h List.not_mem_nil
  decided _ h := absurd h Table.not_mem_empty
  once _ hp := absurd (Pool.mem_of_call hp) List.not_mem_nil

theorem checkoutInv_run (h : exec (checkoutStep policy) noCheckouts ms = some s) :
    CheckoutInv policy s :=
  exec_invariant_of_step checkoutInv_step h checkoutInv_noCheckouts

theorem final_status_run (hi : CheckoutInv policy s) (h : exec (checkoutStep policy) s ms = some s')
    {c : VaultCheckout} (hc : c ∈ s.store.rows) (hfinal : c.status.final) :
    ∃ c' ∈ s'.store.rows, c'.id = c.id ∧ c'.status = c.status := by
  induction ms generalizing s c with
  | nil =>
    cases h
    exact ⟨c, hc, rfl, rfl⟩
  | cons m ms ih =>
    obtain ⟨s₁, hstep, hrest⟩ := exec_cons_eq_some.mp h
    obtain ⟨c₁, hc₁, hsame, hmoves⟩ := (evolve_step hi hstep).kept c hc
    have hstatus := hmoves.status_of_final hfinal
    obtain ⟨c', hc', hid, hlast⟩ := ih (checkoutInv_step hi hstep) hrest hc₁ (hstatus ▸ hfinal)
    exact ⟨c', hc', hid.trans hsame.id.symm, hlast.trans hstatus⟩

end

/-! ## The state machine -/

def EffectiveAt (s : CheckoutPool) (k : ℕ) (id : UUID) : Prop :=
  ∃ call ∈ s.call k, call.effective id

def PerformedAt (s : CheckoutPool) (k : ℕ) (id : UUID) : Prop :=
  ∃ call ∈ s.call k, call.performed id

/-- The promises of check-outs that have to be approved, in a state and from there
on. -/
structure CheckedOut (policy : UUID → Option AccessPolicy) (s : CheckoutPool) : Prop where
  approved : ∀ now secretID userID, policy secretID = some .approval →
    hasActiveCheckout now secretID userID s.store →
      ∃ c ∈ s.store.rows, c.secretId = secretID ∧ c.userId = userID ∧ c.status = .active ∧
        (∃ u, c.decidedBy = some u ∧ u ≠ userID) ∧ now < c.expiresAt ∧
        c.expiresAt ≤ c.requestedAt + 480 * minute
  final : ∀ ms s', exec (checkoutStep policy) s ms = some s' → ∀ c ∈ s.store.rows,
    c.status = .denied ∨ c.status = .checkedIn ∨ c.status = .expired →
      ∃ c' ∈ s'.store.rows, c'.id = c.id ∧ c'.status = c.status
  atMostOnce : ∀ j k id, EffectiveAt s j id → EffectiveAt s k id → j = k
  once : ∀ c ∈ s.store.rows, policy c.secretId = some .approval → (∃ k, PerformedAt s k c.id) →
    (∃! k, EffectiveAt s k c.id) ∨
      (c.decidedBy = none ∧ (c.status = .checkedIn ∨ c.status = .expired) ∧ ∀ k,
      ¬ EffectiveAt s k c.id)

section

variable {policy : UUID → Option AccessPolicy} {s : CheckoutPool} {ms : List CheckoutMove}

theorem approved_of_inv (hi : CheckoutInv policy s) {now : Instant} {secretID userID : UUID}
    (hpolicy : policy secretID = some .approval)
    (h : hasActiveCheckout now secretID userID s.store) :
    ∃ c ∈ s.store.rows, c.secretId = secretID ∧ c.userId = userID ∧ c.status = .active ∧
      (∃ u, c.decidedBy = some u ∧ u ≠ userID) ∧ now < c.expiresAt ∧
      c.expiresAt ≤ c.requestedAt + 480 * minute := by
  obtain ⟨c, hc, rfl, rfl, hactive, hlive⟩ := hasActiveCheckout_iff.mp h
  have hdecided := hi.sound.approved c hc (decide_eq_true hpolicy) (.inl hactive)
  obtain ⟨u, hu⟩ := Option.ne_none_iff_exists'.mp hdecided
  refine ⟨c, hc, rfl, rfl, hactive, ⟨u, hu, ?_⟩, hlive, hi.sound.bounded c hc⟩
  rintro rfl
  exact hi.sound.separate c hc hu

theorem effective_unique (hi : CheckoutInv policy s) {j k : ℕ} {id : UUID} (hj : EffectiveAt s j id)
    (hk : EffectiveAt s k id) : j = k := by
  obtain ⟨p, hp, hpeff⟩ := hj
  obtain ⟨q, hq, hqeff⟩ := hk
  by_contra hne
  exact hi.once hne hp hq id hpeff hqeff

theorem decided_or_ended (hi : CheckoutInv policy s) {c : VaultCheckout} (hc : c ∈ s.store.rows)
    (hpolicy : policy c.secretId = some .approval) {k : ℕ} (hk : PerformedAt s k c.id) :
    c.decidedBy ≠ none ∨ (c.decidedBy = none ∧ (c.status = .checkedIn ∨ c.status = .expired)) := by
  obtain ⟨call, hcall, hperf⟩ := hk
  obtain ⟨c₀, hc₀, hid, hleft⟩ := hi.performed call (Pool.mem_of_call hcall) c.id hperf
  rw [Table.eq_of_key hc₀ hc hid] at hleft
  by_cases hdecided : c.decidedBy = none
  · refine .inr ⟨hdecided, ?_⟩
    have hnot := fun h => hi.sound.approved c hc (decide_eq_true hpolicy) h hdecided
    cases hstatus : c.status with
    | pending => exact absurd hstatus hleft
    | active => exact absurd (.inl hstatus) hnot
    | denied => exact absurd (.inr hstatus) hnot
    | checkedIn => exact .inl rfl
    | expired => exact .inr rfl
  · exact .inl hdecided

/-- Whatever requests, decisions, check-ins and sweeps interleave, check-outs that
have to be approved keep their promises. -/
theorem checkouts_stay_checked (h : exec (checkoutStep policy) noCheckouts ms = some s) :
    CheckedOut policy s := by
  have hi := checkoutInv_run h
  constructor
  · intro now secretID userID hpolicy hactive
    exact approved_of_inv hi hpolicy hactive
  · intro ms' s' hrun c hc hstatus
    refine final_status_run hi hrun hc ?_
    rcases hstatus with hstatus | hstatus | hstatus <;> rw [hstatus] <;> rfl
  · intro j k id hj hk
    exact effective_unique hi hj hk
  · rintro c hc hpolicy ⟨k, hk⟩
    rcases decided_or_ended hi hc hpolicy hk with hdecided | ⟨hnone, hended⟩
    · left
      obtain ⟨j, call, hj, heff⟩ := hi.decided c hc hdecided
      exact ⟨j, ⟨call, hj, heff⟩, fun l hl => effective_unique hi hl ⟨call, hj, heff⟩⟩
    · right
      refine ⟨hnone, hended, ?_⟩
      rintro l ⟨call, hl, heff⟩
      obtain ⟨c₀, hc₀, hid, -, hdecided⟩ := hi.effective call (Pool.mem_of_call hl) c.id heff
      rw [Table.eq_of_key hc₀ hc hid] at hdecided
      exact hdecided hnone

end

def everyApproval : UUID → Option AccessPolicy := fun _ => some .approval

def checkoutMove (c : ℕ) (now : Instant) (newID : ℕ) : CheckoutMove :=
  .advance c ⟨now, .ofNat newID, true, true⟩

def bothRead : List CheckoutMove :=
  [.begin (.requestCheckout (.ofNat 1) (some (.ofNat 9)) (some ⟨"deploy", 30⟩)),
    checkoutMove 0 0 10, checkoutMove 0 0 10,
    .begin (.approveCheckout (.ofNat 2) (some (.ofNat 10))),
    .begin (.denyCheckout (.ofNat 3) (some (.ofNat 10))), checkoutMove 1 1 0, checkoutMove 2 1 0]

/-- The second decision finds the first. -/
theorem checkouts_stay_checked_bothDecide :
    ∃ s, exec (checkoutStep everyApproval) noCheckouts
      (bothRead ++ [checkoutMove 1 2 0, checkoutMove 2 2 0]) =
        some s ∧
        s.store.rows.map (fun c => (c.status, c.decidedBy)) = [(.active, some (.ofNat 2))] ∧
      s.calls.map CheckoutCall.set = [none, some true, some false] ∧
      hasActiveCheckout 3 (.ofNat 9) (.ofNat 1) s.store ∧ CheckedOut everyApproval s := by
  refine exists_of_view (fun s => (s.store.rows.map fun c => (c.status, c.decidedBy),
    s.calls.map CheckoutCall.set, hasActiveCheckout 3 (.ofNat 9) (.ofNat 1) s.store))
    ([(.active, some (.ofNat 2))], [none, some true, some false], true) (by decide +kernel)
    fun s hs hview => ?_
  obtain ⟨hrows, hrest⟩ := Prod.mk.inj hview
  obtain ⟨hsets, hactive⟩ := Prod.mk.inj hrest
  exact ⟨hrows, hsets, hactive, checkouts_stay_checked hs⟩

/-- User 1 checks the request in after both have read it: neither decision takes
effect. -/
theorem checkedIn_before_both_decide : ∃ s, exec (checkoutStep everyApproval) noCheckouts
        (bothRead ++ [.begin (.checkin (.ofNat 1) (some (.ofNat 10))), checkoutMove 3 2 0,
          checkoutMove 3 2 0, checkoutMove 1 3 0, checkoutMove 2 3 0]) = some s ∧
      PerformedAt s 1 (.ofNat 10) ∧ PerformedAt s 2 (.ofNat 10) ∧
      ∀ k, ¬ EffectiveAt s k (.ofNat 10) := by
  refine exists_of_view (fun s => decide ((∃ call ∈ s.call 1, call.performed (.ofNat 10)) ∧
    (∃ call ∈ s.call 2, call.performed (.ofNat 10)) ∧
    ∀ call ∈ s.calls, ¬ call.effective (.ofNat 10))) true (by decide +kernel) fun s _ hview => ?_
  obtain ⟨happroves, hdenies, hnone⟩ := of_decide_eq_true hview
  refine ⟨happroves, hdenies, ?_⟩
  rintro k ⟨call, hk, heff⟩
  exact hnone call (Pool.mem_of_call hk) heff

end Moorgate.Vault
