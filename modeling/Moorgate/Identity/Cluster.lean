import Moorgate.Framework.Base.Calls
import Moorgate.Identity.Renewal

/-!
# Renewal in a cluster: `RenewExpiring` with several vaults over one table

Every instance keeps the keys it has issued in a vault of its own; the rows of all instances are in
one table. `RenewExpiring` goes by the session: where the vault of this instance has the session, a
row of another instance is replaced by a new credential in this vault, and its serial is revoked,
though the other instance still presents it. A row says which instance has issued it, and only that
instance can hold its key (`Issued`), so renewals that take up rows of their own instance only
leave the others alone (`renewals_spare_others`).
-/

namespace Moorgate.Identity

open Framework Models Store

/-! ## Calls -/

/-- The vaults of the instances, and the tables they share. -/
structure ClusterIdentity where
  vaults : UUID → Vault
  db : CertDb

/-- What follows when the credential is in the vault: `RenewExpiring` revokes the row it
has renewed and goes on with the others. -/
inductive AfterIssue where
  | answer
  | revoke (old : Cert) (rest : List Cert)
deriving DecidableEq

inductive IssuerPc where
  | ensuring (sessionID userID : UUID) (hostID : HostID) (username hostname : String)
      (principals : List String)
  | numbering (req : IssueRequest) (next : AfterIssue)
  | signing (req : IssueRequest) (serial : ℕ) (next : AfterIssue)
  | storing (cred : Credential) (next : AfterIssue)
  | scanning
  | renewing (rows : List Cert)
  | revoking (old : Cert) (rest : List Cert)
  | destroying (sessionID : UUID)
  | revokingSession (sessionID : UUID)
  | returned
deriving DecidableEq

structure IssuerCall where
  instanceID : UUID
  pc : IssuerPc
deriving DecidableEq

inductive IssuerRequest where
  | issue (sessionID userID : UUID) (username : String) (principals : List String)
  | issueForHost (sessionID userID : UUID) (hostID : HostID) (username hostname : String)
      (principals : List String)
  | ensureHost (sessionID userID : UUID) (hostID : HostID) (username hostname : String)
      (principals : List String)
  | destroySession (sessionID : UUID)
  | renewExpiring

def IssuerRequest.start : IssuerRequest → IssuerPc
  | .issue sessionID userID username principals =>
    .numbering (sessionRequest sessionID userID username principals) .answer
  | .issueForHost sessionID userID hostID username hostname principals =>
    .numbering (hostRequest sessionID userID hostID username hostname principals) .answer
  | .ensureHost sessionID userID hostID username hostname principals =>
    .ensuring sessionID userID hostID username hostname principals
  | .destroySession sessionID => .destroying sessionID
  | .renewExpiring => .scanning

def issuerStart (rq : UUID × IssuerRequest) : IssuerCall := ⟨rq.1, rq.2.start⟩

/-- What a statement takes from outside: whether it succeeds, the time, the name that
`GetUserByID` finds, and the expiring rows in the order in which they are returned. -/
structure IssuerInput where
  ok : Bool
  now : Instant
  username : String
  rows : List Cert

structure ClusterConfig where
  (userCertTTL certRenewBefore : Duration)

def ClusterConfig.on (cfg : ClusterConfig) (instanceID : UUID) : IssuerConfig :=
  ⟨cfg.userCertTTL, cfg.certRenewBefore, some instanceID⟩

def AfterIssue.failed : AfterIssue → IssuerPc
  | .answer => .returned
  | .revoke _ rest => .renewing rest

def AfterIssue.stored : AfterIssue → IssuerPc
  | .answer => .returned
  | .revoke old rest => .revoking old rest

section

variable (cfg : ClusterConfig) (i : IssuerInput) (s : ClusterIdentity) (own : UUID)

/-- One round of the loop of `RenewExpiring`, up to `issue`. -/
def pickRow (c : Cert) (rest : List Cert) : IssuerPc :=
  match c.sessionId, c.userId with
  | some sid, some uid =>
    if ((s.vaults own).get sid).isSome then
      .numbering (sessionRequest sid uid i.username c.principals) (.revoke c rest)
    else .renewing rest
  | _, _ => .renewing rest

def issuerPcAct : IssuerPc → Option (ClusterIdentity × IssuerPc)
  | .ensuring sessionID userID hostID username hostname principals =>
    let fresh := ((s.vaults own).getHost sessionID hostID).any fun c =>
      decide (c.expiresAt - i.now > cfg.certRenewBefore)
    some (s, if fresh then .returned
      else .numbering (hostRequest sessionID userID hostID username hostname principals) .answer)
  | .numbering req next =>
    if i.ok then
      let (serial, db) := nextCertSerial s.db
      some ({ s with db }, .signing req serial next)
    else some (s, next.failed)
  | .signing req serial next =>
    match if i.ok then insertCertificate (certRow (cfg.on own) i.now serial req) s.db else none with
    | none => some (s, next.failed)
    | some db => some ({ s with db }, .storing (credentialOf (cfg.on own) i.now serial req) next)
  | .storing cred next =>
    some ({ s with vaults := Function.update s.vaults own ((s.vaults own).put cred) }, next.stored)
  | .scanning =>
    if i.ok then
      if i.rows.Perm (expiringCertificates (i.now + cfg.certRenewBefore) s.db) ∧
          i.rows.Pairwise (fun c d => c.expiresAt ≤ d.expiresAt) then some (s, .renewing i.rows)
      else none
    else some (s, .returned)
  | .renewing [] => some (s, .returned)
  | .renewing (c :: rest) => some (s, pickRow i s own c rest)
  | .revoking old rest =>
    -- the error is dropped
    some (if i.ok then { s with db := revokeCertificate i.now old.serial "renewed" s.db } else s,
      .renewing rest)
  | .destroying sessionID =>
    some ({ s with vaults := Function.update s.vaults own ((s.vaults own).destroy sessionID) },
      .revokingSession sessionID)
  | .revokingSession sessionID =>
    some (if i.ok then
      { s with db := (revokeSessionCertificates i.now sessionID "session_ended" s.db).2 }
      else s, .returned)
  | .returned => none

end

def issuerAct (cfg : ClusterConfig) (i : IssuerInput) (s : ClusterIdentity) (c : IssuerCall) :
    Option (ClusterIdentity × IssuerCall) :=
  (issuerPcAct cfg i s c.instanceID c.pc).map fun next => (next.1, { c with pc := next.2 })

abbrev IssuerPool := Pool ClusterIdentity IssuerCall

abbrev IssuerMove := Move (UUID × IssuerRequest) IssuerInput

def clusterStep (cfg : ClusterConfig) : IssuerPool → IssuerMove → Option IssuerPool :=
  poolStep issuerStart (issuerAct cfg)

/-- All instances have just started, over any tables. -/
def startedCluster (db : CertDb) : IssuerPool := ⟨⟨fun _ => .empty, db⟩, []⟩

/-! ## The property -/

def HoldsSerial (v : Vault) (serial : ℕ) (now : Instant) : Prop :=
  ∃ cred ∈ v.rows, cred.serial = serial ∧ now < cred.expiresAt

instance (v : Vault) (serial : ℕ) (now : Instant) : Decidable (HoldsSerial v serial now) :=
  inferInstanceAs (Decidable (∃ cred ∈ v.rows, _ ∧ _))

/-- If the move revokes a serial for a renewal, no other instance holds it. -/
def SparesOthers (s : IssuerPool) (m : IssuerMove) : Prop :=
  ∀ k i own old rest, m = .advance k i → s.call k = some ⟨own, .revoking old rest⟩ → i.ok →
    ∀ other, other ≠ own → ¬ HoldsSerial (s.store.vaults other) old.serial i.now

/-- The row that the loop of `RenewExpiring` comes to. -/
def IssuerPc.nextRow : IssuerPc → Option Cert
  | .renewing (c :: _) => some c
  | _ => none

/-- The loop comes to a row of another instance, and the own vault has the session of it. -/
def PicksForeign (s : IssuerPool) : IssuerMove → Prop
  | .begin _ => False
  | .advance k _ => ∃ call ∈ s.call k, ∃ c ∈ call.pc.nextRow,
      (∃ issuer ∈ c.instanceId, issuer ≠ call.instanceID) ∧
        ∃ sid ∈ c.sessionId, ((s.store.vaults call.instanceID).get sid).isSome

instance (s : IssuerPool) : ∀ m, Decidable (PicksForeign s m)
  | .begin _ => .isFalse id
  | .advance k _ => inferInstanceAs (Decidable (∃ call ∈ s.call k, _))

/-! ## Rows and credentials -/

/-- The columns of a row that nothing writes again. -/
def Cert.SameIssue (c d : Cert) : Prop :=
  c.serial = d.serial ∧ c.instanceId = d.instanceId ∧ c.expiresAt = d.expiresAt

/-- Every row is still there, but for the revocation columns. -/
def KeepsRows (db db' : CertDb) : Prop :=
  ∀ c ∈ db.certs.rows, ∃ d ∈ db'.certs.rows, Cert.SameIssue c d

/-- The row of a credential, which names the instance that has issued it. -/
def Issued (db : CertDb) (issuer : UUID) (cred : Credential) : Prop :=
  ∃ row ∈ db.certs.rows, row.serial = cred.serial ∧ row.instanceId = some issuer ∧
    row.expiresAt = cred.expiresAt

variable {c : Cert}

theorem Cert.SameIssue.trans {d e : Cert} (h : Cert.SameIssue c d) (h' : Cert.SameIssue d e) :
    Cert.SameIssue c e :=
  ⟨h.1.trans h'.1, h.2.1.trans h'.2.1, h.2.2.trans h'.2.2⟩

theorem KeepsRows.refl (db : CertDb) : KeepsRows db db := fun c hc => ⟨c, hc, rfl, rfl, rfl⟩

variable {db db' : CertDb}

theorem keepsRows_insert (h : insertCertificate c db = some db') : KeepsRows db db' := by
  obtain ⟨certs, hcerts, rfl⟩ := Option.map_eq_some_iff.mp h
  intro d hd
  exact ⟨d, (Table.mem_insert hcerts).mpr (.inl hd), rfl, rfl, rfl⟩

theorem keepsRows_revoke {p : Cert → Bool} {now : Instant} {reason : String}
    (h : db'.certs.rows = db.certs.rows.map fun c => if p c then c.revoke now reason else c) :
    KeepsRows db db' := by
  intro c hc
  refine ⟨if p c then c.revoke now reason else c, ?_, ?_⟩
  · rw [h]
    exact List.mem_map_of_mem hc
  · split
    all_goals exact ⟨rfl, rfl, rfl⟩

variable {issuer : UUID} {cred : Credential}

theorem Issued.of_keepsRows (h : Issued db issuer cred) (hk : KeepsRows db db') :
    Issued db' issuer cred := by
  obtain ⟨row, hrow, hserial, hinstance, hexpires⟩ := h
  obtain ⟨row', hrow', hserial', hinstance', hexpires'⟩ := hk row hrow
  exact ⟨row', hrow', hserial'.symm.trans hserial, hinstance'.symm.trans hinstance,
    hexpires'.symm.trans hexpires⟩

theorem issued_of_insert {cfg : ClusterConfig} {own : UUID} {now : Instant} {serial : ℕ}
    {req : IssueRequest}
    (h : insertCertificate (certRow (cfg.on own) now serial req) db = some db') :
    Issued db' own (credentialOf (cfg.on own) now serial req) := by
  obtain ⟨certs, hcerts, rfl⟩ := Option.map_eq_some_iff.mp h
  exact ⟨_, (Table.mem_insert hcerts).mpr (.inr rfl), rfl, rfl, rfl⟩

/-- A serial has one row, so the instance of the row is the one that may hold it. -/
theorem Issued.eq_of_row {row : Cert} (h : Issued db issuer cred)
    (hrow : row ∈ db.certs.rows) (hserial : row.serial = cred.serial) :
    row.instanceId = some issuer ∧ row.expiresAt = cred.expiresAt := by
  obtain ⟨row', hrow', hserial', hrest⟩ := h
  rwa [Table.eq_of_key hrow hrow' (hserial.trans hserial'.symm)]

/-! ## One statement -/

def AfterIssue.scanned : AfterIssue → List Cert
  | .answer => []
  | .revoke old rest => old :: rest

def IssuerPc.scanned : IssuerPc → List Cert
  | .numbering _ next | .signing _ _ next | .storing _ next => next.scanned
  | .renewing rows => rows
  | .revoking old rest => old :: rest
  | _ => []

def IssuerPc.credential : IssuerPc → Option Credential
  | .storing cred _ => some cred
  | _ => none

/-- What a statement of an instance does to vaults, rows and the call. -/
structure IssuerEffect (own : UUID) (s s' : ClusterIdentity) (pc pc' : IssuerPc) : Prop where
  rows : KeepsRows s.db s'.db
  vaults : ∀ j, ∀ cred ∈ (s'.vaults j).rows, cred ∈ (s.vaults j).rows ∨
    (j = own ∧ pc.credential = some cred)
  credential : ∀ cred, pc'.credential = some cred → Issued s'.db own cred
  scanned : ∀ c ∈ pc'.scanned, c ∈ pc.scanned ∨ c ∈ s.db.certs.rows

section

variable {cfg : ClusterConfig} {i : IssuerInput} {s s' : ClusterIdentity} {own : UUID}
  {pc pc' : IssuerPc}

/-- The tables may change, and the call holds nothing that it did not hold before. -/
theorem IssuerEffect.wrote {db : CertDb} (hrows : KeepsRows s.db db) (hcred : pc'.credential = none)
    (hscanned : ∀ c ∈ pc'.scanned, c ∈ pc.scanned ∨ c ∈ s.db.certs.rows) :
    IssuerEffect own s { s with db } pc pc' where
  rows := hrows
  vaults _ _ h := .inl h
  credential cred h := by cases hcred.symm.trans h
  scanned := hscanned

theorem IssuerEffect.passed (hcred : pc'.credential = none)
    (hscanned : ∀ c ∈ pc'.scanned, c ∈ pc.scanned ∨ c ∈ s.db.certs.rows) :
    IssuerEffect own s s pc pc' :=
  .wrote (.refl _) hcred hscanned

theorem AfterIssue.credential_failed (next : AfterIssue) :
    next.failed.credential = none := by cases next <;> rfl

theorem AfterIssue.credential_stored (next : AfterIssue) :
    next.stored.credential = none := by cases next <;> rfl

theorem AfterIssue.scanned_stored (next : AfterIssue) :
    next.stored.scanned = next.scanned := by cases next <;> rfl

variable {next : AfterIssue} {c : Cert}

theorem AfterIssue.mem_scanned_of_failed (h : c ∈ next.failed.scanned) : c ∈ next.scanned := by
  cases next with
  | answer => exact h
  | revoke old rest => exact List.mem_cons_of_mem old h

theorem mem_expiringCertificates {before : Instant} {db : CertDb}
    (h : c ∈ expiringCertificates before db) : c ∈ db.certs.rows := by
  unfold expiringCertificates at h
  rw [List.mem_insertionSort] at h
  exact (Table.mem_select.mp h).1

theorem storing_effect {cred : Credential} {next : AfterIssue} :
    IssuerEffect own s { s with vaults := Function.update s.vaults own ((s.vaults own).put cred) }
      (.storing cred next) next.stored where
  rows := .refl _
  vaults := by
    intro j d hd
    by_cases hj : j = own
    · subst hj
      simp only [Function.update_self] at hd
      rcases Table.mem_upsert.mp hd with ⟨hold, -⟩ | rfl
      · exact .inl hold
      · exact .inr ⟨rfl, rfl⟩
    · simp only [Function.update_of_ne hj] at hd
      exact .inl hd
  credential d hd := by cases next.credential_stored.symm.trans hd
  scanned c hc := by
    rw [next.scanned_stored] at hc
    exact .inl hc

theorem destroying_effect {sessionID : UUID} :
    IssuerEffect own s
      { s with vaults := Function.update s.vaults own ((s.vaults own).destroy sessionID) }
      (.destroying sessionID) (.revokingSession sessionID) where
  rows := .refl _
  vaults := by
    intro j d hd
    by_cases hj : j = own
    · subst hj
      simp only [Function.update_self] at hd
      exact .inl (Table.mem_delete.mp hd).1
    · simp only [Function.update_of_ne hj] at hd
      exact .inl hd
  credential d hd := by cases hd
  scanned c hc := .inl hc

theorem renewing_effect {rest : List Cert} :
    IssuerEffect own s s (.renewing (c :: rest)) (pickRow i s own c rest) := by
  have hskip : IssuerEffect own s s (.renewing (c :: rest)) (.renewing rest) :=
    .passed rfl fun d hd => .inl (List.mem_cons_of_mem c hd)
  unfold pickRow
  split
  · split
    · exact .passed rfl fun d hd => .inl hd
    · exact hskip
  · exact hskip

theorem issuerPcAct_effect (h : issuerPcAct cfg i s own pc = some (s', pc')) :
    IssuerEffect own s s' pc pc' := by
  revert h
  fun_cases issuerPcAct cfg i s own pc with
  | case1 =>
    rintro ⟨⟩
    split
    all_goals exact .passed rfl fun c hc => .inl hc
  | case2 req next hok serial db hserial =>
    rintro ⟨⟩
    obtain ⟨-, rfl⟩ := Prod.mk.inj hserial
    exact .wrote (fun c hc => ⟨c, hc, rfl, rfl, rfl⟩) rfl fun c hc => .inl hc
  | case3 req next | case4 req serial next =>
    rintro ⟨⟩
    exact .passed next.credential_failed fun c hc => .inl (AfterIssue.mem_scanned_of_failed hc)
  | case5 req serial next db hdb =>
    rintro ⟨⟩
    obtain ⟨-, hins⟩ := Option.ite_none_right_eq_some.mp hdb
    refine ⟨keepsRows_insert hins, fun _ _ hcred => .inl hcred, ?_, fun c hc => .inl hc⟩
    intro cred hcred
    cases hcred
    exact issued_of_insert hins
  | case6 =>
    rintro ⟨⟩
    exact storing_effect
  | case7 hok hrows =>
    rintro ⟨⟩
    exact .passed rfl fun c hc => .inr (mem_expiringCertificates (hrows.1.mem_iff.mp hc))
  | case8 | case15 => rintro ⟨⟩
  | case9 | case10 =>
    rintro ⟨⟩
    exact .passed rfl fun c hc => .inl hc
  | case11 =>
    rintro ⟨⟩
    exact renewing_effect
  | case12 old rest =>
    rintro ⟨⟩
    have hrest : ∀ c ∈ (IssuerPc.renewing rest).scanned, c ∈ (IssuerPc.revoking old rest).scanned ∨
        c ∈ s.db.certs.rows :=
      fun c hc => .inl (List.mem_cons_of_mem old hc)
    split
    · exact .wrote (keepsRows_revoke rfl) rfl hrest
    · exact .passed rfl hrest
  | case13 =>
    rintro ⟨⟩
    exact destroying_effect
  | case14 =>
    rintro ⟨⟩
    split
    · exact .wrote (keepsRows_revoke rfl) rfl fun c hc => .inl hc
    · exact .passed rfl fun c hc => .inl hc

end

/-- The row that is revoked when its renewal is in the vault. -/
def AfterIssue.old : AfterIssue → Option Cert
  | .answer => none
  | .revoke old _ => some old

def IssuerPc.old : IssuerPc → Option Cert
  | .numbering _ next | .signing _ _ next | .storing _ next => next.old
  | .revoking old _ => some old
  | _ => none

theorem AfterIssue.old_failed (next : AfterIssue) : next.failed.old = none := by cases next <;> rfl

theorem AfterIssue.old_stored (next : AfterIssue) : next.stored.old = next.old := by
  cases next <;> rfl

/-- A row is to be revoked from when it is picked, for a session in the own vault. -/
theorem issuerPcAct_old {cfg : ClusterConfig} {i : IssuerInput} {s s' : ClusterIdentity}
    {own : UUID} {pc pc' : IssuerPc} {c : Cert} (h : issuerPcAct cfg i s own pc = some (s', pc'))
    (hold : pc'.old = some c) : pc.old = some c ∨
      (pc.nextRow = some c ∧ ∃ sid ∈ c.sessionId, ((s.vaults own).get sid).isSome) := by
  revert h hold
  fun_cases issuerPcAct cfg i s own pc with
  | case1 =>
    rintro ⟨⟩
    split <;> nofun
  | case2 | case5 =>
    rintro ⟨⟩ hold
    exact .inl hold
  | case3 req next | case4 req serial next =>
    rintro ⟨⟩ hold
    cases next.old_failed.symm.trans hold
  | case6 cred next =>
    rintro ⟨⟩ hold
    exact .inl (next.old_stored.symm.trans hold)
  | case11 row rest =>
    rintro ⟨⟩ hold
    revert hold
    fun_cases pickRow i s own row rest with
    | case1 sid uid huid hsid hhas =>
      rintro ⟨⟩
      exact .inr ⟨rfl, sid, hsid, hhas⟩
    | _ => nofun
  | _ => rintro ⟨⟩ ⟨⟩

/-! ## Runs -/

/-- Credentials are in the vault of the instance that their row names, and what a call has
read of a row is still so. -/
structure ClusterInv (s : IssuerPool) : Prop where
  held : ∀ j, ∀ cred ∈ (s.store.vaults j).rows, Issued s.store.db j cred
  stored : ∀ c ∈ s.calls, ∀ cred, c.pc.credential = some cred → Issued s.store.db c.instanceID cred
  scanned : ∀ c ∈ s.calls, ∀ row ∈ c.pc.scanned,
    ∃ row' ∈ s.store.db.certs.rows, Cert.SameIssue row row'

theorem IssuerRequest.credential_start (rq : IssuerRequest) :
    rq.start.credential = none := by cases rq <;> rfl

theorem IssuerRequest.scanned_start (rq : IssuerRequest) :
    rq.start.scanned = [] := by cases rq <;> rfl

section

variable {cfg : ClusterConfig} {s s' : IssuerPool} {m : IssuerMove}

theorem clusterInv_step (hi : ClusterInv s) (h : clusterStep cfg s m = some s') :
    ClusterInv s' := by
  rcases poolStep_cases h with ⟨⟨own, rq⟩, -, rfl⟩ | ⟨k, i, c, st, c', -, hk, hact, rfl⟩
  · refine ⟨hi.held, Pool.forall_enter hi.stored ?_, Pool.forall_enter hi.scanned ?_⟩
    · intro cred hcred
      cases rq.credential_start.symm.trans hcred
    · intro row hrow
      exact absurd (rq.scanned_start ▸ hrow) List.not_mem_nil
  · obtain ⟨⟨st, pc'⟩, hpc, ⟨⟩⟩ := Option.map_eq_some_iff.mp hact
    have heffect := issuerPcAct_effect hpc
    have hmem := Pool.mem_of_call hk
    refine ⟨?_, ?_, ?_⟩
    · intro j cred hcred
      rcases heffect.vaults j cred hcred with hold | ⟨rfl, hnew⟩
      · exact (hi.held j cred hold).of_keepsRows heffect.rows
      · exact (hi.stored c hmem cred hnew).of_keepsRows heffect.rows
    · refine Pool.forall_put ?_ heffect.credential
      intro d hd cred hcred
      exact (hi.stored d hd cred hcred).of_keepsRows heffect.rows
    · have hkept : ∀ row : Cert, (∃ row' ∈ s.store.db.certs.rows, Cert.SameIssue row row') →
          ∃ row' ∈ st.db.certs.rows, Cert.SameIssue row row' := by
        rintro row ⟨row', hrow', hsame⟩
        obtain ⟨row'', hrow'', hsame'⟩ := heffect.rows row' hrow'
        exact ⟨row'', hrow'', hsame.trans hsame'⟩
      refine Pool.forall_put (fun d hd row hrow => hkept row (hi.scanned d hd row hrow)) ?_
      intro row hrow
      rcases heffect.scanned row hrow with hold | hread
      · exact hkept row (hi.scanned c hmem row hold)
      · exact heffect.rows row hread

def RevokesOwn (s : IssuerPool) : Prop :=
  ∀ c ∈ s.calls, ∀ row, c.pc.old = some row → ∀ issuer ∈ row.instanceId, issuer = c.instanceID

theorem IssuerRequest.old_start (rq : IssuerRequest) : rq.start.old = none := by cases rq <;> rfl

theorem revokesOwn_step (ho : RevokesOwn s) (hno : ¬ PicksForeign s m)
    (h : clusterStep cfg s m = some s') : RevokesOwn s' := by
  rcases poolStep_cases h with ⟨⟨own, rq⟩, -, rfl⟩ | ⟨k, i, c, st, c', rfl, hk, hact, rfl⟩
  · refine Pool.forall_enter ho fun row hrow => ?_
    cases rq.old_start.symm.trans hrow
  · obtain ⟨⟨st, pc'⟩, hpc, ⟨⟩⟩ := Option.map_eq_some_iff.mp hact
    refine Pool.forall_put ho fun row hrow issuer hissuer => ?_
    rcases issuerPcAct_old hpc hrow with hold | ⟨hnext, hsession⟩
    · exact ho c (Pool.mem_of_call hk) row hold issuer hissuer
    · by_contra hne
      exact hno ⟨c, hk, row, hnext, ⟨issuer, hissuer, hne⟩, hsession⟩

/-- The instance that holds a serial is the one in its row. -/
theorem sparesOthers_of_revokesOwn (hi : ClusterInv s) (ho : RevokesOwn s) : SparesOthers s m := by
  rintro k i own old rest rfl hk - other hne ⟨cred, hcred, hserial, -⟩
  have hmem := Pool.mem_of_call hk
  obtain ⟨row, hrow, hrowserial, hrowinstance, -⟩ := hi.scanned _ hmem old List.mem_cons_self
  have hinstance :=
    ((hi.held other cred hcred).eq_of_row hrow (hrowserial.symm.trans hserial.symm)).1
  exact hne (ho _ hmem old rfl other (hrowinstance.trans hinstance))

theorem clusterInv_started (db : CertDb) : ClusterInv (startedCluster db) where
  held _ _ h := absurd h List.not_mem_nil
  stored _ h := absurd h List.not_mem_nil
  scanned _ h := absurd h List.not_mem_nil

end

/-- **Renewals spare the other instances**, in every run in which none of them takes up a row of
another instance for a session that its own vault has. -/
theorem renewals_spare_others (cfg : ClusterConfig) (db : CertDb) (ms : List IssuerMove)
    (h : Guarded (clusterStep cfg) (fun s m => ¬ PicksForeign s m) (startedCluster db) ms) :
    Guarded (clusterStep cfg) SparesOthers (startedCluster db) ms := by
  have hstep : ∀ {s m s'}, ClusterInv s ∧ RevokesOwn s → ¬ PicksForeign s m →
      clusterStep cfg s m = some s' → ClusterInv s' ∧ RevokesOwn s' :=
    fun hi hno hs => ⟨clusterInv_step hi.1 hs, revokesOwn_step hi.2 hno hs⟩
  refine guarded_of_invariant hstep (fun hi _ => sparesOthers_of_revokesOwn hi.1 hi.2) ?_ h
  exact ⟨clusterInv_started db, fun _ h => absurd h List.not_mem_nil⟩

/-! ## A session on two instances -/

def eightHours : ClusterConfig := ⟨8 * hour, 2 * hour⟩

def secondRow : Cert :=
  certRow (eightHours.on ⟨12⟩) 0 2 (sessionRequest ⟨1⟩ ⟨2⟩ "alice" loginPrincipals)

def firstRow : Cert :=
  certRow (eightHours.on ⟨11⟩) 0 1 (sessionRequest ⟨1⟩ ⟨2⟩ "alice" loginPrincipals)

def issuedAt (k : ℕ) : List IssuerMove := List.replicate 3 (.advance k ⟨true, 0, "", []⟩)

def renewalInput : IssuerInput := ⟨true, 7 * hour, "alice", [secondRow, firstRow]⟩

/-- Both instances issue a credential for the session, and in its last hours the first one
renews the row of the second, up to the revocation. -/
def renewalOfOther : List IssuerMove :=
  [.begin (⟨11⟩, .issue ⟨1⟩ ⟨2⟩ "alice" loginPrincipals)] ++ issuedAt 0 ++
    [.begin (⟨12⟩, .issue ⟨1⟩ ⟨2⟩ "alice" loginPrincipals)] ++ issuedAt 1 ++
    [.begin (⟨11⟩, .renewExpiring)] ++ List.replicate 5 (.advance 2 renewalInput)

def otherRow : Cert :=
  certRow (eightHours.on ⟨12⟩) 0 2 (sessionRequest ⟨3⟩ ⟨4⟩ "bob" loginPrincipals)

def renewalOfOwn : List IssuerMove :=
  [.begin (⟨11⟩, .issue ⟨1⟩ ⟨2⟩ "alice" loginPrincipals)] ++ issuedAt 0 ++
    [.begin (⟨12⟩, .issue ⟨3⟩ ⟨4⟩ "bob" loginPrincipals)] ++ issuedAt 1 ++
    [.begin (⟨11⟩, .renewExpiring)] ++
    List.replicate 8 (.advance 2 ⟨true, 7 * hour, "alice", [otherRow, firstRow]⟩)

theorem renewals_spare_others_own :
    (exec (clusterStep eightHours) (startedCluster .empty) renewalOfOwn).map
        (fun s => (s.calls.map IssuerCall.pc, revokedSerials s.store.db)) =
      some ([.returned, .returned, .returned], [1]) ∧
    Guarded (clusterStep eightHours) SparesOthers (startedCluster .empty) renewalOfOwn :=
  ⟨by decide +kernel, renewals_spare_others eightHours .empty renewalOfOwn (by decide +kernel)⟩

/-- The serial that the second instance goes on presenting is revoked an hour before it
expires. -/
theorem renewal_revokes_other_instance : ∃ s s',
    exec (clusterStep eightHours) (startedCluster .empty) renewalOfOther = some s ∧
    clusterStep eightHours s (.advance 2 renewalInput) = some s' ∧
    ¬ SparesOthers s (.advance 2 renewalInput) ∧
    HoldsSerial (s'.store.vaults ⟨12⟩) 2 (7 * hour) ∧ 2 ∈ revokedSerials s'.store.db := by
  refine ⟨_, _, rfl, rfl, ?_, ?_, ?_⟩
  · intro hspares
    refine hspares 2 renewalInput ⟨11⟩ secondRow [firstRow] rfl rfl rfl ⟨12⟩ (by decide) ?_
    decide +kernel
  · decide +kernel
  · decide +kernel

end Moorgate.Identity
