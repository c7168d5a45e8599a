import Moorgate.Framework.Base.Runs
import Moorgate.Identity.Issuer
import Moorgate.Models.Accounts

/-!
# Renewal of expiring certificates: `RenewExpiring` of `identity/issuer.go`

`RenewExpiring` issues a new identity for each certificate row that is about to expire and whose
session is live, with the principals of the row, and revokes the old serial. What it stores is
always the session-level credential, whatever the row was.

That is right for a row that carries the principals of the session-level credential and whose own
key is not held for a host (`RowMatches`). The renewal of a per-host row overwrites the
session-level credential with the host's principals and leaves the host's credential in the vault
with a revoked serial.
-/

namespace Moorgate.Identity

open Framework Models Store

/-- A managed host. The nil id stands for the session itself. -/
abbrev HostID := { id : UUID // id ≠ sessionScope }

def issueSession (icfg : IssuerConfig) (now : Instant) (signs : Bool) (sessionID userID : UUID)
    (username : String) (principals : List String) (s : IdentityState) :
    Option Credential × IdentityState :=
  issue icfg now signs (sessionRequest sessionID userID username principals) s

def issueForHost (icfg : IssuerConfig) (now : Instant) (signs : Bool) (sessionID userID : UUID)
    (hostID : HostID) (username hostname : String) (principals : List String) (s : IdentityState) :
    Option Credential × IdentityState :=
  issue icfg now signs (hostRequest sessionID userID hostID username hostname principals) s

def ensureHostCredential (icfg : IssuerConfig) (now : Instant) (signs : Bool)
    (sessionID userID : UUID) (hostID : HostID) (username hostname : String)
    (principals : List String) (s : IdentityState) : Option ℕ × IdentityState :=
  match s.vault.getHost sessionID hostID with
  | some c =>
    if c.expiresAt - now > icfg.certRenewBefore then (some c.serial, s)
    else
      let (cred, s') := issueForHost icfg now signs sessionID userID hostID username hostname
        principals s
      (cred.map Credential.serial, s')
  | none =>
    let (cred, s') := issueForHost icfg now signs sessionID userID hostID username hostname
      principals s
    (cred.map Credential.serial, s')

def destroySession (now : Instant) (sessionID : UUID) (s : IdentityState) : IdentityState where
  vault := s.vault.destroy sessionID
  db := (revokeSessionCertificates now sessionID "session_ended" s.db).2

def renewOne (icfg : IssuerConfig) (acc : Accounts) (now : Instant) (signs : ℕ → Bool) (c : Cert)
    (s : IdentityState) : IdentityState :=
  match c.sessionId with
  | none => s
  | some sid =>
    match s.vault.get sid with
    | none => s -- session gone, nothing to renew
    | some _ =>
      match c.userId with
      | none => s
      | some uid =>
        let username := ((acc.getUserByID uid).map User.username).getD ""
        match issueSession icfg now (signs c.serial) sid uid username c.principals s with
        | (none, s') => s'
        | (some _, s') => { s' with db := revokeCertificate now c.serial "renewed" s'.db }

def renewRows (icfg : IssuerConfig) (acc : Accounts) (now : Instant) (signs : ℕ → Bool)
    (rows : List Cert) (s : IdentityState) : IdentityState :=
  rows.foldl (fun s c => renewOne icfg acc now signs c s) s

inductive IdentityOp where
  | issue (now : Instant) (signs : Bool) (sessionID userID : UUID) (username : String)
      (principals : List String)
  | issueForHost (now : Instant) (signs : Bool) (sessionID userID : UUID) (hostID : HostID)
      (username hostname : String) (principals : List String)
  | ensureHost (now : Instant) (signs : Bool) (sessionID userID : UUID) (hostID : HostID)
      (username hostname : String) (principals : List String)
  | destroySession (now : Instant) (sessionID : UUID)
  | renew (acc : Accounts) (now : Instant) (signs : ℕ → Bool) (rows : List Cert)

/-- `RenewExpiring` goes through the expiring rows by expiry. Rows that expire
together come as the database returns them, so the label has the rows. -/
def identityStep (icfg : IssuerConfig) (s : IdentityState) : IdentityOp → Option IdentityState
  | .issue now signs sessionID userID username principals =>
    some (issueSession icfg now signs sessionID userID username principals s).2
  | .issueForHost now signs sessionID userID hostID username hostname principals =>
    some (issueForHost icfg now signs sessionID userID hostID username hostname principals s).2
  | .ensureHost now signs sessionID userID hostID username hostname principals =>
    some (ensureHostCredential icfg now signs sessionID userID hostID username hostname
      principals s).2
  | .destroySession now sessionID => some (destroySession now sessionID s)
  | .renew acc now signs rows =>
    if rows.Perm (expiringCertificates (now + icfg.certRenewBefore) s.db) ∧
        rows.Pairwise (fun c d => c.expiresAt ≤ d.expiresAt) then
      some (renewRows icfg acc now signs rows s)
    else none

/-! ## Vault and tables agree -/

structure Consistent (s : IdentityState) : Prop where
  certBound : ∀ c ∈ s.db.certs.rows, c.serial ≤ s.db.lastSerial
  revBound : ∀ r ∈ s.db.revocations.rows, r.serial ≤ s.db.lastSerial
  rowOf : ∀ cred ∈ s.vault.rows, ∃ row ∈ s.db.certs.rows,
    row.serial = cred.serial ∧ row.sessionId = some cred.sessionID
  named : ∀ cred ∈ s.vault.rows, cred.hostID = sessionScope → cred.principals ≠ []
  unrevoked : ∀ cred ∈ s.vault.rows, ∀ r ∈ s.db.revocations.rows, r.serial ≠ cred.serial

theorem consistent_empty : Consistent ⟨.empty, .empty⟩ where
  certBound _ h := nomatch h
  revBound _ h := nomatch h
  rowOf _ h := nomatch h
  named _ h := nomatch h
  unrevoked _ h := nomatch h

variable {s : IdentityState}

theorem Consistent.skipSerial (hc : Consistent s) :
    Consistent { s with db := (nextCertSerial s.db).2 } where
  certBound c h := Nat.le_succ_of_le (hc.certBound c h)
  revBound r h := Nat.le_succ_of_le (hc.revBound r h)
  rowOf := hc.rowOf
  named := hc.named
  unrevoked := hc.unrevoked

variable {icfg : IssuerConfig} {now : Instant}

variable {signs : Bool} {req : IssueRequest}

theorem issue_consistent (hc : Consistent s)
    (hreq : req.hostID = sessionScope → req.principals ≠ []) :
    Consistent (issue icfg now signs req s).2 := by
  rcases issue_cases icfg now signs req s with heq | ⟨certs, hins, heq⟩
  · rw [heq]
    exact hc.skipSerial
  · rw [heq]
    refine ⟨?_, ?_, ?_, ?_, ?_⟩
    · exact Table.forall_insert hins (fun c hmem => Nat.le_succ_of_le (hc.certBound c hmem)) le_rfl
    · intro r hr
      exact Nat.le_succ_of_le (hc.revBound r hr)
    · intro cred hcred
      rcases Table.mem_upsert.mp hcred with ⟨hcred, -⟩ | rfl
      · obtain ⟨row, hrow, hfields⟩ := hc.rowOf cred hcred
        exact ⟨row, (Table.mem_insert hins).mpr (.inl hrow), hfields⟩
      · exact ⟨_, (Table.mem_insert hins).mpr (.inr rfl), rfl, rfl⟩
    · intro cred hcred hscope
      rcases Table.mem_upsert.mp hcred with ⟨hcred, -⟩ | rfl
      · exact hc.named cred hcred hscope
      · exact hreq hscope
    · intro cred hcred r hr
      rcases Table.mem_upsert.mp hcred with ⟨hcred, -⟩ | rfl
      · exact hc.unrevoked cred hcred r hr
      · have hle := hc.revBound r hr
        show r.serial ≠ s.db.lastSerial + 1
        omega

theorem sessionRequest_principals_ne_nil (sessionID userID : UUID) (username : String)
    (principals : List String) :
    (sessionRequest sessionID userID username principals).principals ≠ [] := by
  unfold sessionRequest
  by_cases h : principals = [] <;> simp [h]

/-! ## Revocation under the vault -/

/-- Revoking a set of serials keeps vault and tables in agreement when no
credential that stays in the vault has one of them. -/
theorem Consistent.revoke (hc : Consistent s) {v : Vault} {now : Instant}
    {reason : String} {p : Cert → Bool} {serials : List ℕ}
    (hv : ∀ cred ∈ v.rows, cred ∈ s.vault.rows) (hserials : ∀ n ∈ serials, n ≤ s.db.lastSerial)
    (hfree : ∀ cred ∈ v.rows, cred.serial ∉ serials) :
    Consistent ⟨v, { s.db with
      certs := s.db.certs.update p (Cert.revoke now reason) fun _ => rfl
      revocations := recordRevocations now reason serials s.db.revocations }⟩ where
  certBound c h := by
    obtain ⟨row, hrow, hserial, -⟩ := exists_of_mem_revoke h
    exact hserial ▸ hc.certBound row hrow
  revBound r h := by
    rcases mem_recordRevocations h with h | ⟨h, -⟩
    · exact hc.revBound r h
    · exact hserials _ h
  rowOf cred h := by
    obtain ⟨row, hrow, hserial, hsid⟩ := hc.rowOf cred (hv cred h)
    obtain ⟨row', hrow', hserial', hsid'⟩ := exists_mem_revoke hrow
    exact ⟨row', hrow', hserial'.trans hserial, hsid'.trans hsid⟩
  named cred h := hc.named cred (hv cred h)
  unrevoked cred h r hr := by
    rcases mem_recordRevocations hr with hr | ⟨hr, -⟩
    · exact hc.unrevoked cred (hv cred h) r hr
    · intro heq
      exact hfree cred h (heq ▸ hr)

theorem destroySession_consistent (hc : Consistent s) (now : Instant)
    (sid : UUID) : Consistent (destroySession now sid s) := by
  refine hc.revoke (fun cred h => (Table.mem_delete.mp h).1) ?_ ?_
  · intro n hn
    obtain ⟨c, hmem, rfl⟩ := List.mem_map.mp hn
    exact hc.certBound c (Table.mem_select.mp hmem).1
  · -- a credential that stays is of another session, and so is its certificate
    intro cred hcred hn
    obtain ⟨hcred, hother⟩ := Table.mem_delete.mp hcred
    obtain ⟨c, hmem, hserial⟩ := List.mem_map.mp hn
    obtain ⟨hmem, hp⟩ := Table.mem_select.mp hmem
    obtain ⟨row, hrow, hrowSerial, hrowSid⟩ := hc.rowOf cred hcred
    have hsame : c = row := Table.eq_of_key hmem hrow (hserial.trans hrowSerial.symm)
    subst hsame
    simp [hrowSid] at hp
    simp [hp.1] at hother

/-! ## Renewal -/

/-- The row carries the principals of the live session-level credential, and
no per-host credential is held under its serial. -/
def RowMatches (v : Vault) (c : Cert) : Prop :=
  ∀ sid ∈ c.sessionId, ∀ cred ∈ v.get sid, c.principals = cred.principals ∧
    ∀ held ∈ v.rows, held.serial = c.serial → held.hostID = sessionScope

instance (v : Vault) (c : Cert) : Decidable (RowMatches v c) :=
  inferInstanceAs (Decidable (∀ sid ∈ c.sessionId, ∀ cred ∈ v.get sid, _ ∧ ∀ held ∈ v.rows, _))

/-- The certificate was issued, for the session the row names. -/
def Tracked (db : CertDb) (c : Cert) : Prop :=
  ∃ row ∈ db.certs.rows, row.serial = c.serial ∧ row.sessionId = c.sessionId

/-- Session-level credentials keep their principals, and per-host credentials
are left alone. -/
structure Keeps (v v' : Vault) : Prop where
  session : ∀ sid, (v'.get sid).map Credential.principals = (v.get sid).map Credential.principals
  host : ∀ sid host, host ≠ sessionScope → v'.getHost sid host = v.getHost sid host
  rows : ∀ held ∈ v'.rows, held ∈ v.rows ∨ held.hostID = sessionScope

theorem Keeps.refl (v : Vault) : Keeps v v := ⟨fun _ => rfl, fun _ _ _ => rfl, fun _ => .inl⟩

theorem Keeps.trans {v₁ v₂ v₃ : Vault} (h₁ : Keeps v₁ v₂) (h₂ : Keeps v₂ v₃) : Keeps v₁ v₃ where
  session sid := (h₂.session sid).trans (h₁.session sid)
  host sid host hne := (h₂.host sid host hne).trans (h₁.host sid host hne)
  rows held h := by
    rcases h₂.rows held h with h | h
    · exact h₁.rows held h
    · exact .inr h

variable {c : Cert}

theorem RowMatches.keep {v v' : Vault} (hk : Keeps v v') (hm : RowMatches v c) :
    RowMatches v' c := by
  intro sid hsid cred' hcred'
  have hprincipals := hk.session sid
  rw [show v'.get sid = some cred' from hcred', Option.map_some, eq_comm,
    Option.map_eq_some_iff] at hprincipals
  obtain ⟨cred, hcred, heq⟩ := hprincipals
  obtain ⟨hrow, hheld⟩ := hm sid hsid cred hcred
  refine ⟨hrow.trans heq, fun held hmem hserial => ?_⟩
  rcases hk.rows held hmem with hmem | hscope
  · exact hheld held hmem hserial
  · exact hscope

/-- What one round of the loop keeps. -/
structure RenewKeeps (s s' : IdentityState) : Prop where
  consistent : Consistent s'
  keeps : Keeps s.vault s'.vault
  tracked : ∀ c, Tracked s.db c → Tracked s'.db c

theorem keeps_put {v : Vault} {old new : Credential} (hold : v.get new.sessionID = some old)
    (hscope : new.hostID = sessionScope) (hprincipals : new.principals = old.principals) :
    Keeps v (v.put new) where
  session sid := by
    unfold Vault.get Vault.put
    rw [Table.lookup_upsert]
    by_cases hsid : new.sessionID = sid
    · subst hsid
      rw [if_pos (by rw [hscope]), Option.map_some, hprincipals]
      exact (congrArg (Option.map Credential.principals) hold).symm
    · rw [if_neg (fun h => hsid (Prod.mk.inj h).1)]
  host sid host hne := by
    unfold Vault.getHost Vault.put
    rw [Table.lookup_upsert, if_neg]
    intro h
    exact hne ((Prod.mk.inj h).2.symm.trans hscope)
  rows held h := by
    rcases Table.mem_upsert.mp h with ⟨h, -⟩ | rfl
    · exact .inl h
    · exact .inr hscope

variable {db : CertDb} {certs : Table Cert.serial}

theorem Tracked.insert {n : ℕ} (hins : db.certs.insert (certRow icfg now n req) = some certs)
    (h : Tracked db c) (last : ℕ) : Tracked ⟨certs, db.revocations, last⟩ c := by
  obtain ⟨row, hrow, hfields⟩ := h
  exact ⟨row, (Table.mem_insert hins).mpr (.inl hrow), hfields⟩

theorem Tracked.revokeCertificate (h : Tracked db c) (now : Instant)
    (serial : ℕ) (reason : String) : Tracked (revokeCertificate now serial reason db) c := by
  obtain ⟨row, hrow, hserial, hsid⟩ := h
  obtain ⟨row', hrow', hserial', hsid'⟩ := exists_mem_revoke hrow
  exact ⟨row', hrow', hserial'.trans hserial, hsid'.trans hsid⟩

/-- The part of a round after the checks: the new credential, then the
revocation of the old serial. -/
theorem renew_issued {sid uid : UUID} {username : String} {old new : Credential}
    (hnew : new = credentialOf icfg now (s.db.lastSerial + 1)
      (sessionRequest sid uid username c.principals))
    (hc : Consistent s) (hsid : c.sessionId = some sid) (hold : s.vault.get sid = some old)
    (ht : Tracked s.db c) (hm : RowMatches s.vault c)
    (hins : s.db.certs.insert (certRow icfg now (s.db.lastSerial + 1)
      (sessionRequest sid uid username c.principals)) = some certs)
    (hnext : Consistent ⟨s.vault.put new, ⟨certs, s.db.revocations, s.db.lastSerial + 1⟩⟩) :
    RenewKeeps s ⟨s.vault.put new,
      revokeCertificate now c.serial "renewed" ⟨certs, s.db.revocations, s.db.lastSerial + 1⟩⟩ := by
  subst hnew
  obtain ⟨hprincipals, hheld⟩ := hm sid hsid old hold
  obtain ⟨hmemOld, hkeyOld⟩ := Table.lookup_eq_some.mp hold
  obtain ⟨row, hrow, hserial, hrowSid⟩ := ht
  have hbound : c.serial ≤ s.db.lastSerial := hserial ▸ hc.certBound row hrow
  -- the row's principals are not empty, so `Issue` takes them as they are
  have hne : c.principals ≠ [] := by
    rw [hprincipals]
    exact hc.named old hmemOld (Prod.mk.inj hkeyOld).2
  refine ⟨hnext.revoke (fun _ => id) ?_ ?_, ?_, ?_⟩
  · intro n hn
    rw [List.mem_singleton] at hn
    subst hn
    exact Nat.le_succ_of_le hbound
  · -- the old serial is only held by the credential that was replaced
    intro cred hcred hn
    rw [List.mem_singleton] at hn
    rcases Table.mem_upsert.mp hcred with ⟨hcred, hkey⟩ | rfl
    · obtain ⟨row', hrow', hserial', hsid'⟩ := hc.rowOf cred hcred
      have hsame : row = row' :=
        Table.eq_of_key hrow hrow' (hserial.trans (hn.symm.trans hserial'.symm))
      subst hsame
      rw [hrowSid, hsid] at hsid'
      refine hkey (Prod.ext (Option.some.inj hsid').symm ?_)
      exact hheld cred hcred hn
    · have hnew : s.db.lastSerial + 1 = c.serial := hn
      omega
  · refine keeps_put hold rfl ?_
    show (sessionRequest sid uid username c.principals).principals = old.principals
    rw [sessionRequest, if_neg hne]
    exact hprincipals
  · intro d hd
    exact (hd.insert hins _).revokeCertificate ..

/-- **One round of the loop** on a row that matches. -/
theorem renewOne_keeps (icfg : IssuerConfig) (acc : Accounts) (now : Instant) (signs : ℕ → Bool)
    (hc : Consistent s) (ht : Tracked s.db c) (hm : RowMatches s.vault c) :
    RenewKeeps s (renewOne icfg acc now signs c s) := by
  have hsame : RenewKeeps s s := ⟨hc, .refl _, fun _ => id⟩
  unfold renewOne
  split
  · exact hsame
  next sid hsid =>
  split
  · exact hsame
  next old hold =>
  split
  · exact hsame
  next uid _ =>
  dsimp only
  generalize ((acc.getUserByID uid).map User.username).getD "" = username
  have hnext : Consistent (issue icfg now (signs c.serial)
      (sessionRequest sid uid username c.principals) s).2 :=
    issue_consistent hc fun _ => sessionRequest_principals_ne_nil _ _ _ _
  unfold issueSession
  rcases issue_cases icfg now (signs c.serial) (sessionRequest sid uid username c.principals) s with
    heq | ⟨certs, hins, heq⟩
  · rw [heq]
    exact ⟨hc.skipSerial, .refl _, fun _ => id⟩
  · rw [heq] at hnext ⊢
    exact renew_issued rfl hc hsid hold ht hm hins hnext

theorem renewRows_keeps (icfg : IssuerConfig) (acc : Accounts) (now : Instant) (signs : ℕ → Bool)
    {rows : List Cert} (hc : Consistent s) (ht : ∀ c ∈ rows, Tracked s.db c)
    (hm : ∀ c ∈ rows, RowMatches s.vault c) :
    RenewKeeps s (renewRows icfg acc now signs rows s) := by
  induction rows generalizing s with
  | nil => exact ⟨hc, .refl _, fun _ => id⟩
  | cons c rows ih =>
    have hone :=
      renewOne_keeps icfg acc now signs hc (ht c List.mem_cons_self) (hm c List.mem_cons_self)
    have hrest := ih hone.consistent
      (fun d hd => hone.tracked d (ht d (List.mem_cons_of_mem _ hd)))
      (fun d hd => (hm d (List.mem_cons_of_mem _ hd)).keep hone.keeps)
    exact ⟨hrest.consistent, hone.keeps.trans hrest.keeps,
      fun d hd => hrest.tracked d (hone.tracked d hd)⟩

/-! ## Runs -/

def RenewsMatching (s : IdentityState) : IdentityOp → Prop
  | .renew _ _ _ rows => ∀ c ∈ rows, RowMatches s.vault c
  | _ => True

instance (s : IdentityState) (op : IdentityOp) : Decidable (RenewsMatching s op) := by
  unfold RenewsMatching
  split <;> infer_instance

theorem issueForHost_consistent {sessionID userID : UUID} {hostID : HostID}
    {username hostname : String} {principals : List String} (hc : Consistent s) :
    Consistent (issueForHost icfg now signs sessionID userID hostID username hostname
      principals s).2 :=
  issue_consistent hc fun hscope => absurd hscope hostID.2

theorem renew_step {acc : Accounts} {signs : ℕ → Bool} {rows : List Cert} {s' : IdentityState}
    (hc : Consistent s) (hm : RenewsMatching s (.renew acc now signs rows))
    (hstep : identityStep icfg s (.renew acc now signs rows) = some s') : RenewKeeps s s' := by
  simp only [identityStep] at hstep
  split at hstep
  · rename_i hrows
    cases hstep
    refine renewRows_keeps icfg acc now signs hc (fun c hmem => ?_) hm
    have hexp := hrows.1.mem_iff.mp hmem
    rw [expiringCertificates, List.mem_insertionSort] at hexp
    exact ⟨c, (Table.mem_select.mp hexp).1, rfl, rfl⟩
  · cases hstep

theorem identityStep_consistent {s' : IdentityState} {op : IdentityOp}
    (hc : Consistent s) (hop : RenewsMatching s op) (hstep : identityStep icfg s op = some s') :
    Consistent s' := by
  cases op with
  | issue now signs sessionID userID username principals =>
    cases hstep
    exact issue_consistent hc fun _ => sessionRequest_principals_ne_nil _ _ _ _
  | issueForHost now signs sessionID userID hostID username hostname principals =>
    cases hstep
    exact issueForHost_consistent hc
  | ensureHost now signs sessionID userID hostID username hostname principals =>
    cases hstep
    unfold ensureHostCredential
    split
    · split
      · exact hc
      · exact issueForHost_consistent hc
    · exact issueForHost_consistent hc
  | destroySession now sessionID =>
    cases hstep
    exact destroySession_consistent hc now sessionID
  | renew acc now signs rows => exact (renew_step hc hop hstep).consistent

/-- **Renewal preserves identity** in the runs whose renewals meet only rows
that match. After a renewal the session-level credential of every live session
has the principals it had, every per-host credential is under its key with its
principals and its host, and no credential in the vault has a revoked serial. -/
theorem renewal_preserves_identity (icfg : IssuerConfig) (ops : List IdentityOp)
    (s s' : IdentityState) (acc : Accounts) (now : Instant) (signs : ℕ → Bool) (rows : List Cert)
    (hrun : exec (identityStep icfg) ⟨.empty, .empty⟩ ops = some s)
    (hg : Guarded (identityStep icfg) RenewsMatching ⟨.empty, .empty⟩ ops)
    (hm : RenewsMatching s (.renew acc now signs rows))
    (hstep : identityStep icfg s (.renew acc now signs rows) = some s') :
    (∀ sid c, s.vault.get sid = some c → ∃ c', s'.vault.get sid = some c' ∧
      c'.principals = c.principals) ∧
    (∀ sid host c, host ≠ sessionScope → s.vault.getHost sid host = some c →
      ∃ c', s'.vault.getHost sid host = some c' ∧ c'.principals = c.principals ∧
      c'.hostID = c.hostID) ∧
    (∀ cred ∈ s'.vault.rows, cred.serial ∉ revokedSerials s'.db) := by
  have hc : Consistent s := exec_invariant identityStep_consistent hg hrun consistent_empty
  have hk := renew_step hc hm hstep
  refine ⟨?_, ?_, ?_⟩
  · intro sid c hcred
    have hsession := hk.keeps.session sid
    rw [hcred, Option.map_some] at hsession
    exact Option.map_eq_some_iff.mp hsession
  · intro sid host c hne hcred
    exact ⟨c, (hk.keeps.host sid host hne).trans hcred, rfl, rfl⟩
  · intro cred hcred hrev
    rw [revokedSerials, List.mem_insertionSort] at hrev
    obtain ⟨r, hr, hserial⟩ := List.mem_map.mp hrev
    exact hk.consistent.unrevoked cred hcred r hr hserial

def halfDayIssuer : IssuerConfig where
  userCertTTL := 12 * hour
  certRenewBefore := 3 * hour
  instanceID := none

def noAccounts : Accounts := ⟨fun _ => none, fun _ => none⟩

def sampleHost : HostID := ⟨⟨3⟩, by decide⟩

def loginPrincipals : List String := [principalGlobal, principalUser "alice"]

def sampleIssue : IdentityOp := .issue 0 true ⟨1⟩ ⟨2⟩ "alice" loginPrincipals

def sessionRow : Cert := certRow halfDayIssuer 0 1 (sessionRequest ⟨1⟩ ⟨2⟩ "alice" loginPrincipals)

def sampleIssueForHost (now : Instant) : IdentityOp :=
  .issueForHost now true ⟨1⟩ ⟨2⟩ sampleHost "alice" "web" [principalGlobalLogin,
    principalUser "alice"]

/-- A host of the session, and another session, get theirs five hours later. -/
def sampleIssues : List IdentityOp :=
  [sampleIssue, sampleIssueForHost (5 * hour),
    .issue (5 * hour) true ⟨4⟩ ⟨5⟩ "bob" [principalUser "bob"]]

/-- The first session-level certificate alone is renewed in its last hours. -/
theorem renewal_preserves_identity_session : ∃ s s',
    exec (identityStep halfDayIssuer) ⟨.empty, .empty⟩ sampleIssues = some s ∧
    identityStep halfDayIssuer s (.renew noAccounts (10 * hour) (fun _ => true) [sessionRow]) =
      some s' ∧
    (∃ c', s'.vault.get ⟨1⟩ = some c' ∧ c'.principals = loginPrincipals) ∧
    (∃ c', s'.vault.get ⟨4⟩ = some c' ∧ c'.principals = [principalUser "bob"]) ∧
    (∃ c', s'.vault.getHost ⟨1⟩ sampleHost = some c' ∧
      c'.principals = scopeForHost [principalGlobalLogin, principalUser "alice"] sampleHost ∧
      c'.hostID = sampleHost) ∧
    ∀ cred ∈ s'.vault.rows, cred.serial ∉ revokedSerials s'.db := by
  refine ⟨_, _, rfl, rfl, ?_⟩
  obtain ⟨hsession, hhost, hrevoked⟩ := renewal_preserves_identity halfDayIssuer sampleIssues _ _
    noAccounts (10 * hour) (fun _ => true) [sessionRow] rfl (by decide +kernel)
    (by decide +kernel) rfl
  exact ⟨hsession ⟨1⟩ _ rfl, hsession ⟨4⟩ _ rfl, hhost ⟨1⟩ sampleHost _ (by decide) rfl, hrevoked⟩

def hostRow : Cert :=
  certRow halfDayIssuer minute 2 (hostRequest ⟨1⟩ ⟨2⟩ sampleHost "alice" "web"
    [principalGlobalLogin, principalUser "alice"])

/-- With the host's certificate among the expiring ones, the session-level
credential ends up without `fleet`, and the host's credential stays in the
vault under a revoked serial. -/
theorem renewal_of_host_row_breaks_identity : ∃ s s',
    exec (identityStep halfDayIssuer) ⟨.empty, .empty⟩ [sampleIssue,
      sampleIssueForHost minute] = some s ∧
    identityStep halfDayIssuer s
      (.renew noAccounts (10 * hour) (fun _ => true) [sessionRow, hostRow]) = some s' ∧
    (∃ c, s.vault.get ⟨1⟩ = some c ∧ principalGlobal ∈ c.principals) ∧
    (∃ c', s'.vault.get ⟨1⟩ = some c' ∧ principalGlobal ∉ c'.principals) ∧
    ∃ cred ∈ s'.vault.rows, cred.hostID = sampleHost ∧ cred.serial ∈ revokedSerials s'.db := by
  refine ⟨_, _, rfl, rfl, ⟨_, rfl, ?_⟩, ⟨_, rfl, ?_⟩, ?_⟩ <;> decide +kernel

end Moorgate.Identity
