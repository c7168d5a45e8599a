import Moorgate.Framework.Base.Runs
import Moorgate.Identity.Issuer

/-!
# The revocation list: `krl/krl.go` and `distributeKRL` of `api/server.go`

Hosts reject the certificates whose serials are in the list they were last given. Entries of
`cert_revocations` are dropped when the revocation is older than one certificate lifetime. That is
sound as long as a certificate is not revoked before it is issued, and the lifetime in the
configuration is at least the one it was issued with. On top of that the read of the serials may
fail, and the list is then built from what was read.
-/

namespace Moorgate.Krl

open Framework Models Store Identity

/-! ## Building and distributing -/

structure RevocationList where
  caAuthorizedKeys : List String
  serials : List ℕ
deriving DecidableEq

/-- `keygen` is the error of the files and of `ssh-keygen`, if there is one. -/
def build (caAuthorizedKeys : List String) (serials : List ℕ) (keygen : Option String) :
    Except String RevocationList :=
  if caAuthorizedKeys = [] then .error "no CA public keys"
  else
    match keygen with
    | some err => .error err
    | none => .ok ⟨caAuthorizedKeys, serials⟩

/-- How the calls of one `distributeKRL` go. A failed read of the serials
returns the rows that came before the error. -/
structure Outcome where
  (available prunes : Bool)
  caKeys : List String
  serialsFailAfter : Option ℕ
  keygen : Option String

def Outcome.read (o : Outcome) (serials : List ℕ) : List ℕ :=
  match o.serialsFailAfter with
  | none => serials
  | some n => serials.take n

/-- The list that is pushed to the hosts. The errors of the pruning and of both
reads are dropped. -/
def distributeKRL (icfg : IssuerConfig) (now : Instant) (o : Outcome) (db : CertDb) :
    Except String RevocationList × CertDb :=
  if o.available then
    let db' := if o.prunes then pruneExpiredRevocations (now - icfg.userCertTTL) db else db
    (build o.caKeys (o.read (revokedSerials db')) o.keygen, db')
  else (.error "ssh-keygen not available", db)

/-! ## Runs -/

inductive KrlOp where
  | issue (signs : Bool) (req : IssueRequest)
  | revokeCertificate (serial : ℕ) (reason : String)
  | revokeSessionCertificates (sessionID : UUID) (reason : String)
  | pruneExpiredRevocations
  | distributeKRL (o : Outcome)
  | restart (icfg : IssuerConfig)

structure KrlState where
  clock : Instant
  icfg : IssuerConfig
  ids : IdentityState

def KrlState.db (s : KrlState) : CertDb := s.ids.db

def KrlState.fresh (icfg : IssuerConfig) : KrlState := ⟨0, icfg, ⟨.empty, .empty⟩⟩

/-- What an operation does at `s.clock`. A restart loses the vault. -/
def krlEffect (s : KrlState) : KrlOp → KrlState
  | .issue signs req => { s with ids := (issue s.icfg s.clock signs req s.ids).2 }
  | .revokeCertificate serial reason =>
    { s with ids.db := revokeCertificate s.clock serial reason s.db }
  | .revokeSessionCertificates sessionID reason =>
    { s with ids.db := (revokeSessionCertificates s.clock sessionID reason s.db).2 }
  | .pruneExpiredRevocations =>
    { s with ids.db := pruneExpiredRevocations (s.clock - s.icfg.userCertTTL) s.db }
  | .distributeKRL o => { s with ids.db := (distributeKRL s.icfg s.clock o s.db).2 }
  | .restart icfg => { s with icfg, ids.vault := .empty }

def KrlState.at (s : KrlState) (now : Instant) : KrlState := { s with clock := now }

/-- Time does not go back. -/
def krlStep (s : KrlState) (l : Instant × KrlOp) : Option KrlState :=
  if s.clock ≤ l.1 then some (krlEffect (s.at l.1) l.2) else none

/-! ## What the tables record -/

/-- Every revoked certificate that is still valid has its entry, and no entry
is older than its certificate. -/
structure Recorded (s : KrlState) : Prop where
  certBound : ∀ c ∈ s.db.certs.rows, c.serial ≤ s.db.lastSerial
  revBound : ∀ r ∈ s.db.revocations.rows, r.serial ≤ s.db.lastSerial
  issued : ∀ c ∈ s.db.certs.rows, c.issuedAt ≤ s.clock
  listed : ∀ c ∈ s.db.certs.rows, c.revokedAt.isSome → s.clock < c.expiresAt →
    ∃ r ∈ s.db.revocations.rows, r.serial = c.serial
  after : ∀ c ∈ s.db.certs.rows, ∀ r ∈ s.db.revocations.rows, r.serial = c.serial →
    c.issuedAt ≤ r.revokedAt

/-- The lifetime in force covers every revoked certificate that is still
valid. -/
def LifetimesCovered (s : KrlState) : Prop :=
  ∀ c ∈ s.db.certs.rows, c.revokedAt.isSome → s.clock < c.expiresAt →
    c.expiresAt ≤ c.issuedAt + s.icfg.userCertTTL

instance (s : KrlState) : Decidable (LifetimesCovered s) :=
  inferInstanceAs (Decidable (∀ c ∈ s.db.certs.rows, _ → _ → _))

/-- Only serials that were drawn are revoked, and pruning happens under a
lifetime that covers what is revoked. -/
def Sound (s : KrlState) (l : Instant × KrlOp) : Prop :=
  match l.2 with
  | .revokeCertificate serial _ => serial ≤ s.db.lastSerial
  | .pruneExpiredRevocations => LifetimesCovered (s.at l.1)
  | .distributeKRL o => o.prunes → LifetimesCovered (s.at l.1)
  | _ => True

instance (s : KrlState) (l : Instant × KrlOp) : Decidable (Sound s l) := by
  unfold Sound
  split <;> infer_instance

theorem recorded_fresh (icfg : IssuerConfig) : Recorded (.fresh icfg) where
  certBound _ h := nomatch h
  revBound _ h := nomatch h
  issued _ h := nomatch h
  listed _ h := nomatch h
  after _ h := nomatch h

variable {s : KrlState}

theorem Recorded.at (hr : Recorded s) {now : Instant} (hnow : s.clock ≤ now) :
    Recorded (s.at now) where
  certBound := hr.certBound
  revBound := hr.revBound
  issued c hc := le_trans (hr.issued c hc) hnow
  listed c hc hrev hvalid := hr.listed c hc hrev (lt_of_le_of_lt hnow hvalid)
  after := hr.after

theorem Recorded.issue (hr : Recorded s) (signs : Bool) (req : IssueRequest) :
    Recorded (krlEffect s (.issue signs req)) := by
  have hskip : Recorded { s with ids.db := (nextCertSerial s.db).2 } :=
    ⟨fun c hc => Nat.le_succ_of_le (hr.certBound c hc),
      fun r h => Nat.le_succ_of_le (hr.revBound r h), hr.issued, hr.listed, hr.after⟩
  rcases issue_cases s.icfg s.clock signs req s.ids with heq | ⟨certs, hins, heq⟩
  · simp only [krlEffect, heq]
    exact hskip
  · simp only [krlEffect, heq]
    refine ⟨?_, hskip.revBound, ?_, ?_, ?_⟩
    · exact Table.forall_insert hins hskip.certBound le_rfl
    · exact Table.forall_insert hins hr.issued le_rfl
    · exact Table.forall_insert hins hr.listed nofun
    · -- the new serial is above every serial that has an entry
      refine Table.forall_insert hins hr.after fun r hmem hserial => ?_
      have hle : r.serial ≤ s.db.lastSerial := hr.revBound r hmem
      have hnew : r.serial = s.db.lastSerial + 1 := hserial
      omega

theorem Recorded.revoke (hr : Recorded s) {reason : String} {p : Cert → Bool}
    {serials : List ℕ} (hp : ∀ c ∈ s.db.certs.rows, p c → c.serial ∈ serials)
    (hserials : ∀ n ∈ serials, n ≤ s.db.lastSerial) : Recorded { s with ids.db := { s.db with
      certs := s.db.certs.update p (Cert.revoke s.clock reason) fun _ => rfl
      revocations := recordRevocations s.clock reason serials s.db.revocations } } where
  certBound c hc := by
    obtain ⟨d, hd, hserial, -⟩ := exists_of_mem_revoke hc
    exact hserial ▸ hr.certBound d hd
  revBound r h := by
    rcases mem_recordRevocations h with h | ⟨h, -⟩
    · exact hr.revBound r h
    · exact hserials _ h
  issued c hc := by
    obtain ⟨d, hd, -, hissued, -⟩ := exists_of_mem_revoke hc
    exact hissued ▸ hr.issued d hd
  listed c hc hrev hvalid := by
    obtain ⟨d, hd, hserial, -, hexpires, hcase⟩ := exists_of_mem_revoke hc
    rw [hserial]
    rcases hcase with hpd | hsame
    · exact exists_mem_recordRevocations (hp d hd hpd)
    · obtain ⟨r, h, hkey⟩ := hr.listed d hd (hsame ▸ hrev) (hexpires ▸ hvalid)
      exact ⟨r, mem_recordRevocations_of_mem h, hkey⟩
  after c hc r h hkey := by
    obtain ⟨d, hd, hserial, hissued, -⟩ := exists_of_mem_revoke hc
    rw [hissued]
    rcases mem_recordRevocations h with h | ⟨-, hnow⟩
    · exact hr.after d hd r h (hkey.trans hserial)
    · exact hnow ▸ hr.issued d hd

/-- Pruning drops the entries of expired certificates only: an entry that old
is of a certificate issued more than a lifetime ago. -/
theorem Recorded.prune (hr : Recorded s) (hcov : LifetimesCovered s) : Recorded { s with
      ids.db := pruneExpiredRevocations (s.clock - s.icfg.userCertTTL) s.db } where
  certBound := hr.certBound
  revBound r h := hr.revBound r (Table.mem_delete.mp h).1
  issued := hr.issued
  listed c hc hrev hvalid := by
    obtain ⟨r, h, hkey⟩ := hr.listed c hc hrev hvalid
    have hafter : c.issuedAt ≤ r.revokedAt := hr.after c hc r h hkey
    have hlife : c.expiresAt ≤ c.issuedAt + s.icfg.userCertTTL := hcov c hc hrev hvalid
    have hkept : s.clock - s.icfg.userCertTTL ≤ r.revokedAt := by
      linarith
    exact ⟨r, Table.mem_delete.mpr ⟨h, by simpa using hkept⟩, hkey⟩
  after c hc r h := hr.after c hc r (Table.mem_delete.mp h).1

theorem Recorded.distribute (hr : Recorded s) (o : Outcome) (hcov : o.prunes → LifetimesCovered s) :
    Recorded (krlEffect s (.distributeKRL o)) := by
  unfold krlEffect distributeKRL
  by_cases ha : o.available
  · by_cases hprunes : o.prunes
    · simp only [ha, hprunes, if_true]
      exact hr.prune (hcov hprunes)
    · simp only [ha, hprunes, if_true]
      exact hr
  · simp only [ha]
    exact hr

theorem krlStep_recorded {s' : KrlState} {l : Instant × KrlOp} (hr : Recorded s)
    (hsound : Sound s l) (hstep : krlStep s l = some s') : Recorded s' := by
  obtain ⟨now, op⟩ := l
  unfold krlStep at hstep
  split at hstep
  · rename_i hnow
    cases hstep
    have hr := hr.at hnow
    cases op with
    | issue signs req => exact hr.issue signs req
    | revokeCertificate serial reason =>
      refine hr.revoke ?_ ?_
      · intro c _ hp
        rw [List.mem_singleton]
        exact of_decide_eq_true hp
      · intro n hn
        rw [List.mem_singleton] at hn
        subst hn
        exact hsound
    | revokeSessionCertificates sessionID reason =>
      refine hr.revoke ?_ ?_
      · intro c hc hp
        exact List.mem_map_of_mem (Table.mem_select.mpr ⟨hc, hp⟩)
      · intro n hn
        obtain ⟨c, hc, rfl⟩ := List.mem_map.mp hn
        exact hr.certBound c (Table.mem_select.mp hc).1
    | pruneExpiredRevocations => exact hr.prune hsound
    | distributeKRL o => exact hr.distribute o hsound
    | restart icfg => exact ⟨hr.certBound, hr.revBound, hr.issued, hr.listed, hr.after⟩
  · cases hstep

/-! ## What is pushed -/

theorem serials_of_distributeKRL {icfg : IssuerConfig} {now : Instant} {o : Outcome} {db : CertDb}
    {krl : RevocationList} (hread : o.serialsFailAfter = none)
    (hok : (distributeKRL icfg now o db).1 = .ok krl) :
    krl.serials = revokedSerials (distributeKRL icfg now o db).2 := by
  unfold distributeKRL build Outcome.read at *
  by_cases ha : o.available
  · simp only [ha, if_true, hread] at hok ⊢
    split at hok
    · cases hok
    split at hok
    · cases hok
    · cases hok
      rfl
  · simp only [ha] at hok
    cases hok

/-- **A pushed list never un-revokes**, in the runs that revoke only serials
that were drawn and prune only under a lifetime that covers what is revoked,
when the read of the serials succeeds: it has the serial of every revoked
certificate that is still valid. -/
theorem pushed_krl_complete (icfg : IssuerConfig) (ls : List (Instant × KrlOp)) (s : KrlState)
    (now : Instant) (o : Outcome) (krl : RevocationList)
    (hrun : exec krlStep (.fresh icfg) ls = some s) (hg : Guarded krlStep Sound (.fresh icfg) ls)
    (hnow : s.clock ≤ now) (hsound : Sound s (now, .distributeKRL o))
    (hread : o.serialsFailAfter = none) (hok : (distributeKRL s.icfg now o s.db).1 = .ok krl) :
    ∀ c ∈ s.db.certs.rows, c.revokedAt.isSome → now < c.expiresAt → c.serial ∈ krl.serials := by
  have hr : Recorded s := exec_invariant krlStep_recorded hg hrun (recorded_fresh icfg)
  have hr' : Recorded (krlEffect (s.at now) (.distributeKRL o)) := (hr.at hnow).distribute o hsound
  intro c hc hrev hvalid
  -- distributing leaves the certificates as they are
  have hcerts : (distributeKRL s.icfg now o s.db).2.certs = s.db.certs := by
    unfold distributeKRL pruneExpiredRevocations
    split
    · split <;> rfl
    · rfl
  have hc' : c ∈ (krlEffect (s.at now) (.distributeKRL o)).db.certs.rows := by
    show c ∈ (distributeKRL s.icfg now o s.db).2.certs.rows
    rw [hcerts]
    exact hc
  obtain ⟨r, h, hkey⟩ := hr'.listed c hc' hrev hvalid
  rw [serials_of_distributeKRL hread hok, revokedSerials, List.mem_insertionSort, ← hkey]
  exact List.mem_map_of_mem h

def lifetime (ttl : Duration) : IssuerConfig := ⟨ttl, 3 * hour, none⟩

def workingOutcome : Outcome := ⟨true, true, ["ca"], none, none⟩

def issueToAlice : KrlOp := .issue true (sessionRequest ⟨1⟩ ⟨2⟩ "alice" ["fleet"])

def issueAndRevoke : List (Instant × KrlOp) :=
  [(0, issueToAlice), (minute, .revokeCertificate 1 "lost")]

theorem pushed_krl_complete_revoked :
    ∃ s krl, exec krlStep (.fresh (lifetime (12 * hour))) issueAndRevoke = some s ∧
    (distributeKRL s.icfg hour workingOutcome s.db).1 = .ok krl ∧ 1 ∈ krl.serials := by
  refine ⟨_, _, rfl, rfl, ?_⟩
  exact pushed_krl_complete (lifetime (12 * hour)) issueAndRevoke _ hour workingOutcome _ rfl
    (by decide +kernel) (by decide +kernel) (by decide +kernel) rfl rfl _ List.mem_cons_self rfl
    (by decide +kernel)

/-- The distribution pushes a list without the serial of a revoked certificate
that is still valid. -/
def Unrevokes (s : KrlState) (now : Instant) (o : Outcome) : Prop :=
  ∃ krl, (distributeKRL s.icfg now o s.db).1 = .ok krl ∧
    ∃ c ∈ s.db.certs.rows, c.revokedAt.isSome ∧ now < c.expiresAt ∧ c.serial ∉ krl.serials

/-- Each of the conditions is needed: the list is pushed empty when the read of
the serials fails, after a restart with a shorter lifetime, and for a serial
that was revoked before it was issued. -/
theorem pushed_krl_unrevokes :
    (∃ s, exec krlStep (.fresh (lifetime (12 * hour))) issueAndRevoke = some s ∧
      Unrevokes s hour { workingOutcome with serialsFailAfter := some 0 }) ∧
    (∃ s, exec krlStep (.fresh (lifetime (12 * hour)))
        (issueAndRevoke ++ [(hour, .restart (lifetime hour))]) = some s ∧
      Unrevokes s (2 * hour) workingOutcome) ∧
    (∃ s, exec krlStep (.fresh (lifetime (12 * hour)))
        [(0, .revokeCertificate 1 "typo"), (hour, issueToAlice),
          (2 * hour, .revokeCertificate 1 "lost")] = some s ∧
      Unrevokes s (12 * hour + minute) workingOutcome) := by
  refine ⟨⟨_, rfl, _, rfl, ?_⟩, ⟨_, rfl, _, rfl, ?_⟩, ⟨_, rfl, _, rfl, ?_⟩⟩ <;> decide +kernel

end Moorgate.Krl
