import Mathlib.Data.List.Sort
import Moorgate.Framework.Base.Table
import Moorgate.Models.Ids

/-!
# Issued certificates and revocations: `store/certs.go`

`ssh_certificates` holds what was issued, `cert_revocations` the serials that go into the
revocation list, each with a reason and the time of the revocation. Each function is one statement
or one transaction.
-/

namespace Moorgate.Store

open Framework Models

inductive CertKind where
  | user | host
deriving DecidableEq

structure Cert where
  serial : ℕ
  kind : CertKind
  (userId sessionId hostId instanceId : Option UUID)
  keyId : String
  principals : List String
  (issuedAt expiresAt : Instant)
  revokedAt : Option Instant
  revokeReason : String
deriving DecidableEq

structure Revocation where
  serial : ℕ
  reason : String
  revokedAt : Instant
deriving DecidableEq

/-- The two tables, and the last value of `ssh_cert_serial_seq`. -/
structure CertDb where
  certs : Table Cert.serial
  revocations : Table Revocation.serial
  lastSerial : ℕ

def CertDb.empty : CertDb := ⟨.empty, .empty, 0⟩

def nextCertSerial (db : CertDb) : ℕ × CertDb :=
  (db.lastSerial + 1, { db with lastSerial := db.lastSerial + 1 })

/-- `none` when the serial is taken. -/
def insertCertificate (c : Cert) (db : CertDb) : Option CertDb :=
  (db.certs.insert c).map fun certs => { db with certs }

/-- `SET revoked_at=now(), revoke_reason=$2`. -/
def Cert.revoke (now : Instant) (reason : String) (c : Cert) : Cert :=
  { c with revokedAt := some now, revokeReason := reason }

/-- `INSERT INTO cert_revocations … ON CONFLICT (serial) DO NOTHING`, for each
serial. -/
def recordRevocations (now : Instant) (reason : String) (serials : List ℕ)
    (t : Table Revocation.serial) : Table Revocation.serial :=
  serials.foldl (fun t serial => t.insertNew ⟨serial, reason, now⟩) t

/-- `UPDATE ssh_certificates … WHERE … RETURNING serial`, then the serials into
the revocation table: how many there were, and the tables. -/
def revokeWhere (now : Instant) (reason : String) (p : Cert → Bool) (db : CertDb) : ℕ × CertDb :=
  let serials := (db.certs.select p).map Cert.serial
  (serials.length,
    { db with
      certs := db.certs.update p (Cert.revoke now reason) fun _ => rfl
      revocations := recordRevocations now reason serials db.revocations })

/-- The serial is recorded whether or not it was issued, and a row that is
revoked already gets the new time and reason. -/
def revokeCertificate (now : Instant) (serial : ℕ) (reason : String) (db : CertDb) : CertDb :=
  { db with
    certs := db.certs.update (fun c => decide (c.serial = serial)) (Cert.revoke now reason)
      fun _ => rfl
    revocations := recordRevocations now reason [serial] db.revocations }

def revokeSessionCertificates (now : Instant) (sessionID : UUID) (reason : String) :
    CertDb → ℕ × CertDb :=
  revokeWhere now reason fun c => decide (c.sessionId = some sessionID) && c.revokedAt.isNone

def pruneExpiredRevocations (before : Instant) (db : CertDb) : CertDb :=
  { db with revocations := db.revocations.delete fun r => decide (r.revokedAt < before) }

def revokedSerials (db : CertDb) : List ℕ :=
  (db.revocations.rows.map Revocation.serial).insertionSort (· ≤ ·)

/-- User certificates that are not revoked and expire before `before`, the
earliest first. -/
def expiringCertificates (before : Instant) (db : CertDb) : List Cert :=
  (db.certs.select fun c =>
      decide (c.kind = .user) && c.revokedAt.isNone && decide (c.expiresAt < before)).insertionSort
    fun c d => c.expiresAt ≤ d.expiresAt

/-! ## What the statements leave -/

variable {now : Instant} {reason : String} {serials : List ℕ} {t : Table Revocation.serial}

theorem mem_recordRevocations_of_mem {r : Revocation} (h : r ∈ t.rows) :
    r ∈ (recordRevocations now reason serials t).rows := by
  induction serials generalizing t with
  | nil => exact h
  | cons serial serials ih => exact ih (Table.mem_insertNew_of_mem h)

theorem mem_recordRevocations {r : Revocation}
    (h : r ∈ (recordRevocations now reason serials t).rows) :
    r ∈ t.rows ∨ (r.serial ∈ serials ∧ r.revokedAt = now) := by
  induction serials generalizing t with
  | nil => exact .inl h
  | cons serial serials ih =>
    rcases ih h with h | ⟨hs, hnow⟩
    · rcases Table.mem_insertNew h with h | rfl
      · exact .inl h
      · exact .inr ⟨List.mem_cons_self, rfl⟩
    · exact .inr ⟨List.mem_cons_of_mem _ hs, hnow⟩

theorem exists_mem_recordRevocations {n : ℕ} (h : n ∈ serials) :
    ∃ r ∈ (recordRevocations now reason serials t).rows, r.serial = n := by
  induction serials generalizing t with
  | nil => cases h
  | cons serial serials ih =>
    rcases List.mem_cons.mp h with rfl | h
    · obtain ⟨r, hr, hkey⟩ := t.exists_key_insertNew ⟨n, reason, now⟩
      have hrest : r ∈ (recordRevocations now reason serials
          (t.insertNew ⟨n, reason, now⟩)).rows := mem_recordRevocations_of_mem hr
      exact ⟨r, hrest, hkey⟩
    · exact ih h

section

variable {now : Instant} {reason : String} {p : Cert → Bool} {t : Table Cert.serial} {c : Cert}

theorem exists_mem_revoke (h : c ∈ t.rows) :
    ∃ c' ∈ (t.update p (Cert.revoke now reason) fun _ => rfl).rows,
      c'.serial = c.serial ∧ c'.sessionId = c.sessionId := by
  refine ⟨_, List.mem_map_of_mem h, ?_⟩
  by_cases hp : p c
  · simp [hp, Cert.revoke]
  · simp [hp]

theorem exists_of_mem_revoke (h : c ∈ (t.update p (Cert.revoke now reason) fun _ => rfl).rows) :
    ∃ d ∈ t.rows, c.serial = d.serial ∧ c.issuedAt = d.issuedAt ∧ c.expiresAt = d.expiresAt ∧
      (p d ∨ c.revokedAt = d.revokedAt) := by
  obtain ⟨d, hd, rfl⟩ := List.mem_map.mp h
  refine ⟨d, hd, ?_⟩
  by_cases hp : p d
  · simp [hp, Cert.revoke]
  · simp [hp]

end

variable {db : CertDb}

variable {p : Cert → Bool} {c : Cert}

theorem mem_certs_revokeWhere : c ∈ (revokeWhere now reason p db).2.certs.rows ↔
      ∃ d ∈ db.certs.rows, (if p d then d.revoke now reason else d) = c :=
  List.mem_map

/-- The session has a certificate that is not revoked. -/
def HasLiveCert (db : CertDb) (sid : UUID) : Prop :=
  ∃ c ∈ db.certs.rows, c.sessionId = some sid ∧ c.revokedAt = none

instance (db : CertDb) (sid : UUID) : Decidable (HasLiveCert db sid) :=
  inferInstanceAs (Decidable (∃ c ∈ db.certs.rows, _ ∧ _))

theorem not_hasLiveCert_revokeSessionCertificates (now : Instant) (sid : UUID) (reason : String)
    (db : CertDb) : ¬ HasLiveCert (revokeSessionCertificates now sid reason db).2 sid := by
  rintro ⟨c, hc, hsid, hlive⟩
  obtain ⟨d, -, rfl⟩ := mem_certs_revokeWhere.mp hc
  by_cases hp : (decide (d.sessionId = some sid) && d.revokedAt.isNone)
  · simp [hp, Cert.revoke] at hlive
  · simp only [if_neg hp] at hsid hlive
    exact hp (by simp [hsid, hlive])

theorem HasLiveCert.of_revokeWhere
    {sid : UUID} (h : HasLiveCert (revokeWhere now reason p db).2 sid) : HasLiveCert db sid := by
  obtain ⟨c, hc, hsid, hlive⟩ := h
  obtain ⟨d, hd, rfl⟩ := mem_certs_revokeWhere.mp hc
  by_cases hp : p d
  · simp [hp, Cert.revoke] at hlive
  · simp only [if_neg hp] at hsid hlive
    exact ⟨d, hd, hsid, hlive⟩

theorem HasLiveCert.revokeSessionCertificates {id sid : UUID} (h : HasLiveCert db sid)
    (hne : sid ≠ id) (now : Instant) (reason : String) :
    HasLiveCert (revokeSessionCertificates now id reason db).2 sid := by
  obtain ⟨c, hc, hsid, hlive⟩ := h
  refine ⟨c, mem_certs_revokeWhere.mpr ⟨c, hc, ?_⟩, hsid, hlive⟩
  have hother : c.sessionId ≠ some id := by
    rw [hsid]
    exact fun heq => hne (Option.some.inj heq)
  rw [decide_eq_false hother]
  rfl

theorem HasLiveCert.of_insertCertificate {db' : CertDb} {sid : UUID}
    (hins : insertCertificate c db = some db') (h : HasLiveCert db' sid) :
    HasLiveCert db sid ∨ c.sessionId = some sid := by
  obtain ⟨certs, hcerts, rfl⟩ := Option.map_eq_some_iff.mp hins
  obtain ⟨d, hd, hsid, hlive⟩ := h
  rcases (Table.mem_insert hcerts).mp hd with hd | rfl
  · exact .inl ⟨d, hd, hsid, hlive⟩
  · exact .inr hsid

end Moorgate.Store
