import Moorgate.Framework.Base.HashChain
import Moorgate.Framework.Base.Table
import Moorgate.Models.Digest
import Moorgate.Models.Ids

/-!
# The audit log: `store/audit.go` and the audit part of `store/retention.go`

`audit_events` is a list of rows in `seq` order. What the code reads is a function of a row
(`COALESCE`, `host`, the JSON text of the scanned map), the same one in `AppendAudit` (through its
`RETURNING` clause) and in `VerifyAuditChain`. `AuditEnv` holds what the repository does not
contain: the two digests as hex strings, the UUID parser, and the casts of Postgres.
-/

namespace Moorgate.Store

open Framework Models

/-- `models.AuditEvent`, the fields `AppendAudit` reads. `detail` is the JSON
text of the map, `none` for the nil map. -/
structure AuditEvent where
  actorId : Option UUID
  (actorName action targetKind targetId ip : String)
  detail : Option String
deriving DecidableEq

structure AuditEnv extends Hashing where
  uuidParses : String → Bool -- `uuid.Parse(v)` returns no error
  castUUID : String → Option UUID -- `$1::uuid`, `none` when the cast fails
  castInet : String → Option String -- `$7::inet`
  host : String → String -- `host(ip)`
  castJsonb : String → Option String -- the `JSONB` value a JSON text is stored as
  detailJSON : String → String -- `json.Marshal` of the map that value scans into
  insertable : AuditEvent → Bool -- foreign key and text encoding allow the `INSERT`

def providerTenantID : String := "00000000-0000-0000-0000-000000000001"

/-- `tenant.Bypass`. -/
def tenantBypass : String := "bypass"

def auditAlgLegacy : Int16 := 1
def auditAlgHMAC : Int16 := 2

structure AuditRow where
  seq : ℤ
  (id tenantId : UUID)
  actorId : Option UUID
  actorName : Option String
  (action targetKind targetId : String)
  ip : Option String
  (detail prevHash hash : String)
  createdAt : Instant
  hashAlg : Int16
deriving DecidableEq

structure AuditTable where
  rows : List AuditRow
  sorted : rows.Pairwise fun a b => a.seq < b.seq

/-- The table with the identity sequence that numbers its rows. -/
structure AuditDb extends AuditTable where
  lastSeq : ℤ
  bounded : ∀ r ∈ rows, r.seq ≤ lastSeq

def AuditDb.empty : AuditDb where
  rows := []
  sorted := List.Pairwise.nil
  lastSeq := 0
  bounded := by simp

def nilUUID : Option UUID → String
  | none => ""
  | some u => u.string

/-- The tenant an event is tagged with: the caller's when the context is
scoped to one, else the Provider tenant. `guc` is `tenant.GUCValue(ctx)`. -/
def auditRowTenant (env : AuditEnv) (guc : String) : String :=
  if guc ≠ "" ∧ guc ≠ tenantBypass ∧ env.uuidParses guc = true then guc
  else providerTenantID

def auditCanonicalLegacy (actorID actorName action tk tid ip detailJSON : String) : String :=
  String.intercalate "|" [actorID, actorName, action, tk, tid, ip, detailJSON]

def auditCanonicalHMAC (seq : ℤ) (createdAt : Instant)
    (tenantID actorID actorName action tk tid ip detailJSON : String) : String :=
  String.intercalate "|" [toString seq, rfc3339Nano createdAt, tenantID, actorID, actorName,
    action, tk, tid, ip, detailJSON]

/-- What a digest is taken over. -/
def auditData (prev canonical : String) : String := prev ++ "|" ++ canonical

def auditMAC (env : AuditEnv) (alg : Int16) (key : Key) (prev canonical : String) : String :=
  if alg = auditAlgHMAC then env.hmac key (auditData prev canonical)
  else env.sha256 (auditData prev canonical)

theorem auditMAC_hex (env : AuditEnv) (alg : Int16) (key : Key) (prev canonical : String) :
    IsHexDigest (auditMAC env alg key prev canonical) := by
  unfold auditMAC
  split
  · exact env.hmac_hex _ _
  · exact env.sha256_hex _

/-- The canonical record of a row as it reads back, in the form its algorithm
asks for. -/
def AuditRow.canonical (env : AuditEnv) (r : AuditRow) : String :=
  let actorName := r.actorName.getD ""
  let ip := (r.ip.map env.host).getD ""
  if r.hashAlg = auditAlgHMAC then
    auditCanonicalHMAC r.seq r.createdAt r.tenantId.string (nilUUID r.actorId) actorName
      r.action r.targetKind r.targetId ip (env.detailJSON r.detail)
  else
    auditCanonicalLegacy (nilUUID r.actorId) actorName r.action r.targetKind r.targetId ip
      (env.detailJSON r.detail)

/-- `SELECT hash ... ORDER BY seq DESC LIMIT 1`; no row leaves `prev` empty. -/
def lastHash (rows : List AuditRow) : String := tip AuditRow.hash "" rows

/-- The casts of the `INSERT`. The hash is still the placeholder. -/
def insertedRow (env : AuditEnv) (guc : String) (alg : Int16) (prev : String) (seq : ℤ)
    (id : UUID) (now : Instant) (e : AuditEvent) : Option AuditRow := do
  let tenantId ← env.castUUID (auditRowTenant env guc)
  let ip ← castOrNull env.castInet e.ip
  let detail ← env.castJsonb (e.detail.getD emptyObject)
  if env.insertable e then
    some { seq, id, tenantId, actorId := e.actorId, actorName := nullIf e.actorName
           action := e.action, targetKind := e.targetKind, targetId := e.targetId, ip, detail
           prevHash := prev, hash := "", createdAt := now, hashAlg := alg }
  else none

/-- The row number the identity column hands out; a transaction that is rolled
back leaves a gap. -/
def AuditDb.burnSeq (db : AuditDb) : AuditDb :=
  { db with
    lastSeq := db.lastSeq + 1
    bounded := fun r hr => by have := db.bounded r hr; omega }

/-- Appends a row under the next number. -/
def AuditDb.append (db : AuditDb) (r : AuditRow) : AuditDb where
  rows := db.rows ++ [{ r with seq := db.lastSeq + 1 }]
  sorted := by
    refine List.pairwise_append.mpr ⟨db.sorted, List.pairwise_singleton _ _, ?_⟩
    intro a ha b hb
    have hle := db.bounded a ha
    rw [List.mem_singleton] at hb
    subst hb
    show a.seq < db.lastSeq + 1
    omega
  lastSeq := db.lastSeq + 1
  bounded := by
    intro r hr
    rcases List.mem_append.mp hr with hr | hr
    · have := db.bounded r hr
      omega
    · rw [List.mem_singleton] at hr
      subst hr
      exact le_refl _

/-- `AppendAudit`, one transaction under the advisory lock. `now` is the start
of that transaction, which may lie before the start of an earlier appender's:
the lock is taken after it. -/
def appendAudit (env : AuditEnv) (key : Key) (guc : String) (now : Instant) (id : UUID)
    (e : AuditEvent) (db : AuditDb) : Option AuditRow × AuditDb :=
  let alg := if key.length > 0 then auditAlgHMAC else auditAlgLegacy
  let prev := lastHash db.rows
  match insertedRow env guc alg prev (db.lastSeq + 1) id now e with
  | none => (none, db.burnSeq)
  | some row =>
    -- the placeholder row is read back and its hash written in the same transaction
    let hash := auditMAC env alg key row.prevHash (row.canonical env)
    (some { row with hash := hash }, db.append { row with hash := hash })

/-- `PruneAuditEventsBefore`: the rows deleted and the table left. -/
def pruneAuditEventsBefore (cutoff : Instant) (db : AuditDb) : ℕ × AuditDb :=
  ((db.rows.filter fun r => r.createdAt < cutoff).length,
    { db with
      rows := db.rows.filter fun r => !decide (r.createdAt < cutoff)
      sorted := db.sorted.filter _
      bounded := fun r hr => db.bounded r (List.mem_of_mem_filter hr) })

/-- The loop of `VerifyAuditChain`, from the hash of the row before. -/
def verifyFrom (env : AuditEnv) (key : Key) : String → List AuditRow → Bool × ℤ
  | _, [] => (true, 0)
  | prev, r :: rs =>
    let want := auditMAC env r.hashAlg key prev (r.canonical env)
    if r.prevHash ≠ prev ∨ r.hash ≠ want then (false, r.seq)
    else verifyFrom env key r.hash rs

/-- `VerifyAuditChain`: whether the chain is intact, and where it breaks. -/
def verifyAuditChain (env : AuditEnv) (key : Key) (t : AuditTable) : Bool × ℤ :=
  verifyFrom env key "" t.rows

/-! ## The verifier accepts exactly the linked tables -/

/-- What the verifier asks of one row, given the hash of the row before. -/
def RowOk (env : AuditEnv) (key : Key) (prev : String) (r : AuditRow) : Prop :=
  r.prevHash = prev ∧ r.hash = auditMAC env r.hashAlg key prev (r.canonical env)

variable {env : AuditEnv} {key : Key}

theorem RowOk.prevHash_eq (q : String) (r : AuditRow) (h : RowOk env key q r) : r.prevHash = q :=
  h.1

theorem verifyFrom_intact_iff {p : String} {rs : List AuditRow} :
    verifyFrom env key p rs = (true, 0) ↔ Linked (RowOk env key) AuditRow.hash p rs := by
  induction rs generalizing p with
  | nil => simp [verifyFrom]
  | cons r rs ih =>
    rw [verifyFrom, linked_cons]
    by_cases h : RowOk env key p r
    · rw [if_neg (by simpa [not_or, RowOk] using h), ih]
      exact ⟨fun hrs => ⟨h, hrs⟩, fun hrs => hrs.2⟩
    · have hbroken : r.prevHash ≠ p ∨ r.hash ≠ auditMAC env r.hashAlg key p (r.canonical env) := by
        by_contra hc
        rw [not_or, not_not, not_not] at hc
        exact h hc
      rw [if_pos hbroken]
      simp [h]

theorem verifyAuditChain_intact_iff {t : AuditTable} :
    verifyAuditChain env key t = (true, 0) ↔ Linked (RowOk env key) AuditRow.hash "" t.rows :=
  verifyFrom_intact_iff

/-! ## What one append does -/

theorem insertedRow_spec {guc prev : String} {alg : Int16} {seq : ℤ} {id : UUID}
    {now : Instant} {e : AuditEvent} {row : AuditRow}
    (h : insertedRow env guc alg prev seq id now e = some row) :
    row.seq = seq ∧ row.prevHash = prev ∧ row.hashAlg = alg := by
  simp only [insertedRow, Option.bind_eq_bind, Option.bind_eq_some_iff] at h
  obtain ⟨_, _, _, _, _, _, h⟩ := h
  split at h
  · cases h
    exact ⟨rfl, rfl, rfl⟩
  · cases h

/-- An append either leaves the rows alone or adds one row, linked to the last
one under the key in force. -/
theorem appendAudit_rows (env : AuditEnv) (key : Key) (guc : String) (now : Instant) (id : UUID)
    (e : AuditEvent) (db : AuditDb) :
    (appendAudit env key guc now id e db).2.rows = db.rows ∨ ∃ row : AuditRow,
      (appendAudit env key guc now id e db).2.rows = db.rows ++ [row] ∧
      row.hashAlg = (if key.length > 0 then auditAlgHMAC else auditAlgLegacy) ∧
      RowOk env key (lastHash db.rows) row := by
  set alg := if key.length > 0 then auditAlgHMAC else auditAlgLegacy with halgdef
  cases hins : insertedRow env guc alg (lastHash db.rows) (db.lastSeq + 1) id now e with
  | none =>
    simp [appendAudit, ← halgdef, hins, AuditDb.burnSeq]
  | some row =>
    obtain ⟨hseq, hprev, halg⟩ := insertedRow_spec hins
    have happ : (appendAudit env key guc now id e db).2.rows =
        db.rows ++ [{ row with
          seq := db.lastSeq + 1
          hash := auditMAC env alg key row.prevHash (row.canonical env) }] := by
      simp only [appendAudit, ← halgdef, hins, AuditDb.append]
    rw [← hseq] at happ
    refine Or.inr ⟨_, happ, halg, hprev, ?_⟩
    show auditMAC env alg key row.prevHash (row.canonical env) =
      auditMAC env row.hashAlg key (lastHash db.rows) (row.canonical env)
    rw [halg, hprev]

end Moorgate.Store
