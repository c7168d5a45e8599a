import Moorgate.Framework.Base.Runs
import Moorgate.Framework.Base.Text
import Moorgate.Store.Audit

/-!
# Runs of the audit log

The program appends to `audit_events`, each time in a transaction under the advisory lock, and
prunes. The chain is keyless for an initial part of the run and keyed by one key afterwards.

The verifier starts from the empty hash, and retention deletes by `created_at`. A prune keeps the
table verifiable when what it leaves is an initial part of the chain; dropping the oldest rows
leaves a first row that names a hash the verifier no longer has.
-/

namespace Moorgate.Audit

open Framework Models Store

inductive AuditOp where
  | append (guc : String) (now : Instant) (id : UUID) (e : AuditEvent)
  | prune (cutoff : Instant)

/-- One operation under the key in force. A failed append is a step too. -/
def auditStep (env : AuditEnv) (key : Key) (db : AuditDb) : AuditOp → AuditDb
  | .append guc now id e => (appendAudit env key guc now id e db).2
  | .prune cutoff => (pruneAuditEventsBefore cutoff db).2

def runAudit (env : AuditEnv) (key : Key) (db : AuditDb) (ops : List AuditOp) : AuditDb :=
  ops.foldl (auditStep env key) db

/-- What a prune leaves is an initial part of the table: it drops nothing, or
everything from some row on. -/
def PrunesTail (db : AuditDb) : AuditOp → Prop
  | .append _ _ _ _ => True
  | .prune cutoff => (pruneAuditEventsBefore cutoff db).2.rows <+: db.rows

instance (db : AuditDb) (op : AuditOp) : Decidable (PrunesTail db op) := by
  unfold PrunesTail
  split <;> infer_instance

def Intact (env : AuditEnv) (key : Key) (db : AuditDb) : Prop :=
  Linked (RowOk env key) AuditRow.hash "" db.rows

theorem intact_empty (env : AuditEnv) (key : Key) : Intact env key .empty := trivial

variable {env : AuditEnv} {key : Key} {prev : String}

theorem rowOk_of_keyless {r : AuditRow}
    (halg : r.hashAlg = auditAlgLegacy) (h : RowOk env [] prev r) : RowOk env key prev r := by
  refine ⟨h.1, h.2.trans ?_⟩
  have hne : r.hashAlg ≠ auditAlgHMAC := by
    rw [halg]
    decide
  rw [auditMAC, if_neg hne, auditMAC, if_neg hne]

/-- Appending under no key, or under the key the table is verified with, keeps
it intact. -/
theorem append_intact {key' : Key} {db : AuditDb} (hkey : key' = [] ∨ key' = key)
    (guc : String) (now : Instant) (id : UUID) (e : AuditEvent) (h : Intact env key db) :
    Intact env key (appendAudit env key' guc now id e db).2 := by
  unfold Intact
  rcases appendAudit_rows env key' guc now id e db with hrows | ⟨row, hrows, halg, hok⟩
  · rwa [hrows]
  rw [hrows]
  refine h.snoc ?_
  rcases hkey with rfl | rfl
  · exact rowOk_of_keyless halg hok
  · exact hok

theorem auditStep_intact {key' : Key} (hkey : key' = [] ∨ key' = key)
    {db : AuditDb} {op : AuditOp} (h : Intact env key db) (hop : PrunesTail db op) :
    Intact env key (auditStep env key' db op) := by
  cases op with
  | append guc now id e => exact append_intact hkey guc now id e h
  | prune cutoff => exact h.of_prefix hop

/-- **Runs whose prunes only cut the tail verify.** The operations of `keyless`
run before a key is configured, those of `keyed` after. -/
theorem verify_intact_of_prunesTail (env : AuditEnv) (key : Key) (keyless keyed : List AuditOp)
    (g₁ : Guarded (always (auditStep env [])) PrunesTail .empty keyless)
    (g₂ : Guarded (always (auditStep env key)) PrunesTail (runAudit env [] .empty keyless) keyed) :
    verifyAuditChain env key
      (runAudit env key (runAudit env [] .empty keyless) keyed).toAuditTable = (true, 0) := by
  rw [verifyAuditChain_intact_iff]
  have hmid : Intact env key (runAudit env [] .empty keyless) :=
    foldl_invariant (auditStep_intact (Or.inl rfl)) g₁ (intact_empty env key)
  exact foldl_invariant (auditStep_intact (Or.inr rfl)) g₂ hmid

/-! ## A platform to run on -/

/-- A database that stores what it is given. -/
def plainEnv : AuditEnv where
  toHashing := freeHashing
  uuidParses s := s = providerTenantID
  castUUID s := if s = providerTenantID then some ⟨1⟩ else none
  castInet := some
  host := id
  castJsonb := some
  detailJSON := id
  insertable _ := true

def loginEvent (user : String) : AuditEvent where
  actorId := none
  actorName := user
  action := "auth.login"
  targetKind := "user"
  targetId := user
  ip := "10.0.0.1"
  detail := none

def keylessPart : List AuditOp := [.append "" 20 ⟨1⟩ (loginEvent "alice")]

/-- A transaction that began before the one already logged, and a prune that
takes only its row. -/
def keyedPart : List AuditOp := [.append "" 10 ⟨2⟩ (loginEvent "bob"), .prune 15]

theorem verify_intact_of_late_prune :
    (runAudit plainEnv [7] (runAudit plainEnv [] .empty keylessPart) keyedPart).rows.length = 1 ∧
    verifyAuditChain plainEnv [7]
      (runAudit plainEnv [7] (runAudit plainEnv [] .empty keylessPart) keyedPart).toAuditTable =
        (true, 0) :=
  ⟨by decide +kernel, verify_intact_of_prunesTail plainEnv [7] keylessPart keyedPart
    (by decide +kernel) (by decide +kernel)⟩

/-- Two logins and a prune between their times: the verifier reports the row
that is left as the place of the tampering. -/
theorem prune_reported_as_tampering : verifyAuditChain plainEnv [7] (runAudit plainEnv [7] .empty
      [.append "" 10 ⟨1⟩ (loginEvent "alice"), .append "" 20 ⟨2⟩ (loginEvent "bob"),
        .prune 20]).toAuditTable = (false, 2) := by
  decide +kernel

/-! ## Digests without collisions

The converse needs the digests to be what they are taken for. Over the strings
the chain feeds them, `sha256` and the keyed `hmac` are injective and never
meet. -/

structure Ideal (h : Hashing) (key : Key) : Prop where
  sha256_inj : Function.Injective h.sha256
  hmac_inj : Function.Injective (h.hmac key)
  apart : ∀ d d', h.sha256 d ≠ h.hmac key d'

theorem plainEnv_ideal (key : Key) : Ideal plainEnv.toHashing key where
  sha256_inj := by
    intro d d' h
    exact hexText_inj (List.cons.inj (String.ofList_injective h)).2
  hmac_inj := by
    intro d d' h
    have hl := (List.cons.inj (String.ofList_injective h)).2
    exact hexText_inj (List.append_cancel_left hl)
  apart := by
    intro d d' h
    exact absurd (List.cons.inj (String.ofList_injective h)).1 (by decide)

variable {prev' canonical canonical' : String}

/-- A digest's input splits in one way only: no bar stands in front of the
first one. -/
theorem auditData_inj (hp : '|' ∉ prev.toList)
    (hp' : '|' ∉ prev'.toList) (h : auditData prev canonical = auditData prev' canonical') :
    prev = prev' ∧ canonical = canonical' := by
  have hl : prev.toList ++ '|' :: canonical.toList = prev'.toList ++ '|' :: canonical'.toList := by
    simpa [auditData] using congrArg String.toList h
  obtain ⟨h₁, h₂⟩ := append_cons_inj hp hp' hl
  exact ⟨String.toList_inj.mp h₁, String.toList_inj.mp h₂⟩

theorem auditMAC_inj (hI : Ideal env.toHashing key) {alg alg' : Int16} (hp : '|' ∉ prev.toList)
    (hp' : '|' ∉ prev'.toList)
    (h : auditMAC env alg key prev canonical = auditMAC env alg' key prev' canonical') :
    prev = prev' ∧ canonical = canonical' := by
  unfold auditMAC at h
  split at h <;> split at h
  · exact auditData_inj hp hp' (hI.hmac_inj h)
  · exact absurd h.symm (hI.apart _ _)
  · exact absurd h (hI.apart _ _)
  · exact auditData_inj hp hp' (hI.sha256_inj h)

section

variable {env : AuditEnv} {key : Key} {rs : List AuditRow}

theorem rowOk_of_mem {p : String} (h : Linked (RowOk env key) AuditRow.hash p rs) :
    ∀ r ∈ rs, RowOk env key r.prevHash r := by
  induction rs generalizing p with
  | nil => simp
  | cons r rs ih =>
    obtain ⟨hr, hrs⟩ := h
    exact List.forall_mem_cons.mpr ⟨by rwa [hr.1], ih hrs⟩

theorem hash_hex_of_linked {p : String} (h : Linked (RowOk env key) AuditRow.hash p rs) :
    ∀ r ∈ rs, IsHexDigest r.hash := by
  intro r hr
  rw [(rowOk_of_mem h r hr).2]
  exact auditMAC_hex _ _ _ _ _

theorem no_bar_of_linked (h : Linked (RowOk env key) AuditRow.hash "" rs) :
    ∀ x ∈ "" :: rs.map AuditRow.hash, '|' ∉ x.toList := by
  rw [List.forall_mem_cons, List.forall_mem_map]
  exact ⟨by simp, fun r hr => (hash_hex_of_linked h r hr).no_bar⟩

theorem prevHash_no_bar (h : Linked (RowOk env key) AuditRow.hash "" rs) :
    ∀ r ∈ rs, '|' ∉ r.prevHash.toList := by
  intro r hr
  refine no_bar_of_linked h _ ?_
  rw [← h.map_prev RowOk.prevHash_eq]
  exact List.mem_append_left _ (List.mem_map_of_mem hr)

theorem nodup_hashes (hI : Ideal env.toHashing key)
    (h : Linked (RowOk env key) AuditRow.hash "" rs) : ("" :: rs.map AuditRow.hash).Nodup := by
  refine h.nodup_tags RowOk.prevHash_eq ?_ ?_
  · intro r hr r' hr' heq
    have hmac : auditMAC env r.hashAlg key r.prevHash (r.canonical env) =
        auditMAC env r'.hashAlg key r'.prevHash (r'.canonical env) := by
      rw [← (rowOk_of_mem h r hr).2, ← (rowOk_of_mem h r' hr').2, heq]
    exact (auditMAC_inj hI (prevHash_no_bar h r hr) (prevHash_no_bar h r' hr') hmac).1
  · intro r hr
    exact (hash_hex_of_linked h r hr).1

end

end Moorgate.Audit
