import Moorgate.Audit.Chain

/-!
# What a writer without the key can do to the table

The adversary writes every column of `audit_events`, but has no key: a MAC stands in a table of
theirs only if `AppendAudit` computed it. Rows that all claim the keyed algorithm carry, in order,
the records and hashes of the honest table (`keyed_rows_agree`). But nothing asks a row to claim
it: a table rewritten with `hash_alg = 1` is linked by plain SHA-256, which anybody can compute
(`forged_accepted`).
-/

namespace Moorgate.Audit

open Framework Models Store

def AuditOp.isAppend : AuditOp → Bool
  | .append _ _ _ _ => true
  | .prune _ => false

/-- A table that `AppendAudit` produced, the key being configured throughout. -/
def Honest (env : AuditEnv) (key : Key) (t : AuditTable) : Prop :=
  key ≠ [] ∧ ∃ ops : List AuditOp, (∀ op ∈ ops, op.isAppend) ∧
    (runAudit env key .empty ops).toAuditTable = t

/-- A table that can be written without the key: whatever in it is a MAC is
one `AppendAudit` took over a row of `t`. -/
def Writable (env : AuditEnv) (key : Key) (t t' : AuditTable) : Prop :=
  ∀ r ∈ t'.rows, ∀ data, r.hash = env.hmac key data ∨ r.prevHash = env.hmac key data →
    ∃ q ∈ t.rows, data = auditData q.prevHash (q.canonical env)

/-- No other table of at least this length that can be written without the key
passes the verifier. -/
def TamperEvident (env : AuditEnv) (key : Key) (t : AuditTable) : Prop :=
  ∀ t' : AuditTable, Writable env key t t' → verifyAuditChain env key t' = (true, 0) →
    t.rows.length ≤ t'.rows.length → t' = t

/-! ## Rows that keep the keyed algorithm -/

/-- What a MAC covers of a row, and the MAC. -/
def fingerprint (env : AuditEnv) (r : AuditRow) : String × String × String :=
  (r.prevHash, r.canonical env, r.hash)

variable {env : AuditEnv} {key : Key}

theorem honest_rows {t : AuditTable} (ht : Honest env key t) :
    Linked (RowOk env key) AuditRow.hash "" t.rows ∧ ∀ r ∈ t.rows, r.hashAlg = auditAlgHMAC := by
  obtain ⟨hk, ops, hops, rfl⟩ := ht
  have hlen : key.length > 0 := List.length_pos_iff.mpr hk
  suffices h : ∀ db : AuditDb, (Intact env key db ∧ ∀ r ∈ db.rows, r.hashAlg = auditAlgHMAC) →
      Intact env key (runAudit env key db ops) ∧
      ∀ r ∈ (runAudit env key db ops).rows, r.hashAlg = auditAlgHMAC by
    exact h .empty ⟨intact_empty env key, by simp [AuditDb.empty]⟩
  induction ops with
  | nil => exact fun db h => h
  | cons op ops ih =>
    rintro db ⟨hdb, halgs⟩
    refine ih (fun o ho => hops o (List.mem_cons_of_mem _ ho)) _ ?_
    have happ := hops op List.mem_cons_self
    cases op with
    | prune cutoff => cases happ
    | append guc now id e =>
      refine ⟨append_intact (Or.inr rfl) guc now id e hdb, ?_⟩
      show ∀ r ∈ (appendAudit env key guc now id e db).2.rows, r.hashAlg = auditAlgHMAC
      rcases appendAudit_rows env key guc now id e db with h | ⟨row, h, halg, -⟩
      · rwa [h]
      rw [if_pos hlen] at halg
      rw [h]
      intro r hr
      rcases List.mem_append.mp hr with hr | hr
      · exact halgs r hr
      · rwa [List.mem_singleton.mp hr]

/-- One row of the adversary, linked behind an initial part `pre` of the honest
table, repeats the honest row that follows `pre`. -/
theorem keyed_row_agrees (hI : Ideal env.toHashing key) {pre post : List AuditRow} {r : AuditRow}
    (hT : Linked (RowOk env key) AuditRow.hash "" (pre ++ post))
    (halgs : ∀ q ∈ pre ++ post, q.hashAlg = auditAlgHMAC)
    (hr : RowOk env key (tip AuditRow.hash "" pre) r) (halg : r.hashAlg = auditAlgHMAC)
    (hw : ∀ data, r.hash = env.hmac key data → ∃ q ∈ pre ++ post,
      data = auditData q.prevHash (q.canonical env)) :
    ∃ q, post.head? = some q ∧ fingerprint env r = fingerprint env q := by
  have hmac : r.hash = env.hmac key (auditData r.prevHash (r.canonical env)) := by
    rw [hr.2, auditMAC, if_pos halg, hr.1]
  obtain ⟨q, hq, hdata⟩ := hw _ hmac
  have hqok := rowOk_of_mem hT q hq
  -- the tip of `pre` is the empty root or the hash of an honest row
  have htip : '|' ∉ r.prevHash.toList := by
    obtain ⟨hpre, -⟩ := linked_append.mp hT
    rw [hr.1]
    refine no_bar_of_linked hpre _ ?_
    rw [← hpre.map_prev RowOk.prevHash_eq]
    exact List.mem_append_right _ (List.mem_singleton.mpr rfl)
  obtain ⟨hprev, hcan⟩ := auditData_inj htip (prevHash_no_bar hT q hq) hdata
  have hhead := hT.head_eq RowOk.prevHash_eq (nodup_hashes hI hT) hq (hprev ▸ hr.1)
  refine ⟨q, hhead, ?_⟩
  have hhash : r.hash = q.hash := by
    rw [hmac, hdata, hqok.2, auditMAC, if_pos (halgs q hq)]
  simp [fingerprint, hprev, hcan, hhash]

theorem keyed_suffix_agrees (hI : Ideal env.toHashing key) :
    ∀ {rs pre post : List AuditRow}, Linked (RowOk env key) AuditRow.hash "" (pre ++ post) →
      (∀ q ∈ pre ++ post, q.hashAlg = auditAlgHMAC) →
      Linked (RowOk env key) AuditRow.hash (tip AuditRow.hash "" pre) rs →
      (∀ r ∈ rs, r.hashAlg = auditAlgHMAC) → (∀ r ∈ rs, ∀ data, r.hash = env.hmac key data →
        ∃ q ∈ pre ++ post, data = auditData q.prevHash (q.canonical env)) →
      rs.map (fingerprint env) <+: post.map (fingerprint env)
  | [], _, _, _, _, _, _, _ => List.nil_prefix
  | r :: rs, pre, post, hT, halgs, hrs, hkeyed, hw => by
      obtain ⟨q, hhead, hfp⟩ := keyed_row_agrees hI hT halgs hrs.1 (hkeyed r List.mem_cons_self)
        (hw r List.mem_cons_self)
      cases post with
      | nil => cases hhead
      | cons q' post =>
        obtain rfl : q' = q := by simpa using hhead
        have hhash : r.hash = q'.hash := congrArg (fun f => f.2.2) hfp
        have hsplit : pre ++ q' :: post = (pre ++ [q']) ++ post := by simp
        rw [hsplit] at hT halgs hw
        have hrest : Linked (RowOk env key) AuditRow.hash (tip AuditRow.hash ""
            (pre ++ [q'])) rs := by
          have htip : tip AuditRow.hash "" (pre ++ [q']) = r.hash := by simp [tip, hhash]
          rw [htip]
          exact hrs.2
        have ih := keyed_suffix_agrees hI hT halgs hrest
          (fun x hx => hkeyed x (List.mem_cons_of_mem _ hx))
          (fun x hx => hw x (List.mem_cons_of_mem _ hx))
        simpa [hfp] using ih

/-- **The keyed part is tamper-evident.** A table written without the key whose
rows all claim the keyed algorithm and which verifies carries the records and
hashes of the honest table, row by row, as far as it goes. -/
theorem keyed_rows_agree (hI : Ideal env.toHashing key)
    {t t' : AuditTable} (ht : Honest env key t) (hw : Writable env key t t')
    (hv : verifyAuditChain env key t' = (true, 0))
    (hkeyed : ∀ r ∈ t'.rows, r.hashAlg = auditAlgHMAC) :
    t'.rows.map (fingerprint env) <+: t.rows.map (fingerprint env) := by
  obtain ⟨hlink, halgs⟩ := honest_rows ht
  have hlink' : Linked (RowOk env key) AuditRow.hash "" ([] ++ t.rows) := hlink
  exact keyed_suffix_agrees hI hlink' halgs (verifyAuditChain_intact_iff.mp hv) hkeyed
    (fun r hr data h => hw r hr data (Or.inl h))

/-! ## Rows that do not

The adversary chooses the events, marks every row as keyless and links them. -/

/-- The row as the keyless algorithm would have written it behind `prev`. -/
def downgrade (env : AuditEnv) (prev : String) (r : AuditRow) : AuditRow :=
  let r : AuditRow := { r with hashAlg := auditAlgLegacy, prevHash := prev }
  { r with hash := env.sha256 (auditData prev (r.canonical env)) }

def relink (env : AuditEnv) : String → List AuditRow → List AuditRow
  | _, [] => []
  | prev, r :: rs => downgrade env prev r :: relink env (downgrade env prev r).hash rs

theorem downgrade_ok (env : AuditEnv) (key : Key) (prev : String) (r : AuditRow) :
    RowOk env key prev (downgrade env prev r) := ⟨rfl, rfl⟩

theorem relink_linked (env : AuditEnv) (key : Key) (p : String) (rs : List AuditRow) :
    Linked (RowOk env key) AuditRow.hash p (relink env p rs) := by
  induction rs generalizing p with
  | nil => trivial
  | cons r rs ih => exact ⟨downgrade_ok env key p r, ih _⟩

theorem relink_map {β : Type} (env : AuditEnv) (f : AuditRow → β)
    (hf : ∀ prev r, f (downgrade env prev r) = f r) (p : String) (rs : List AuditRow) :
    (relink env p rs).map f = rs.map f := by
  induction rs generalizing p with
  | nil => rfl
  | cons r rs ih => simp [relink, hf, ih]

theorem relink_hashes (env : AuditEnv) {p : String} {rs : List AuditRow} :
    ∀ r ∈ relink env p rs, (∃ d, r.hash = env.sha256 d) ∧
    (r.prevHash = p ∨ ∃ d, r.prevHash = env.sha256 d) := by
  induction rs generalizing p with
  | nil => simp [relink]
  | cons x rs ih =>
    refine List.forall_mem_cons.mpr ⟨⟨⟨_, rfl⟩, Or.inl rfl⟩, fun r hr => ?_⟩
    obtain ⟨hh, hp⟩ := ih r hr
    exact ⟨hh, Or.inr (hp.elim (fun hp => ⟨_, hp⟩) id)⟩

def forgedTable (env : AuditEnv) (events : AuditTable) : AuditTable where
  rows := relink env "" events.rows
  sorted := by
    have h := events.sorted
    rw [← List.pairwise_map (f := AuditRow.seq) (R := (· < ·))] at h ⊢
    rwa [relink_map env AuditRow.seq (fun _ _ => rfl)]

/-- **Any history is accepted.** Whatever the honest table holds and whatever
events the adversary chooses, their forged table can be written without the
key and passes the verifier. -/
theorem forged_accepted (hI : Ideal env.toHashing key) (t events : AuditTable) :
    Writable env key t (forgedTable env events) ∧
    verifyAuditChain env key (forgedTable env events) = (true, 0) := by
  refine ⟨?_, verifyAuditChain_intact_iff.mpr (relink_linked env key "" events.rows)⟩
  intro r hr data hmac
  obtain ⟨⟨d, hd⟩, hp⟩ := relink_hashes env r hr
  exfalso
  rcases hmac with hmac | hmac
  · exact hI.apart _ _ (hd.symm.trans hmac)
  · rcases hp with hp | ⟨d', hd'⟩
    · exact (env.hmac_hex key data).1 (hmac.symm.trans hp)
    · exact hI.apart _ _ (hd'.symm.trans hmac)

/-- The adversary's version of an event: it happened, but to something else. -/
def misreport (r : AuditRow) : AuditRow := { r with action := r.action ++ "!" }

def fabricated : AuditRow where
  seq := 1
  id := ⟨1⟩
  tenantId := ⟨1⟩
  actorId := none
  actorName := none
  action := "auth.login"
  targetKind := ""
  targetId := ""
  ip := none
  detail := emptyObject
  prevHash := ""
  hash := ""
  createdAt := 0
  hashAlg := auditAlgLegacy

/-- **No honest table is tamper-evident.** -/
theorem not_tamperEvident (env : AuditEnv) (key : Key) (hI : Ideal env.toHashing key)
    (t : AuditTable) (_ht : Honest env key t) : ¬ TamperEvident env key t := by
  intro hevident
  cases hrows : t.rows with
  | nil =>
    -- an empty log: one fabricated event
    let events : AuditTable := ⟨[fabricated], List.pairwise_singleton _ _⟩
    obtain ⟨hw, hv⟩ := forged_accepted hI t events
    have heq := hevident _ hw hv (by simp [hrows])
    rw [← heq] at hrows
    cases hrows
  | cons r rs =>
    -- otherwise every event is kept, with another action
    let events : AuditTable := ⟨t.rows.map misreport, by
      rw [List.pairwise_map]
      exact t.sorted⟩
    obtain ⟨hw, hv⟩ := forged_accepted hI t events
    have hactions : (forgedTable env events).rows.map AuditRow.action =
        (t.rows.map misreport).map AuditRow.action :=
      relink_map env AuditRow.action (fun _ _ => rfl) _ _
    have hlen : t.rows.length ≤ (forgedTable env events).rows.length := by
      have := congrArg List.length hactions
      simp only [List.length_map] at this
      omega
    rw [hevident _ hw hv hlen, hrows] at hactions
    have hhead := congrArg List.head? hactions
    have hstr : r.action = r.action ++ "!" := by simpa [misreport] using hhead
    have := congrArg String.length hstr
    simp at this

def honestTable : AuditTable :=
  (runAudit plainEnv [7] .empty [.append "" 10 ⟨1⟩ (loginEvent "alice")]).toAuditTable

theorem honestTable_honest : Honest plainEnv [7] honestTable :=
  ⟨by decide, _, by simp [AuditOp.isAppend], rfl⟩

/-- Nothing covers the id of a row: with another the table verifies. -/
theorem keyed_rows_agree_otherId :
    ∃ t' ≠ honestTable, verifyAuditChain plainEnv [7] t' = (true, 0) ∧
    t'.rows.map (fingerprint plainEnv) <+: honestTable.rows.map (fingerprint plainEnv) := by
  let t' : AuditTable := ⟨honestTable.rows.map ({ · with id := ⟨2⟩ }), by decide +kernel⟩
  obtain ⟨hlink, halgs⟩ := honest_rows honestTable_honest
  have hv : verifyAuditChain plainEnv [7] t' = (true, 0) := verifyAuditChain_intact_iff.mpr hlink
  refine ⟨t', fun h => absurd (congrArg (·.rows.map (·.id)) h) (by decide +kernel), hv,
    keyed_rows_agree (plainEnv_ideal [7]) honestTable_honest ?_ hv (by decide +kernel)⟩
  intro r hr data h
  obtain ⟨q, hq, rfl⟩ := List.mem_map.mp hr
  rcases h with h | h
  · refine ⟨q, hq, (plainEnv_ideal [7]).hmac_inj ?_⟩
    rw [← h, (rowOk_of_mem hlink q hq).2, auditMAC, if_pos (halgs q hq)]
  · cases List.mem_singleton.mp hq
    exact absurd h.symm (plainEnv.hmac_hex [7] data).1

theorem honestTable_not_tamperEvident :
    Honest plainEnv [7] honestTable ∧ ¬ TamperEvident plainEnv [7] honestTable :=
  ⟨honestTable_honest, not_tamperEvident plainEnv [7] (plainEnv_ideal [7]) honestTable
    honestTable_honest⟩

def rewrittenTable : AuditTable :=
  forgedTable plainEnv ⟨honestTable.rows.map misreport, by
    rw [List.pairwise_map]
    exact honestTable.sorted⟩

/-- The rewritten table has as many rows, holds no MAC, and verifies under the
key. -/
theorem rewrittenTable_accepted :
    Honest plainEnv [7] honestTable ∧ Writable plainEnv [7] honestTable rewrittenTable ∧
      verifyAuditChain plainEnv [7] rewrittenTable = (true, 0) ∧
      honestTable.rows.length = rewrittenTable.rows.length ∧ rewrittenTable ≠ honestTable := by
  obtain ⟨hw, hv⟩ := forged_accepted (plainEnv_ideal [7]) honestTable
    ⟨honestTable.rows.map misreport, by
      rw [List.pairwise_map]
      exact honestTable.sorted⟩
  refine ⟨honestTable_honest, hw, hv, by decide +kernel, ?_⟩
  intro h
  have hactions := congrArg (fun t => t.rows.map AuditRow.action) h
  exact absurd hactions (by decide +kernel)

end Moorgate.Audit
