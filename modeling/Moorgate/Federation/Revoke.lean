import Moorgate.Federation.Links

/-!
# Revocation of a site: `handleRevokeSite` of `federation/hub.go`

The request marks the site as revoked, removes its session from the registry, deletes its cached
rows, one table after the other, and deletes its row. A link handler that has looked the site up
before the mark still puts its session and writes `active`, and a push stream that has decoded a
message still stores it.

Revocation is final (`revocation_final`) in the runs in which it overtakes nobody (`Overtakes`):
the mark is written and no handler stands between its lookup and its `active`, and no push is under
way when the cache is cleared.
-/

namespace Moorgate.Federation

open Framework

/-! ## The cache and its writers -/

/-- The tables that `DeleteSiteCache` clears. -/
inductive CacheTable where
  | hosts | hostStatusStats | sessions | auditSummary | scans | schedules | playbookRuns
  | sftpTransfers | siteSyncState
deriving DecidableEq

structure CacheRow where
  table : CacheTable
  (id data : String)
deriving DecidableEq

def cacheTables : List CacheTable :=
  [.hosts, .hostStatusStats, .sessions, .auditSummary, .scans, .schedules, .playbookRuns,
    .sftpTransfers, .siteSyncState]

/-- The hub's side of a site; `revoked` when a revocation has been answered with success. -/
structure HubSite where
  link : HubLink
  cache : List CacheRow
  revoked : Bool

def HubSite.upsertCache (s : HubSite) (row : CacheRow) : HubSite :=
  { s with
    cache := s.cache.filter (fun r => decide ¬ (r.table = row.table ∧ r.id = row.id)) ++ [row] }

/-- A message of a push stream. A host whose data does not decode is skipped. -/
inductive PushMsg where
  | host (h : Option (String × String))
  | heartbeat
  | other (type : String)
deriving DecidableEq

/-- Where the goroutine of a push stream stands. -/
inductive IngestPc where
  | opening (k : ℕ)
  | decoding
  | storing (hostID data : String)
  | beating
  | syncing (type : String)
  | returned
deriving DecidableEq

/-- What a statement takes from outside: whether it succeeds, and the next message, if the
stream has one. -/
structure HubInput where
  ok : Bool
  msg : Option PushMsg

/-- `serveSite` up to the stream, and `ingestPush`. A context that is cancelled is a write that
fails. -/
def ingestAct (i : HubInput) (s : HubSite) : IngestPc → Option (HubSite × IngestPc)
  | .opening k =>
    some (s, if k < s.link.accepted ∧ s.link.isClosed k = false then .decoding else .returned)
  | .decoding =>
    some (s, match i.msg with
      | none => .returned
      | some (.host none) => .decoding
      | some (.host (some (hostID, data))) => .storing hostID data
      | some .heartbeat => .beating
      | some (.other type) => .syncing type)
  | .storing hostID data =>
    if i.ok then some (s.upsertCache ⟨.hosts, hostID, data⟩, .syncing "host") else some (s,
      .decoding)
  | .beating =>
    some (if i.ok then { s with link := s.link.setSiteLink .up } else s, .syncing "heartbeat")
  | .syncing type => some (if i.ok then s.upsertCache ⟨.siteSyncState, type, ""⟩ else s, .decoding)
  | .returned => none

/-! ## The request -/

inductive RevokePc where
  | marking | dropping
  | clearing (tables : List CacheTable)
  | answered | failed
deriving DecidableEq

/-- `handleRevokeSite`; with no table left to clear, the row of the site is next. -/
def revokeAct (i : HubInput) (s : HubSite) : RevokePc → Option (HubSite × RevokePc)
  | .marking =>
    some (if i.ok then { s with link := s.link.setSiteStatus .revoked } else s, .dropping)
  | .dropping => some ({ s with link := s.link.remove }, .clearing cacheTables)
  | .clearing (t :: ts) =>
    if i.ok then some ({ s with cache := s.cache.filter fun r => decide (r.table ≠ t) },
      .clearing ts)
    else some (s, .failed)
  | .clearing [] =>
    if i.ok then some ({ s with link := { s.link with row := none }, revoked := true }, .answered)
    else some (s, .failed)
  | .answered | .failed => none

inductive HubCall where
  | link (c : LinkCall)
  | ingest (pc : IngestPc)
  | revoke (pc : RevokePc)
deriving DecidableEq

inductive HubRequest where
  | link (rq : LinkRequest)
  | push (k : ℕ)
  | revoke

def HubRequest.start : HubRequest → HubCall
  | .link rq => .link rq.start
  | .push k => .ingest (.opening k)
  | .revoke => .revoke .marking

def hubAct (i : HubInput) (s : HubSite) : HubCall → Option (HubSite × HubCall)
  | .link c => (linkAct i.ok s.link c).map fun next => ({ s with link := next.1 }, .link next.2)
  | .ingest pc => (ingestAct i s pc).map fun next => (next.1, .ingest next.2)
  | .revoke pc => (revokeAct i s pc).map fun next => (next.1, .revoke next.2)

abbrev HubPool := Pool HubSite HubCall

abbrev HubMove := Move HubRequest HubInput

def hubStep : HubPool → HubMove → Option HubPool := poolStep HubRequest.start hubAct

def hubStarted (row : SiteRow) (cache : List CacheRow) : HubPool :=
  ⟨⟨(unlinked row).store, cache, false⟩, []⟩

/-! ## The property -/

/-- After a successful revocation there is no session and no cached row. -/
def RevocationHolds (s : HubPool) : Prop :=
  s.store.revoked → s.store.link.registered = none ∧ s.store.cache = []

/-- A handler that has found the site not revoked, up to its write of `active`. -/
def HubCall.admitted : HubCall → Bool
  | .link (.handler .verifying) | .link (.handler .upgrading) | .link (.handler .putting)
  | .link (.handler (.activating _)) => true
  | _ => false

def HubCall.ingesting : HubCall → Bool
  | .ingest (.opening _) | .ingest .returned => false
  | .ingest _ => true
  | _ => false

/-- The revocation overtakes a handler or a push: it marks the site while a handler is
admitted, or in vain, or begins to clear the cache while a push is under way. -/
def Overtakes (s : HubPool) : HubMove → Prop
  | .begin _ => False
  | .advance c i =>
    (s.call c = some (.revoke .marking) ∧ (i.ok = false ∨ ∃ q ∈ s.calls, q.admitted)) ∨
    (s.call c = some (.revoke (.clearing cacheTables)) ∧ ∃ q ∈ s.calls, q.ingesting)

instance (s : HubPool) (m : HubMove) : Decidable (Overtakes s m) := by
  unfold Overtakes
  split <;> infer_instance

/-! ## One statement -/

def HubSite.Refused (s : HubSite) : Prop := ∀ r, s.link.row = some r → r.status = .revoked

/-- A session that is open is the registered one. -/
def HubLink.OpenRegistered (s : HubLink) : Prop :=
  ∀ k, k < s.accepted → s.isClosed k = false → s.registered = some k

/-- What a statement of a call that is neither admitted nor a push leaves alone. -/
structure HubEffect (st st' : HubSite) (p p' : HubCall) : Prop where
  registry : st.link.OpenRegistered → st'.link.OpenRegistered
  refused : st.Refused → p.admitted = false → st'.Refused ∧ p'.admitted = false
  registered : p.admitted = false → st.link.registered = none → st'.link.registered = none
  ingesting : st.link.OpenRegistered → st.link.registered = none → p.ingesting = false →
    p'.ingesting = false
  cache : p.ingesting = false → ∀ row ∈ st'.cache, row ∈ st.cache
  revoked : st'.revoked → st.revoked ∨ p = .revoke (.clearing [])

section

variable {st st' : HubSite} {l l' : HubLink} {i : HubInput} {ok : Bool} {k : ℕ}

theorem openRegistered_closeRegistered (h : l.OpenRegistered) (hk : k < l.accepted) :
    l.closeRegistered.isClosed k := by
  by_contra hopen
  rw [Bool.not_eq_true] at hopen
  unfold HubLink.isClosed at hopen
  rw [closed_closeRegistered, (fields_closeRegistered l).2.1, Bool.or_eq_false_iff,
    Bool.or_eq_false_iff] at hopen
  obtain ⟨hdropped, hclosed, hreg⟩ := hopen
  have hsome := h k hk (by rw [HubLink.isClosed, hdropped, hclosed]; rfl)
  simp [hsome] at hreg

theorem openRegistered_put (h : l.OpenRegistered) : l.put.OpenRegistered := by
  intro k hk hopen
  by_cases hlt : k < l.accepted
  · have hclosed := openRegistered_closeRegistered h hlt
    cases hclosed.symm.trans hopen
  · obtain rfl : k = l.accepted := by
      have hsucc : k < l.accepted + 1 := hk
      omega
    rfl

theorem openRegistered_remove (h : l.OpenRegistered) : l.remove.OpenRegistered := by
  intro k hk hopen
  have hlt : k < l.accepted := (fields_closeRegistered l).2.2 ▸ hk
  cases (openRegistered_closeRegistered h hlt).symm.trans hopen

variable {p p' : HubCall}

theorem HubEffect.passed (hrow : l'.row.map SiteRow.status = st.link.row.map SiteRow.status)
    (haccepted : l'.accepted = st.link.accepted) (hregistered : l'.registered = st.link.registered)
    (hclosed : ∀ k, l'.isClosed k = false → st.link.isClosed k = false)
    (hadmitted : st.Refused → p.admitted = false → p'.admitted = false)
    (hingesting : p.ingesting = false → p'.ingesting = false) :
    HubEffect st { st with link := l' } p p' where
  registry h k hk hopen := by
    rw [hregistered]
    exact h k (haccepted ▸ hk) (hclosed k hopen)
  refused h hp := by
    refine ⟨fun r hr => ?_, hadmitted h hp⟩
    have hstatus : st.link.row.map SiteRow.status =
        some r.status := by rw [← hrow, hr, Option.map_some]
    obtain ⟨r₀, hr₀, heq⟩ := Option.map_eq_some_iff.mp hstatus
    exact heq ▸ h r₀ hr₀
  registered _ h := hregistered.trans h
  ingesting _ _ := hingesting
  cache _ _ h := h
  revoked h := .inl h

theorem HubEffect.quiet (hadmitted : p'.admitted = false) (hingesting : p'.ingesting = false) :
    HubEffect st st p p' :=
  .passed rfl rfl rfl (fun _ h => h) (fun _ _ => hadmitted) fun _ => hingesting

theorem HubEffect.removed (hadmitted : p'.admitted = false) (hingesting : p'.ingesting = false) :
    HubEffect st { st with link := st.link.remove } p p' where
  registry := openRegistered_remove
  refused hrefused _ :=
    ⟨fun r hr => hrefused r ((fields_closeRegistered st.link).1 ▸ hr), hadmitted⟩
  registered _ _ := rfl
  ingesting _ _ _ := hingesting
  cache _ _ h := h
  revoked := .inl

theorem status_setSiteLink (state : LinkState) :
    (l.setSiteLink state).row.map SiteRow.status = l.row.map SiteRow.status := by
  unfold HubLink.setSiteLink
  cases l.row <;> rfl

theorem HubEffect.linked (state : LinkState) (hadmitted : p'.admitted = false)
    (hingesting : p.ingesting = false → p'.ingesting = false) :
    HubEffect st { st with link := if ok then st.link.setSiteLink state else st.link } p p' := by
  cases ok with
  | true =>
    exact .passed (status_setSiteLink state) rfl rfl (fun _ h => h) (fun _ _ => hadmitted)
      hingesting
  | false => exact .passed rfl rfl rfl (fun _ h => h) (fun _ _ => hadmitted) hingesting

theorem handler_effect {pc pc' : LinkPc} (h : handleLinkAct ok st.link pc = some (l', pc')) :
    HubEffect st { st with link := l' } (.link (.handler pc)) (.link (.handler pc')) := by
  revert h
  fun_cases handleLinkAct ok st.link pc with
  | case1 admitted =>
    rintro ⟨⟩
    refine .passed rfl rfl rfl (fun _ h => h) (fun hrefused _ => ?_) fun _ => rfl
    -- a site that is refused admits nobody
    have hnot : admitted = false := by
      cases hr : st.link.row with
      | none => simp [admitted, hr]
      | some r => simp [admitted, hr, hrefused r hr]
    rw [hnot]
    rfl
  | case2 | case3 =>
    rintro ⟨⟩
    exact .passed rfl rfl rfl (fun _ h => h) nofun fun _ => rfl
  | case4 =>
    rintro ⟨⟩
    exact ⟨openRegistered_put, nofun, nofun, fun _ _ _ => rfl, fun _ _ h => h, .inl⟩
  | case5 =>
    rintro ⟨⟩
    cases ok with
    | true | false => exact ⟨fun h => h, nofun, nofun, fun _ _ _ => rfl, fun _ _ h => h, .inl⟩
  | case6 =>
    rintro ⟨⟩
    exact .linked .up rfl fun _ => rfl
  | case7 =>
    rintro ⟨⟩
    exact .quiet rfl rfl
  | case9 =>
    rintro ⟨⟩
    exact .removed rfl rfl
  | case10 =>
    rintro ⟨⟩
    exact .linked .down rfl fun _ => rfl
  | case8 | case11 => rintro ⟨⟩

theorem link_effect {c c' : LinkCall} (h : linkAct ok st.link c = some (l', c')) :
    HubEffect st { st with link := l' } (.link c) (.link c') := by
  cases c with
  | handler pc =>
    obtain ⟨⟨l₁, pc'⟩, hact, ⟨⟩⟩ := Option.map_eq_some_iff.mp h
    exact handler_effect hact
  | dropping k =>
    cases h
    split
    · refine .passed rfl rfl rfl (fun j hj => ?_) (fun _ _ => rfl) fun _ => rfl
      simp only [HubLink.isClosed, Bool.or_eq_false_iff, Function.update_apply] at hj ⊢
      refine ⟨?_, hj.2⟩
      by_contra hdropped
      simp [hdropped] at hj
    · exact .passed rfl rfl rfl (fun _ h => h) (fun _ _ => rfl) fun _ => rfl
  | pinging =>
    cases h
    exact .linked .up rfl fun _ => rfl
  | done => cases h

/-- A push writes only while it is under way, and begins on an open session only. -/
theorem ingest_effect {pc pc' : IngestPc} (h : ingestAct i st pc = some (st', pc')) :
    HubEffect st st' (.ingest pc) (.ingest pc') := by
  cases pc with
  | opening k =>
    cases h
    refine ⟨fun h => h, fun h _ => ⟨h, rfl⟩, fun _ h => h, fun hreg hnone _ => ?_,
      fun _ _ h => h, .inl⟩
    split
    · rename_i hopen
      have hsome := hreg k hopen.1 hopen.2
      cases hnone.symm.trans hsome
    · rfl
  | decoding =>
    cases h
    exact ⟨fun h => h, fun h _ => ⟨h, rfl⟩, fun _ h => h, nofun, nofun, .inl⟩
  | storing hostID data =>
    simp only [ingestAct] at h
    split at h
    all_goals
      cases h
      exact ⟨fun h => h, fun h _ => ⟨h, rfl⟩, fun _ h => h, nofun, nofun, .inl⟩
  | beating =>
    cases h
    split
    · exact .passed (status_setSiteLink .up) rfl rfl (fun _ h => h) (fun _ _ => rfl) nofun
    · exact .passed rfl rfl rfl (fun _ h => h) (fun _ _ => rfl) nofun
  | syncing type =>
    cases h
    split
    all_goals exact ⟨fun h => h, fun h _ => ⟨h, rfl⟩, fun _ h => h, nofun, nofun, .inl⟩
  | returned => cases h

theorem revoke_effect {pc pc' : RevokePc} (h : revokeAct i st pc = some (st', pc')) :
    HubEffect st st' (.revoke pc) (.revoke pc') := by
  revert h
  fun_cases revokeAct i st pc with
  | case1 =>
    rintro ⟨⟩
    split
    · refine ⟨fun h => h, fun hrefused _ => ⟨fun r hr => ?_, rfl⟩, fun _ h => h, fun _ _ _ => rfl,
        fun _ _ h => h, .inl⟩
      obtain ⟨r₀, -, rfl⟩ := Option.map_eq_some_iff.mp hr
      rfl
    · exact .quiet rfl rfl
  | case2 =>
    rintro ⟨⟩
    exact .removed rfl rfl
  | case3 =>
    rintro ⟨⟩
    refine ⟨fun h => h, fun h _ => ⟨h, rfl⟩, fun _ h => h, fun _ _ _ => rfl,
      fun _ row hrow => ?_, .inl⟩
    exact (List.mem_filter.mp hrow).1
  | case5 =>
    rintro ⟨⟩
    exact ⟨fun h => h, fun _ _ => ⟨nofun, rfl⟩, fun _ h => h, fun _ _ _ => rfl, fun _ _ h => h,
      fun _ => .inr rfl⟩
  | case4 | case6 =>
    rintro ⟨⟩
    exact .quiet rfl rfl
  | case7 | case8 => rintro ⟨⟩

theorem hubAct_effect (h : hubAct i st p = some (st', p')) : HubEffect st st' p p' := by
  cases p with
  | link c =>
    obtain ⟨next, hact, ⟨⟩⟩ := Option.map_eq_some_iff.mp h
    exact link_effect hact
  | ingest pc =>
    obtain ⟨next, hact, ⟨⟩⟩ := Option.map_eq_some_iff.mp h
    exact ingest_effect hact
  | revoke pc =>
    obtain ⟨next, hact, ⟨⟩⟩ := Option.map_eq_some_iff.mp h
    exact revoke_effect hact

end

/-! ## Runs -/

def Marked (s : HubPool) : Prop := s.store.Refused ∧ ∀ q ∈ s.calls, q.admitted = false

def Unregistered (s : HubPool) : Prop := Marked s ∧ s.store.link.registered = none

def Still (s : HubPool) : Prop := Unregistered s ∧ ∀ q ∈ s.calls, q.ingesting = false

def CachedIn (s : HubPool) (tables : List CacheTable) : Prop :=
  ∀ row ∈ s.store.cache, row.table ∈ tables

/-- What a revocation has reached when it stands at a statement. -/
def RevokePc.Reached (s : HubPool) : RevokePc → Prop
  | .marking | .answered | .failed => True
  | .dropping => Marked s
  | .clearing tables => Unregistered s ∧ (tables ≠ cacheTables → Still s ∧ CachedIn s tables)

structure RevokeInv (s : HubPool) : Prop where
  registry : s.store.link.OpenRegistered
  reached : ∀ q ∈ s.calls, ∀ pc, q = .revoke pc → pc.Reached s
  revoked : s.store.revoked → Still s ∧ CachedIn s []

section

variable {s s' : HubPool} {m : HubMove} {tables : List CacheTable}

section

variable (h : hubStep s m = some s')

include h

theorem marked_step (hm : Marked s) : Marked s' := by
  rcases poolStep_cases h with ⟨rq, -, rfl⟩ | ⟨c, i, p, st, p', -, hc, hact, rfl⟩
  · refine ⟨hm.1, Pool.forall_enter hm.2 ?_⟩
    cases rq with
    | link rq => cases rq <;> rfl
    | push k | revoke => rfl
  · obtain ⟨hrefused, hp'⟩ := (hubAct_effect hact).refused hm.1 (hm.2 p (Pool.mem_of_call hc))
    exact ⟨hrefused, Pool.forall_put hm.2 hp'⟩

theorem unregistered_step (hu : Unregistered s) : Unregistered s' := by
  refine ⟨marked_step h hu.1, ?_⟩
  rcases poolStep_cases h with ⟨rq, -, rfl⟩ | ⟨c, i, p, st, p', -, hc, hact, rfl⟩
  · exact hu.2
  · exact (hubAct_effect hact).registered (hu.1.2 p (Pool.mem_of_call hc)) hu.2

theorem still_step (hreg : s.store.link.OpenRegistered) (hs : Still s) : Still s' := by
  refine ⟨unregistered_step h hs.1, ?_⟩
  rcases poolStep_cases h with ⟨rq, -, rfl⟩ | ⟨c, i, p, st, p', -, hc, hact, rfl⟩
  · refine Pool.forall_enter hs.2 ?_
    cases rq <;> rfl
  · exact Pool.forall_put hs.2
      ((hubAct_effect hact).ingesting hreg hs.1.2 (hs.2 p (Pool.mem_of_call hc)))

theorem cachedIn_step (hs : Still s) (hc : CachedIn s tables) : CachedIn s' tables := by
  rcases poolStep_cases h with ⟨rq, -, rfl⟩ | ⟨c, i, p, st, p', -, hcall, hact, rfl⟩
  · exact hc
  · intro row hrow
    exact hc row ((hubAct_effect hact).cache (hs.2 p (Pool.mem_of_call hcall)) row hrow)

theorem RevokePc.Reached.step {pc : RevokePc} (hreg : s.store.link.OpenRegistered)
    (hr : pc.Reached s) : pc.Reached s' := by
  cases pc with
  | dropping => exact marked_step h hr
  | clearing tables =>
    refine ⟨unregistered_step h hr.1, fun hne => ?_⟩
    obtain ⟨hstill, hcached⟩ := hr.2 hne
    exact ⟨still_step h hreg hstill, cachedIn_step h hstill hcached⟩
  | _ => trivial

theorem registry_step (hreg : s.store.link.OpenRegistered) :
    s'.store.link.OpenRegistered := by
  rcases poolStep_cases h with ⟨rq, -, rfl⟩ | ⟨c, i, p, st, p', -, hc, hact, rfl⟩
  · exact hreg
  · exact (hubAct_effect hact).registry hreg

end

theorem mem_cacheTables (t : CacheTable) : t ∈ cacheTables := by cases t <;> decide

/-- What the next statement of a revocation reaches, if it overtakes nobody. -/
theorem reached_revokeAct {c : ℕ} {i : HubInput} {st : HubSite} {pc pc' : RevokePc}
    (hi : RevokeInv s) (hno : ¬ Overtakes s (.advance c i)) (hc : s.call c = some (.revoke pc))
    (hact : revokeAct i s.store pc = some (st, pc'))
    (hstep : hubStep s (.advance c i) = some (s.put c st (.revoke pc'))) :
    pc'.Reached (s.put c st (.revoke pc')) := by
  have hreached := hi.reached _ (Pool.mem_of_call hc) pc rfl
  cases pc with
  | marking =>
    cases hact
    have hok : i.ok := by
      by_contra hfail
      exact hno (.inl ⟨hc, .inl (Bool.eq_false_iff.mpr hfail)⟩)
    have hnone : ∀ q ∈ s.calls, q.admitted = false := by
      intro q hq
      by_contra hadmitted
      exact hno (.inl ⟨hc, .inr ⟨q, hq, Bool.of_not_eq_false hadmitted⟩⟩)
    refine ⟨fun r hr => ?_, Pool.forall_put hnone rfl⟩
    simp only [Pool.put, hok, if_true] at hr
    obtain ⟨r₀, -, rfl⟩ := Option.map_eq_some_iff.mp hr
    rfl
  | dropping =>
    cases hact
    have hmarked := marked_step hstep hreached
    exact ⟨⟨hmarked, rfl⟩, fun hne => absurd rfl hne⟩
  | clearing tables =>
    have hunregistered := unregistered_step hstep hreached.1
    cases tables with
    | nil =>
      simp only [revokeAct] at hact
      split at hact <;> cases hact <;> trivial
    | cons t ts =>
      simp only [revokeAct] at hact
      split at hact
      · cases hact
        -- with the first table the pushes are over, and stay so
        obtain ⟨hstill, hcached⟩ : Still s ∧ CachedIn s (t :: ts) := by
          by_cases hfirst : t :: ts = cacheTables
          · refine ⟨⟨hreached.1, fun q hq => ?_⟩, fun row _ => hfirst ▸ mem_cacheTables row.table⟩
            by_contra hingesting
            exact hno (.inr ⟨hfirst ▸ hc, q, hq, Bool.of_not_eq_false hingesting⟩)
          · exact hreached.2 hfirst
        refine ⟨hunregistered, fun _ => ⟨still_step hstep hi.registry hstill, fun row hrow => ?_⟩⟩
        obtain ⟨hrow, hne⟩ := List.mem_filter.mp hrow
        exact (List.mem_cons.mp (hcached row hrow)).resolve_left (of_decide_eq_true hne)
      · cases hact
        trivial
  | answered | failed => cases hact

theorem revokeInv_step (hi : RevokeInv s) (hno : ¬ Overtakes s m) (h : hubStep s m = some s') :
    RevokeInv s' := by
  have hkept : ∀ q ∈ s.calls, ∀ pc, q = .revoke pc → pc.Reached s' :=
    fun q hq pc hpc => (hi.reached q hq pc hpc).step h hi.registry
  refine ⟨registry_step h hi.registry, ?_, fun hrevoked => ?_⟩
  · rcases poolStep_cases h with ⟨rq, -, rfl⟩ | ⟨c, i, p, st, p', rfl, hc, hact, rfl⟩
    · refine Pool.forall_enter hkept fun pc hpc => ?_
      cases rq with
      | link rq | push k => cases hpc
      | revoke =>
        cases hpc
        trivial
    · refine Pool.forall_put hkept fun pc' hpc' => ?_
      subst hpc'
      cases p with
      | link c | ingest pc =>
        obtain ⟨_, _, ⟨⟩⟩ := Option.map_eq_some_iff.mp hact
      | revoke pc =>
        obtain ⟨_, hrevoke, ⟨⟩⟩ := Option.map_eq_some_iff.mp hact
        exact reached_revokeAct hi hno hc hrevoke h
  · have hbefore : Still s ∧ CachedIn s [] := by
      rcases poolStep_cases h with ⟨rq, -, rfl⟩ | ⟨c, i, p, st, p', rfl, hc, hact, rfl⟩
      · exact hi.revoked hrevoked
      · rcases (hubAct_effect hact).revoked hrevoked with hold | rfl
        · exact hi.revoked hold
        · exact (hi.reached _ (Pool.mem_of_call hc) _ rfl).2 (by decide)
    exact ⟨still_step h hi.registry hbefore.1, cachedIn_step h hbefore.1 hbefore.2⟩

theorem revocationHolds_of_inv (hi : RevokeInv s) : RevocationHolds s := by
  intro hrevoked
  obtain ⟨hstill, hcached⟩ := hi.revoked hrevoked
  refine ⟨hstill.1.2, List.eq_nil_iff_forall_not_mem.mpr fun row hrow => ?_⟩
  exact absurd (hcached row hrow) List.not_mem_nil

theorem revokeInv_started (row : SiteRow) (cache : List CacheRow) :
    RevokeInv (hubStarted row cache) where
  registry _ h := absurd h (Nat.not_lt_zero _)
  reached _ h := absurd h List.not_mem_nil
  revoked h := by cases h

end

/-- **Revocation is final** in every run in which it overtakes neither a handler nor a push. -/
theorem revocation_final (row : SiteRow) (cache : List CacheRow) (ms : List HubMove)
    (h : Guarded hubStep (fun s m => ¬ Overtakes s m) (hubStarted row cache) ms) :
    Throughout hubStep RevocationHolds (hubStarted row cache) ms :=
  throughout_of_invariant revokeInv_step revocationHolds_of_inv (revokeInv_started row cache) h

/-! ## A site that is linked -/

def advanced (n c : ℕ) : List HubMove := List.replicate n (.advance c ⟨true, none⟩)

def revokedBy (c : ℕ) : List HubMove := [.begin .revoke] ++ advanced 12 c

/-- A site that is linked and has cached rows is revoked, and connects again in vain. -/
theorem revocation_final_linked :
    Throughout hubStep RevocationHolds (hubStarted ⟨.active, .down⟩ [⟨.scans, "7", "{}"⟩])
      ([.begin (.link .connect)] ++ advanced 6 0 ++ revokedBy 1 ++ [.begin (.link .connect)] ++
        advanced 1 2) :=
  revocation_final _ _ _ (by decide +kernel)

/-- The handler of the site stands before `Put` when the revocation begins. -/
def revokedBeforePut : List HubMove :=
  [.begin (.link .connect)] ++ advanced 3 0 ++ revokedBy 1 ++ advanced 1 0

/-- A push has decoded a host when the revocation begins. -/
def revokedBeforeStore : List HubMove :=
  [.begin (.link .connect)] ++ advanced 6 0 ++
    [.begin (.push 0), .advance 1 ⟨true, none⟩,
    .advance 1 ⟨true, some (.host (some ("web", "{}")))⟩] ++ revokedBy 2 ++ advanced 1 1

/-- The session is registered, and the host is cached, after the site has been revoked. -/
theorem revocation_overtaken :
    (∃ s, exec hubStep (hubStarted ⟨.active, .down⟩ []) revokedBeforePut = some s ∧
      s.store.revoked ∧ s.store.link.get = some 0 ∧ ¬ RevocationHolds s) ∧
    ∃ s, exec hubStep (hubStarted ⟨.active, .down⟩ []) revokedBeforeStore = some s ∧
      s.store.revoked ∧ s.store.cache = [⟨.hosts, "web", "{}"⟩] ∧ ¬ RevocationHolds s := by
  constructor
  · refine ⟨_, rfl, rfl, by decide +kernel, fun hholds => ?_⟩
    exact absurd (hholds rfl).1 (by decide +kernel)
  · refine ⟨_, rfl, rfl, by decide +kernel, fun hholds => ?_⟩
    exact absurd (hholds rfl).2 (by decide +kernel)

end Moorgate.Federation
