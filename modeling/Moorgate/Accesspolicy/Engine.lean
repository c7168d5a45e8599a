import Moorgate.Models.Ids

/-!
# Access policies: `accesspolicy/engine.go` and `accesspolicy/enforcer.go`

A rule denies a connection that roles would permit, by what the host is, by the time, and by the
roles of the user. A connection is denied exactly when some enabled rule matches it
(`denied_check_iff`), or when the rules cannot be read. Case folding and time zones are parameters.
-/

namespace Moorgate.Accesspolicy

open Framework Models

/-! ## The engine -/

structure Rule where
  (id name : String)
  priority : ℤ
  (environments tags protocols exemptRoles : List String)
  activeDays : List ℤ
  (activeStart activeEnd : ℤ)
  denyMessage : String
deriving DecidableEq

structure Subject where
  roles : List String
  isSuperAdmin : Bool

structure HostAttrs where
  environment : String
  tags : List String
  protocol : String
deriving DecidableEq

structure Decision where
  denied : Bool
  (ruleID ruleName reason : String)
deriving DecidableEq

def Decision.allow : Decision := ⟨false, "", "", ""⟩

structure LocalTime where
  weekday : Fin 7
  hour : Fin 24
  minute : Fin 60
deriving DecidableEq

def LocalTime.mins (now : LocalTime) : ℤ := now.hour * 60 + now.minute

def Rule.timeActive (r : Rule) (now : LocalTime) : Bool :=
  if r.activeDays ≠ [] ∧ (now.weekday : ℤ) ∉ r.activeDays then false
  else if r.activeStart = r.activeEnd then true
  else if r.activeStart < r.activeEnd then
    decide (r.activeStart ≤ now.mins ∧ now.mins < r.activeEnd)
  else decide (r.activeStart ≤ now.mins ∨ now.mins < r.activeEnd) -- past midnight

def anyOverlap (a b : List String) : Bool := a.any fun x => decide (x ∈ b)

section

variable (equalFold : String → String → Bool)

def containsFold (set : List String) (v : String) : Bool := set.any fun s => equalFold s v

def anyOverlapFold (a b : List String) : Bool := a.any fun x => containsFold equalFold b x

def Rule.matchesHost (r : Rule) (subject : Subject) (host : HostAttrs) (now : LocalTime) : Bool :=
  if anyOverlap subject.roles r.exemptRoles then false
  else if r.environments ≠ [] ∧ containsFold equalFold r.environments host.environment = false
    then false
  else if r.protocols ≠ [] ∧ containsFold equalFold r.protocols host.protocol = false then false
  else if r.tags ≠ [] ∧ anyOverlapFold equalFold host.tags r.tags = false then false
  else r.timeActive now

/-- `Evaluate`: the first rule that matches. -/
def evaluate (rules : List Rule) (subject : Subject) (host : HostAttrs) (now : LocalTime) :
    Decision :=
  if subject.isSuperAdmin then .allow
  else
    match rules.find? fun r => r.matchesHost equalFold subject host now with
    | some r =>
      let reason :=
        if r.denyMessage = "" then "Access denied by policy: " ++ r.name else r.denyMessage
      ⟨true, r.id, r.name, reason⟩
    | none => .allow

theorem denied_evaluate_iff {rules : List Rule} {subject : Subject} {host : HostAttrs}
    {now : LocalTime} : (evaluate equalFold rules subject host now).denied ↔
      subject.isSuperAdmin = false ∧ ∃ r ∈ rules, r.matchesHost equalFold subject host now := by
  unfold evaluate
  cases subject.isSuperAdmin with
  | true => simp [Decision.allow]
  | false =>
    cases hfind : rules.find? fun r => r.matchesHost equalFold subject host now with
    | some r => simpa using ⟨r, List.mem_of_find?_eq_some hfind,
        by simpa using List.find?_some hfind⟩
    | none =>
      refine iff_of_false (by simp [Decision.allow]) ?_
      rintro ⟨-, r, hr, hmatch⟩
      exact List.find?_eq_none.mp hfind r hr hmatch

end

/-! ## The enforcer -/

/-- A row of `access_policies`, so far as it is compiled. -/
structure AccessPolicy where
  id : UUID
  name : String
  enabled : Bool
  priority : ℤ
  (environments tags protocols exemptRoles : List String)
  activeDays : List ℤ
  (activeStart activeEnd : ℤ)
  denyMessage : String
  createdAt : Instant
deriving DecidableEq

def enabledAccessPolicies (rows : List AccessPolicy) : List AccessPolicy :=
  (rows.filter AccessPolicy.enabled).mergeSort fun p q =>
    decide (p.priority < q.priority ∨ (p.priority = q.priority ∧ p.createdAt ≤ q.createdAt))

theorem mem_enabledAccessPolicies {rows : List AccessPolicy} {p : AccessPolicy} :
    p ∈ enabledAccessPolicies rows ↔ p ∈ rows ∧ p.enabled := by
  unfold enabledAccessPolicies
  rw [List.mem_mergeSort, List.mem_filter]

/-- What the library and the store give: the folding of texts, the texts of ids, the zones, the
rows of the policies and the roles of a user, each of which may fail to be read, and the name of
the zone that is set. -/
structure PolicyEnv where
  equalFold : String → String → Bool
  idString : UUID → String
  zone : String → Option (Instant → LocalTime)
  localZone : Instant → LocalTime
  policies : Option (List AccessPolicy)
  userRoleNames : UUID → Option (List String)
  displayTimezone : String

section

variable (E : PolicyEnv)

/-- `compile`, of one policy. -/
def compile (p : AccessPolicy) : Rule where
  id := E.idString p.id
  name := p.name
  priority := p.priority
  environments := p.environments
  tags := p.tags
  protocols := p.protocols
  exemptRoles := p.exemptRoles
  activeDays := p.activeDays
  activeStart := p.activeStart
  activeEnd := p.activeEnd
  denyMessage := p.denyMessage

/-- The time in the zone that is set, or in that of the machine when there is no such zone. -/
def PolicyEnv.inZone (now : Instant) : LocalTime :=
  if E.displayTimezone = "" then E.localZone now
    else ((E.zone E.displayTimezone).getD E.localZone) now

def PolicyEnv.rolesOf (userID : UUID) : List String := (E.userRoleNames userID).getD []

def check (userID : UUID) (isSuper : Bool) (host : HostAttrs) (now : Instant) : Decision :=
  if isSuper then .allow
  else
    match E.policies.map enabledAccessPolicies with
    | none => ⟨true, "", "",
        "access policy store unavailable; access denied (fail closed) — retry shortly"⟩
    | some [] => .allow
    | some policies =>
      evaluate E.equalFold (policies.map (compile E)) ⟨E.rolesOf userID,
        isSuper⟩ host (E.inZone now)

/-- The policy is enabled and denies the user the host. -/
def PolicyEnv.Matches (userID : UUID) (host : HostAttrs) (now : Instant)
    (p : AccessPolicy) : Prop :=
  p.enabled ∧ (compile E p).matchesHost E.equalFold ⟨E.rolesOf userID, false⟩ host (E.inZone now)

variable {E}

theorem denied_check_iff {userID : UUID} {isSuper : Bool} {host : HostAttrs} {now : Instant} :
    (check E userID isSuper host now).denied ↔
      isSuper = false ∧ ∀ rows, E.policies = some rows →
      ∃ p ∈ rows, E.Matches userID host now p := by
  unfold check
  cases isSuper with
  | true => simp [Decision.allow]
  | false =>
    rw [if_neg Bool.noConfusion]
    cases hrows : E.policies with
    | none => simp
    | some rows =>
      have hmatches : (∃ r ∈ (enabledAccessPolicies rows).map (compile E),
          r.matchesHost E.equalFold ⟨E.rolesOf userID, false⟩ host (E.inZone now)) ↔
            ∃ p ∈ rows, E.Matches userID host now p := by
        constructor
        · rintro ⟨r, hr, hmatch⟩
          obtain ⟨p, hp, rfl⟩ := List.mem_map.mp hr
          obtain ⟨hmem, henabled⟩ := mem_enabledAccessPolicies.mp hp
          exact ⟨p, hmem, henabled, hmatch⟩
        · rintro ⟨p, hp, henabled, hmatch⟩
          exact ⟨_, List.mem_map_of_mem (mem_enabledAccessPolicies.mpr ⟨hp, henabled⟩), hmatch⟩
      have hforall : (∀ rows', some rows = some rows' → ∃ p ∈ rows', E.Matches userID host now p) ↔
          ∃ p ∈ rows, E.Matches userID host now p := by simp
      rw [hforall, ← hmatches, Option.map_some]
      cases hpolicies : enabledAccessPolicies rows with
      | nil => simp [Decision.allow]
      | cons p policies => exact denied_evaluate_iff E.equalFold

end

structure ConnCtx where
  userID : UUID
  username : String
  isSuper : Bool
  hostID : UUID
  hostName : String
  host : HostAttrs
  (surface ip : String)

structure AccessDenied where
  actorID : UUID
  (actorName targetID ip host surface policy policyID reason : String)
deriving DecidableEq

/-- `Authorize`: the decision, and the event of a denial. -/
def authorize (E : PolicyEnv) (c : ConnCtx) (now : Instant) : Decision × Option AccessDenied :=
  let dec := check E c.userID c.isSuper c.host now
  (dec, if dec.denied then
    some ⟨c.userID, c.username, E.idString c.hostID, c.ip, c.hostName, c.surface, dec.ruleName,
      dec.ruleID, dec.reason⟩
    else none)

end Moorgate.Accesspolicy
