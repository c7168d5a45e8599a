import Moorgate.Accesspolicy.Engine
import Moorgate.Federation.Ingress
import Moorgate.Store.HostAccess

/-!
# Two ways to a terminal: `terminal/terminal.go`

`serve` asks for `Host.Connect`, for access to the host, and for the access policies, and then runs
the relay. `ServeFederated` runs the same relay for a principal that `serveHubWS` has made of an
assertion, and asks for nothing. What the first way guarantees (`permitted_of_serve`) the second
has to take from the claims and from the policies of the site (`federated_terminal_permitted_iff`).
-/

namespace Moorgate.Terminal

open Framework Models Auth Store Accesspolicy Federation

/-- A host, so far as the policies read it. -/
structure Host where
  id : UUID
  (hostname environment : String)
  tags : List String
  protocol : String
deriving DecidableEq

def Host.attrs (h : Host) : HostAttrs := ⟨h.environment, h.tags, h.protocol⟩

/-- What a site has: its policies, the tables of access when they can be read, and its hosts. -/
structure Site where
  policy : PolicyEnv
  access : Option AccessTables
  getHost : UUID → Option Host

inductive Entry where
  | refused (status : ℕ) (text : String)
  | closed
  | running (p : Principal) (host : Host) (clientIP : String)
deriving DecidableEq

/-- A request to the endpoint: what its token and the id in its path are found to be. -/
structure Attempt where
  principal : Option Principal
  hostID : Option UUID
  clientIP : String
  upgrades : Bool
  now : Instant

def connCtx (p : Principal) (host : Host) (clientIP : String) : ConnCtx :=
  ⟨p.userID, p.username, p.isSuperAdmin, host.id, host.hostname, host.attrs, "terminal", clientIP⟩

def serve (S : Site) (a : Attempt) : Entry × Option AccessDenied :=
  match a.principal with
  | none => (.refused 401 "unauthorized", none)
  | some p =>
    if p.has "Host.Connect" = false then (.refused 403 "forbidden", none)
    else
      match a.hostID with
      | none => (.refused 400 "bad host id", none)
      | some hostID =>
        let mayAccess := p.isSuperAdmin ||
            (S.access.map fun t => userCanAccessHost a.now p.userID t hostID).getD false
        if mayAccess = false then (.refused 403 "not authorized for host", none)
        else
          match S.getHost hostID with
          | none => (.refused 404 "host not found", none)
          | some host =>
            let (dec, event) := authorize S.policy (connCtx p host a.clientIP) a.now
            if dec.denied then (.refused 403 dec.reason, event)
            else if a.upgrades then (.running p host a.clientIP, none)
            else (.closed, none)

def serveFederated (p : Principal) (host : Host) (clientIP : String) : Entry :=
  .running p host clientIP

/-- `serveHubWS` with the hosts of the site: the claims, and the terminal that runs. -/
def hubTerminal (L : FederationLib) (S : Site) (ready gateway : Bool) (i : VerifyInput)
    (t : SiteTables) (f : Frame) : Option (AssertionClaims × Entry) :=
  match (serveHubWS L ⟨ready, gateway, fun id => (S.getHost id).isSome⟩ i t f).1 with
  | .terminal claims p hostID =>
    (S.getHost hostID).map fun host => (claims, serveFederated p host "federation")
  | _ => none

def Permitted (S : Site) (p : Principal) (host : Host) (now : Instant) : Prop :=
  p.has "Host.Connect" ∧ (check S.policy p.userID p.isSuperAdmin host.attrs now).denied = false

theorem permitted_of_serve {S : Site} {a : Attempt} {p : Principal} {host : Host}
    {clientIP : String} (h : (serve S a).1 = .running p host clientIP) :
    Permitted S p host a.now := by
  revert h
  fun_cases serve S a with
  | case7 _ _ hhas _ _ _ _ _ _ _ _ hdecided hdenied =>
    obtain ⟨rfl, -⟩ := Prod.mk.inj hdecided
    rintro ⟨⟩
    exact ⟨Bool.eq_true_of_not_eq_false hhas, Bool.eq_false_of_not_eq_true hdenied⟩
  | _ => rintro ⟨⟩

/-! ## Terminals of the hub -/

def SuperAsserted (claims : AssertionClaims) : Prop := claims.superAdmin ∨ "*" ∈ claims.permissions

def ConnectAsserted (claims : AssertionClaims) : Prop :=
  SuperAsserted claims ∨ "Admin.All" ∈ claims.permissions ∨ "Host.Connect" ∈ claims.permissions

def Unrestricted (S : Site) (userID : UUID) (host : Host) (now : Instant) : Prop :=
  ∃ rows, S.policy.policies = some rows ∧
    ∀ policy ∈ rows, ¬ S.policy.Matches userID host.attrs now policy

section

variable {L : FederationLib} {S : Site} {i : VerifyInput} {t t' : SiteTables} {f : Frame}
  {body : ByteString} {claims : AssertionClaims} {p : Principal} {host : Host} {now : Instant}

theorem isSuperAdmin_assertedPrincipal {shadowID : UUID} :
    (assertedPrincipal claims shadowID).isSuperAdmin ↔ SuperAsserted claims := by
  unfold assertedPrincipal SuperAsserted
  rw [Bool.or_eq_true, decide_eq_true_eq]

theorem has_assertedPrincipal {shadowID : UUID} :
    (assertedPrincipal claims shadowID).has "Host.Connect" ↔ ConnectAsserted claims := by
  have hmem : ∀ perm, perm ≠ "*" → (perm ∈ (assertedPrincipal claims shadowID).permissions ↔
      perm ∈ claims.permissions) := by
    intro perm hne
    simp [assertedPrincipal, hne]
  unfold Principal.has ConnectAsserted
  rw [Bool.or_eq_true, Bool.or_eq_true, isSuperAdmin_assertedPrincipal, decide_eq_true_eq,
    decide_eq_true_eq, hmem _ (by decide), hmem _ (by decide), or_assoc]

theorem asserted_of_verify (h : verifyAssertion L i t f body = (some (claims, p), t')) :
    ∃ shadowID, p = assertedPrincipal claims shadowID := by
  rcases verifyAssertion_cases (L := L) (i := i) (t := t) (f := f) with hnone | ⟨_, _, _, _, _,
    hnone | ⟨shadowID, _, _, hsome⟩⟩
  · cases hnone.symm.trans h
  · cases hnone.symm.trans h
  · cases hsome.symm.trans h
    exact ⟨shadowID, rfl⟩

theorem permitted_iff (hp : ∃ shadowID, p = assertedPrincipal claims shadowID) :
    Permitted S p host now ↔ ConnectAsserted claims ∧
    (SuperAsserted claims ∨ Unrestricted S p.userID host now) := by
  obtain ⟨shadowID, rfl⟩ := hp
  have hsuper : SuperAsserted claims ↔ (assertedPrincipal claims shadowID).isSuperAdmin :=
    isSuperAdmin_assertedPrincipal.symm
  have hdenied : (check S.policy (assertedPrincipal claims shadowID).userID
      (assertedPrincipal claims shadowID).isSuperAdmin host.attrs now).denied = false ↔
      SuperAsserted claims ∨
      Unrestricted S (assertedPrincipal claims shadowID).userID host now := by
    rw [← Bool.not_eq_true, denied_check_iff, not_and_or, Bool.not_eq_false, ← hsuper]
    push Not
    rfl
  unfold Permitted
  rw [has_assertedPrincipal, hdenied]

/-- A terminal of the hub runs for a principal of the claims. -/
theorem asserted_of_hubTerminal {ready gateway : Bool} {clientIP : String}
    (h : hubTerminal L S ready gateway i t f = some (claims, .running p host clientIP)) :
    ∃ shadowID, p = assertedPrincipal claims shadowID := by
  unfold hubTerminal at h
  split at h
  · rename_i claims' p' hostID hserve
    obtain ⟨host', -, ⟨⟩⟩ := Option.map_eq_some_iff.mp h
    rcases hws : serveHubWS L ⟨ready, gateway, fun id => (S.getHost id).isSome⟩ i t f with
      ⟨served, t'⟩
    rw [hws] at hserve
    subst hserve
    cases wsOutcome hws with
    | terminal hverify => exact asserted_of_verify hverify
  · cases h

end

/-- **Every terminal of the site's own endpoint is permitted; one of the hub** exactly when the
claims assert the right to connect, and no policy of the site matches or the claims assert a super
administrator. -/
theorem federated_terminal_permitted_iff (L : FederationLib) (S : Site) (ready gateway : Bool)
    (i : VerifyInput) (t : SiteTables) (f : Frame) :
    (∀ a p host clientIP, (serve S a).1 = .running p host clientIP → Permitted S p host a.now) ∧
    ((∀ claims p host clientIP, hubTerminal L S ready gateway i t f = some (claims,
      .running p host clientIP) →
        Permitted S p host i.now) ↔
      ∀ claims p host clientIP, hubTerminal L S ready gateway i t f =
        some (claims, .running p host clientIP) →
        ConnectAsserted claims ∧ (SuperAsserted claims ∨ Unrestricted S p.userID host i.now)) := by
  refine ⟨fun _ _ _ _ => permitted_of_serve, ?_⟩
  refine forall_congr' fun claims => forall_congr' fun p => forall_congr' fun host => forall_congr'
    fun clientIP => ?_
  exact imp_congr_right fun h => permitted_iff (asserted_of_hubTerminal h)

/-! ## A terminal that the site itself would refuse -/

/-- `plainLib` with claims to other permissions. -/
def permissionLib (permissions : List String) : FederationLib :=
  { plainLib with
    assertion := fun token _ _ =>
      some ⟨"site", "7", "operator", permissions, false, [], String.ofList (chars token), "once"⟩ }

def freeze : AccessPolicy := ⟨⟨1⟩, "freeze", true, 0, [], [], [], [], [], 0, 0, "", 0⟩

def policySite (policies : List AccessPolicy) : Site where
  policy := ⟨fun a b => decide (a = b), fun _ => "", fun _ => none, fun _ => ⟨0, 0, 0⟩,
    some policies, fun _ => some [], ""⟩
  access := none
  getHost _ := some ⟨⟨7⟩, "db", "production", [], "ssh"⟩

def terminalFrame : Frame :=
  ⟨.ws, utf8 "GET", utf8 "/api/v1/terminal/7", [], fun _ => [], 0, [],
    getToken "/api/v1/terminal/7"⟩

/-- Claims without the right to connect start a terminal; and so do claims with it on a host that
a policy of the site denies to everyone. -/
theorem federated_terminal_not_permitted :
    (∃ claims p host, hubTerminal (permissionLib ["Host.View"]) (policySite []) true true allSucceed
      joinedTables terminalFrame =
        some (claims, .running p host "federation") ∧ p.has "Host.Connect" = false ∧
      ¬ Permitted (policySite []) p host allSucceed.now) ∧
    ∃ claims p host, hubTerminal (permissionLib ["Host.Connect"])
      (policySite [freeze]) true true allSucceed joinedTables
        terminalFrame = some (claims, .running p host "federation") ∧ p.has "Host.Connect" ∧
      ¬ Permitted (policySite [freeze]) p host allSucceed.now := by
  let claimsOf (perm : String) : AssertionClaims :=
    ⟨"site", "7", "operator", [perm], false, [],
      String.ofList (chars (getToken "/api/v1/terminal/7")), "once"⟩
  let db : Host := ⟨⟨7⟩, "db", "production", [], "ssh"⟩
  refine ⟨⟨claimsOf "Host.View", assertedPrincipal (claimsOf "Host.View") ⟨9⟩, db,
    by decide +kernel, by decide +kernel, ?_⟩,
    ⟨claimsOf "Host.Connect", assertedPrincipal (claimsOf "Host.Connect") ⟨9⟩, db,
    by decide +kernel, by decide +kernel, ?_⟩⟩
  · exact fun hpermitted => absurd hpermitted.1 (by decide +kernel)
  · intro hpermitted
    have hdenied : (check (policySite [freeze]).policy ⟨9⟩ false db.attrs 0).denied := by
      refine denied_check_iff.mpr ⟨rfl, ?_⟩
      intro rows hrows
      cases hrows
      exact ⟨freeze, List.mem_singleton_self _, rfl, by decide +kernel⟩
    cases hdenied.symm.trans hpermitted.2

end Moorgate.Terminal
