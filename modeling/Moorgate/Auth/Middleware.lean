import Moorgate.Auth.Timeouts
import Moorgate.Framework.Base.Checks
import Moorgate.Framework.Base.Text
import Moorgate.Framework.Base.Url

/-!
# The entries of the API: `auth/middleware.go`

A request reaches a handler through `RequireAuth`, or through `AuthenticateToken` where a browser
cannot send a header. An account that has to change its password is let through by `RequireAuth`
only to paths that contain `/api/v1/auth/`. That is the unescaped path, while the router matches
the text as it was sent: in place of a parameter or a wildcard it can hold the marker, plain or
escaped. `AuthenticateToken` does not look at the flag.
-/

namespace Moorgate.Auth

open Framework Models Store

/-! ## Routes -/

inductive Gate where
  | requireAuth | authenticateToken
deriving DecidableEq

/-- A mounted handler: its full pattern and the entry it is behind. -/
structure Route where
  pattern : String
  gate : Gate

/-- The router: the handler that is mounted for a path. -/
abbrev Router := List Char → Option Route

def authPath : List Char := "/api/v1/auth/".toList

/-- The handler is mounted below `/api/v1/auth/`. -/
def Route.belowAuth (ρ : Route) : Bool := authPath.isPrefixOf ρ.pattern.toList

/-! ## Who gets in -/

structure ApiTokenAuth where
  serviceAccountID : UUID
  username : String
  disabled : Bool
  (expiresAt revokedAt : Option Instant)
  tenantID : UUID

/-- The `Authorization` header: `none` is a token that no record matches, or one that
does not parse. -/
inductive Bearer where
  | missing
  | api (record : Option ApiTokenAuth)
  | access (claims : Option Claims)

/-- What a hub asserts of its user, who has the account `shadowID` on the site. -/
structure Assertion where
  shadowID : UUID
  username : String
  isSuperAdmin : Bool
  permissions : List String

/-- `text` is the path as it was sent; `token` is what `WSToken` or the query holds. -/
structure Request where
  text : List Char
  federated : Option Assertion
  bearer : Bearer
  token : Option Claims

structure Refusal where
  status : ℕ
  message : String
deriving DecidableEq

section

variable (cfg : Config) (acc : Accounts) (now : Instant) (t : Sessions)

def federatedPrincipal (a : Assertion) : Principal where
  userID := a.shadowID
  sessionID := UUID.nil
  username := "hub:" ++ a.username
  isSuperAdmin := a.isSuperAdmin || decide ("*" ∈ a.permissions)
  permissions := a.permissions.filter fun p => decide (p ≠ "*")
  mustChangePw := false
  tenantID := UUID.nil

def authenticateAPIToken (record : Option ApiTokenAuth) : Except AuthError Principal :=
  match record with
  | none => .error .sessionInvalid
  | some r =>
    if r.revokedAt.isSome ∨ r.disabled ∨ r.expiresAt.any (fun e => decide (e ≤ now))
      then .error .sessionInvalid
    else
      match acc.userPermissions r.serviceAccountID with
      | none => .error .store
      | some perms =>
        .ok { userID := r.serviceAccountID, sessionID := UUID.nil, username := r.username
              isSuperAdmin := false, permissions := perms, mustChangePw := false, tenantID :=
              r.tenantID }

def requireAuth (path : List Char) (req : Request) : Except Refusal Principal × Sessions :=
  match req.federated with
  | some a => (.ok (federatedPrincipal a), t)
  | none =>
    let pass (p : Principal) : Except Refusal Principal :=
      if p.mustChangePw ∧ ¬ authPath <:+: path then .error ⟨403, "password change required"⟩
        else .ok p
    match req.bearer with
    | .missing => (.error ⟨401, "missing access token"⟩, t)
    | .api record =>
      match authenticateAPIToken acc now record with
      | .error _ => (.error ⟨401, "invalid api token"⟩, t)
      | .ok p => (pass p, t)
    | .access none => (.error ⟨401, "invalid access token"⟩, t)
    | .access (some claims) =>
      match loadPrincipal cfg acc now claims t with
      | (.error _, t) => (.error ⟨401, "session invalid"⟩, t)
      | (.ok p, t) => (pass p, t)

def authenticateToken (token : Option Claims) : Except Refusal Principal × Sessions :=
  match token with
  | none => (.error ⟨401, "unauthorized"⟩, t)
  | some claims =>
    match loadPrincipal cfg acc now claims t with
    | (.error _, t) => (.error ⟨401, "unauthorized"⟩, t)
    | (.ok p, t) => (.ok p, t)

def enter (ρ : Route) (path : List Char) (req : Request) : Except Refusal Principal × Sessions :=
  match ρ.gate with
  | .requireAuth => requireAuth cfg acc now t path req
  | .authenticateToken => authenticateToken cfg acc now t req.token

def serve (mux : Router) (req : Request) : Except Refusal (Route × Principal) × Sessions :=
  match setPath req.text with
  | none => (.error ⟨400, "400 Bad Request"⟩, t)
  | some url =>
    match mux url.routePath with
    | none => (.error ⟨404, "404 page not found"⟩, t)
    | some ρ => (enter cfg acc now t ρ url.path req).map (Except.map (ρ, ·)) id

/-- Whoever has to change their password does not get to a handler, unless it is mounted
below `/api/v1/auth/`. -/
def ChangeEnforced (mux : Router) (req : Request) : Prop :=
  ∀ ρ p, (serve cfg acc now t mux req).1 = .ok (ρ, p) → p.mustChangePw → ρ.belowAuth

/-- The claims of a live session whose account has to change its password. -/
def Flagged (claims : Option Claims) : Prop :=
  ∃ c ∈ claims, ∃ p, (loadPrincipal cfg acc now c t).1 = .ok p ∧ p.mustChangePw

/-- A flagged account is not stopped: the handler is behind `AuthenticateToken`, or behind
`RequireAuth` and the unescaped path has the marker. -/
def Passes (ρ : Route) (path : List Char) (req : Request) : Prop :=
  match ρ.gate with
  | .authenticateToken => Flagged cfg acc now t req.token
  | .requireAuth => authPath <:+: path ∧ req.federated = none ∧
      ∃ claims, req.bearer = .access claims ∧ Flagged cfg acc now t claims

/-- The same for a handler outside `/api/v1/auth/`. -/
def Sidesteps (mux : Router) (req : Request) : Prop :=
  ∃ url ∈ setPath req.text, ∃ ρ ∈ mux url.routePath, ρ.belowAuth = false ∧
    Passes cfg acc now t ρ url.path req

end

section

variable {cfg : Config} {acc : Accounts} {now : Instant} {t : Sessions} {req : Request}

theorem mustChangePw_authenticateAPIToken {record : Option ApiTokenAuth} {p : Principal}
    (h : authenticateAPIToken acc now record = .ok p) : p.mustChangePw = false := by
  revert h
  fun_cases authenticateAPIToken acc now record with
  | case4 =>
    rintro ⟨⟩
    rfl
  | _ => rintro ⟨⟩

/-- An account passes `RequireAuth` with the flag set exactly if the path has the marker. A
principal that a hub asserts, and a service account, has no flag. -/
theorem requireAuth_flagged_iff {path : List Char} :
    (∃ p, (requireAuth cfg acc now t path req).1 = .ok p ∧ p.mustChangePw) ↔
      authPath <:+: path ∧ req.federated = none ∧
        ∃ claims, req.bearer = .access claims ∧ Flagged cfg acc now t claims := by
  constructor
  · rintro ⟨p, h, hflag⟩
    revert h
    fun_cases requireAuth cfg acc now t path req with
    | case1 =>
      rintro ⟨⟩
      cases hflag
    | case4 _ pass record hbearer q hq =>
      intro h
      dsimp only [pass] at h
      split_ifs at h with hpass
      cases h
      cases hflag.symm.trans (mustChangePw_authenticateAPIToken hq)
    | case7 hfed pass claims hbearer q t' hload =>
      intro h
      dsimp only [pass] at h
      split_ifs at h with hpass
      cases h
      refine ⟨not_and_not_right.mp hpass hflag, hfed, _, hbearer, claims, rfl, p, ?_, hflag⟩
      rw [hload]
    | _ => rintro ⟨⟩
  · rintro ⟨hmarker, hfed, -, hbearer, c, ⟨⟩, p, hload, hflag⟩
    refine ⟨p, ?_, hflag⟩
    obtain ⟨t', hload⟩ : ∃ t', loadPrincipal cfg acc now c t = (.ok p, t') :=
      ⟨_, Prod.ext hload rfl⟩
    simp [requireAuth, hfed, hbearer, hload, hmarker]

theorem authenticateToken_flagged_iff {token : Option Claims} :
    (∃ p, (authenticateToken cfg acc now t token).1 = .ok p ∧ p.mustChangePw) ↔
      Flagged cfg acc now t token := by
  unfold authenticateToken Flagged
  cases token with
  | none => simp
  | some claims =>
    cases hload : loadPrincipal cfg acc now claims t with
    | mk result t' => cases result <;> simp [hload]

theorem enter_flagged_iff {ρ : Route} {path : List Char} :
    (∃ p, (enter cfg acc now t ρ path req).1 = .ok p ∧ p.mustChangePw) ↔
      Passes cfg acc now t ρ path req := by
  unfold enter Passes
  cases ρ.gate with
  | requireAuth => exact requireAuth_flagged_iff
  | authenticateToken => exact authenticateToken_flagged_iff

end

/-- User 1 has to change their password and has session 5. -/
def flaggedAccounts : Accounts where
  getUserByID id := some ⟨id, "flagged", UUID.nil, false, false, true⟩
  userPermissions _ := some []

def flaggedSessions : Sessions := .single ⟨.ofNat 5, .ofNat 1, "", none, "", true, 0, 0, hour, none⟩

def flaggedClaims : Claims := issueAccessToken sampleConfig 0 (.ofNat 1) (.ofNat 5) "flagged"

def proxyRoute : Route := ⟨"/api/v1/federation/sites/{siteId}/proxy/*", .requireAuth⟩

def terminalRoute : Route := ⟨"/api/v1/terminal/{hostId}", .authenticateToken⟩

def settingsRoute : Route := ⟨"/api/v1/settings/{key}", .requireAuth⟩

/-- The three routes, each with the texts that its pattern stands for. -/
def sampleRouter : Router := fun text =>
  let below (pre : String) := pre.toList.isPrefixOf text
  let single (pre : String) := below pre && !(text.drop pre.length).contains '/'
  if below "/api/v1/federation/sites/1/proxy/" then some proxyRoute
  else if single "/api/v1/terminal/" then some terminalRoute
  else if single "/api/v1/settings/" then some settingsRoute
  else none

/-- Their request, with the access token where either entry looks for it. -/
def flaggedRequest (text : String) : Request :=
  ⟨text.toList, none, .access (some flaggedClaims), some flaggedClaims⟩

/-- The handler that runs when they request the path, and whether for a flagged account. -/
def flaggedServe (text : String) : Except Refusal (String × Bool) :=
  (serve sampleConfig flaggedAccounts 0 flaggedSessions sampleRouter (flaggedRequest text)).1.map
    fun (ρ, p) => (ρ.pattern, p.mustChangePw && !ρ.belowAuth)

theorem not_enforced_of_flaggedServe {text pattern : String}
    (h : flaggedServe text = .ok (pattern, true)) :
    ¬ ChangeEnforced sampleConfig flaggedAccounts 0 flaggedSessions sampleRouter
      (flaggedRequest text) := by
  intro henforced
  obtain ⟨⟨ρ, p⟩, hserve, hview⟩ := map_eq_ok.mp h
  rw [Prod.mk.injEq, Bool.and_eq_true, Bool.not_eq_true'] at hview
  exact Bool.eq_false_iff.mp hview.2.2 (henforced ρ p hserve hview.2.1)

end Moorgate.Auth
