import Moorgate.Admin.Roles
import Moorgate.Auth.SecondFactor
import Moorgate.Framework.Base.Checks

/-!
# External logins: `auth/oidc.go`, `auth/saml.go`, `auth/ldap.go`

The login of an identity provider is bound to the account with the name it vouches for, else with
the address, else to a new one; never to an account of another source or of a super administrator.
For OIDC an address must be verified where an account is looked up by its address. But it also
stands in for a missing name and is then looked up as one: an account whose name is an address is
bound by one that nobody has verified.
-/

namespace Moorgate.Auth

open Framework Models Store Admin

inductive Provider where
  | oidc | saml | ldap
deriving DecidableEq

def Provider.source : Provider → String
  | .oidc => "oidc"
  | .saml => "saml"
  | .ldap => "ldap"

/-- Which statements fail, and what `gen_random_uuid()` yields. -/
structure ProvisionEnv where
  (usernameFails emailFails createFails : Bool)
  roleFails : String → Bool
  fresh : UUID

/-- The part of the configuration that the three share; the map is one from group to role. -/
structure ProvisionConfig where
  defaultRole : String
  autoProvision : Bool
  groupRoleMap : List (String × String)

/-! ## Roles of groups -/

def reconcileGroupRoleActions (groupRoleMap : List (String × String)) (groups : List String) :
    List String × List String :=
  let managed := ((groupRoleMap.map Prod.snd).filter fun role => role ≠ "").dedup
  let desired := (groups.filterMap fun g => List.lookup g groupRoleMap).filter fun role => role ≠ ""
  managed.partition fun role => decide (role ∈ desired)

section

variable (env : ProvisionEnv) (d : Directory) (userID : UUID)

/-- `AssignRoleByName`; an error is dropped. -/
def Directory.assign (role : String) : Directory :=
  if env.roleFails role then d
    else { d with rbac := (assignRoleByName d.rbac d.users userID role).getD d.rbac }

/-- `RemoveRoleByName`; an error is dropped. -/
def Directory.remove (role : String) : Directory :=
  if env.roleFails role then d else { d with rbac := removeRoleByName d.rbac userID role }

def reconcileGroupRoles (groupRoleMap : List (String × String)) (groups : List String) :
    Directory :=
  let actions := reconcileGroupRoleActions groupRoleMap groups
  let assigned := actions.1.foldl (fun d role => Directory.assign env d userID role) d
  actions.2.foldl (fun d role => Directory.remove env d userID role) assigned

end

/-! ## Accounts -/

def idpAccountConflict (u : UserRow) (source : String) : Bool :=
  u.isSuperAdmin || decide (u.authSource ≠ source)

inductive ProvisionError where
  | noUsername | accountConflict | notProvisioned | provisionFailed | disabled | invalidCredentials
deriving DecidableEq

/-- What a provider says of a user. The address is used to find an account when `byEmail`. -/
structure Identity where
  (username email display : String)
  byEmail : Bool
  groups : List String

section

variable (ci : String → String) (env : ProvisionEnv) (d : Directory)

def findByUsername (username : String) : Option UserRow :=
  if env.usernameFails then none else getUserByUsername ci d.users username

def findByEmail (email : String) : Option UserRow :=
  if env.emailFails then none
  else d.users.rows.find? fun u => u.email.any fun e => decide (ci e = ci email)

/-- The account a lookup has found, unless it is not the provider's. -/
def owned (source : Provider) (u : UserRow) : Except ProvisionError UserRow :=
  if idpAccountConflict u source.source then .error .accountConflict else .ok u

def findAccount (source : Provider) (who : Identity) : Except ProvisionError (Option UserRow) :=
  match findByUsername ci env d who.username with
  | some u => (owned source u).map some
  | none =>
    if who.email ≠ "" ∧ who.byEmail then
      match findByEmail ci env d who.email with
      | some u => (owned source u).map some
      | none => .ok none
    else .ok none

def provision (c : ProvisionConfig) (source : Provider) (who : Identity) :
    Except ProvisionError (UserRow × Directory) :=
  if !c.autoProvision then .error .notProvisioned
  else
    match if env.createFails then none
      else createUser ci env.fresh ⟨who.username, who.email, who.display, false, false,
      source.source⟩ d.users with
    | none => .error .provisionFailed
    | some (u, users) =>
      .ok (u, Directory.assign env { d with users } u.id (if c.defaultRole =
        "" then "Read-Only" else c.defaultRole))

def foundOrNew (c : ProvisionConfig) (source : Provider) (who : Identity) :
    Option UserRow → Except ProvisionError (UserRow × Directory)
  | some u => .ok (u, d)
  | none => provision ci env d c source who

/-- The way from an identity to an account, which the three providers share. -/
def bindAccount (c : ProvisionConfig) (source : Provider) (who : Identity) :
    Except ProvisionError (UserRow × Directory) := do
  let found ← findAccount ci env d source who
  let bound ← foundOrNew ci env d c source who found
  refuseIf bound.1.isDisabled .disabled
  return (bound.1, reconcileGroupRoles env bound.2 bound.1.id c.groupRoleMap who.groups)

end

/-! ## The providers -/

inductive Claim where
  | absent
  | text (s : String)
  | flag (b : Bool)
  | list (ss : List String)
  | other

/-- `claimString`. -/
def Claim.string : Claim → String
  | .text s => trimSpace s
  | _ => ""

/-- `claimBool`. -/
def Claim.bool : Claim → Bool
  | .flag b => b
  | .text s => decide ((trimSpace s).toLower = "true")
  | _ => false

/-- `claimStrings`; of a list the elements that are texts. -/
def Claim.strings : Claim → List String
  | .list ss => ss
  | .text s => [s]
  | _ => []

structure OidcConfig extends ProvisionConfig where
  (usernameClaim emailClaim groupsClaim : String)

def orElse (v default : String) : String := if v = "" then default else v

section

variable (c : OidcConfig) (claims : String → Claim)

def claimedUsername : String := (claims (orElse c.usernameClaim "preferred_username")).string

def claimedEmail : String := (claims (orElse c.emailClaim "email")).string

def emailVerified : Bool := (claims "email_verified").bool

def oidcIdentity : Except ProvisionError Identity := do
  let username := orElse (claimedUsername c claims) (claimedEmail c claims)
  refuseIf (username == "") .noUsername
  return {
    username
    email := claimedEmail c claims
    display := (claims "name").string
    byEmail := emailVerified claims
    groups := if c.groupsClaim = "" then [] else (claims c.groupsClaim).strings }

end

structure SamlConfig extends ProvisionConfig where
  (usernameAttr emailAttr displayNameAttr groupsAttr : String)

/-- A validated assertion: an attribute that is absent has no values. -/
structure AssertionInfo where
  nameID : String
  values : String → List String

def samlAttrValues (info : AssertionInfo) (name : String) : List String :=
  if name = "" then [] else ((info.values name).map trimSpace).filter fun v => v ≠ ""

def samlAttrFirst (info : AssertionInfo) (name : String) : String :=
  (samlAttrValues info name).headD ""

/-- The assertion is signed, so its address needs no other word for it. -/
def samlIdentity (c : SamlConfig) (info : AssertionInfo) : Except ProvisionError Identity := do
  let username := orElse (samlAttrFirst info c.usernameAttr) (trimSpace info.nameID)
  refuseIf (username == "") .noUsername
  return {
    username
    email := samlAttrFirst info c.emailAttr
    display := samlAttrFirst info c.displayNameAttr
    byEmail := true
    groups := samlAttrValues info c.groupsAttr }

structure LdapConfig extends ProvisionConfig where
  enabled : Bool
  url : String
  startTLS : Bool
  (bindDN baseDN usernameAttr emailAttr displayNameAttr groupsAttr : String)

/-- The answers of a directory: `search` is `none` when it fails, and `userBind` tells whether
the entry's own password is right. -/
structure LdapServer where
  (dial startTLS serviceBind : Bool)
  search : Option (List (String → List String))
  userBind : Bool

/-- `ldapCN`: the CN of a group, or all of its name. -/
def ldapCN (dn : String) : String :=
  let parts := (dn.splitOn ",").map trimSpace
  let cn? (part : String) : Option String :=
    match part.toList.span (· ≠ '=') with
    | (key, '=' :: value) => if (String.ofList key).toLower = "cn" then some (String.ofList value)
        else none
    | _ => none
  (parts.findSome? cn?).getD dn

/-- From the credentials to an entry, and what it says. -/
def ldapIdentity (c : LdapConfig) (server : LdapServer) (username password : String) :
    Except ProvisionError Identity := do
  refuseIf (!c.enabled || c.url == "" || c.baseDN == "" || password == "") .invalidCredentials
  refuseIf (!server.dial) .invalidCredentials
  refuseIf (c.startTLS && !server.startTLS) .invalidCredentials
  refuseIf (c.bindDN != "" && !server.serviceBind) .invalidCredentials
  match server.search with
  | some [entry] =>
    refuseIf (!server.userBind) .invalidCredentials
    let value attr := (entry attr).headD ""
    return {
      username := orElse (value (orElse c.usernameAttr "uid")) username
      email := value (orElse c.emailAttr "mail")
      display := value (orElse c.displayNameAttr "cn")
      byEmail := true
      groups := (entry (orElse c.groupsAttr "memberOf")).map ldapCN }
  | _ => .error .invalidCredentials

/-- A login with what its provider says. -/
inductive ExternalLogin where
  | oidc (c : OidcConfig) (claims : String → Claim)
  | saml (c : SamlConfig) (info : AssertionInfo)
  | ldap (c : LdapConfig) (server : LdapServer) (username password : String)

section

variable (ci : String → String) (env : ProvisionEnv) (d : Directory)

def provisionOIDCUser (c : OidcConfig) (claims : String → Claim) :
    Except ProvisionError (UserRow × Directory) := do
  let who ← oidcIdentity c claims
  bindAccount ci env d c.toProvisionConfig .oidc who

def provisionSAMLUser (c : SamlConfig) (info : AssertionInfo) :
    Except ProvisionError (UserRow × Directory) := do
  let who ← samlIdentity c info
  bindAccount ci env d c.toProvisionConfig .saml who

/-- Every refusal but one reads the same. -/
def authenticateLDAP (c : LdapConfig) (server : LdapServer) (username password : String) :
    Except ProvisionError (UserRow × Directory) := do
  let who ← ldapIdentity c server username password
  (bindAccount ci env d c.toProvisionConfig .ldap who).mapError fun e =>
    if e = .disabled then .disabled else .invalidCredentials

def ExternalLogin.run : ExternalLogin → Except ProvisionError (UserRow × Directory)
  | .oidc c claims => provisionOIDCUser ci env d c claims
  | .saml c info => provisionSAMLUser ci env d c info
  | .ldap c server username password => authenticateLDAP ci env d c server username password

end

def ExternalLogin.provider : ExternalLogin → Provider
  | .oidc _ _ => .oidc
  | .saml _ _ => .saml
  | .ldap _ _ _ _ => .ldap

/-! ## Whose account it is -/

/-- The account is named by the username claim, or by an address that the token asserts to be
verified. -/
def NamedByToken (ci : String → String) (c : OidcConfig) (claims : String → Claim)
    (u : UserRow) : Prop :=
  (claimedUsername c claims ≠ "" ∧ ci u.username = ci (claimedUsername c claims)) ∨
    (emailVerified claims ∧ claimedEmail c claims ≠ "" ∧
      (ci u.username = ci (claimedEmail c claims) ∨ ∃ e ∈ u.email,
      ci e = ci (claimedEmail c claims)))

/-- Nothing more is asked of the two other providers. -/
def ExternalLogin.names (ci : String → String) (u : UserRow) : ExternalLogin → Prop
  | .oidc c claims => NamedByToken ci c claims u
  | .saml _ _ | .ldap _ _ _ _ => True

/-- An account that was there before is bound only if it is the provider's own and, for OIDC, if the
token names it. -/
def BindsOwn (ci : String → String) (env : ProvisionEnv) (d : Directory)
    (l : ExternalLogin) : Prop :=
  ∀ u d', l.run ci env d = .ok (u, d') → u ∈ d.users.rows →
    u.isSuperAdmin = false ∧ u.authSource = l.provider.source ∧ l.names ci u

/-- There is no username claim, and the address, which is not verified, is the name of an enabled
account of the provider. -/
def UnverifiedName (ci : String → String) (env : ProvisionEnv) (d : Directory) (c : OidcConfig)
    (claims : String → Claim) : Prop :=
  claimedUsername c claims = "" ∧ claimedEmail c claims ≠ "" ∧ emailVerified claims = false ∧
    ∃ u, findByUsername ci env d (claimedEmail c claims) = some u ∧
    idpAccountConflict u "oidc" = false ∧
      u.isDisabled = false

section

variable {ci : String → String} {env : ProvisionEnv} {d d' : Directory} {c : ProvisionConfig}
  {source : Provider} {who : Identity} {u : UserRow}

theorem findByUsername_eq_some {name : String} (h : findByUsername ci env d name = some u) :
    u ∈ d.users.rows ∧ ci u.username = ci name := by
  obtain ⟨-, hfind⟩ := Option.ite_none_left_eq_some.mp h
  refine ⟨List.mem_of_find?_eq_some hfind, ?_⟩
  simpa using List.find?_some hfind

theorem findByEmail_eq_some {email : String} (h : findByEmail ci env d email = some u) :
    ∃ e ∈ u.email, ci e = ci email := by
  obtain ⟨-, hfind⟩ := Option.ite_none_left_eq_some.mp h
  have hany := List.find?_some hfind
  rw [Option.any_eq_true] at hany
  obtain ⟨e, he, heq⟩ := hany
  exact ⟨e, he, of_decide_eq_true heq⟩

theorem owned_eq_ok {v : UserRow} (h : owned source v = .ok u) :
    v = u ∧ u.isSuperAdmin = false ∧ u.authSource = source.source := by
  unfold owned at h
  split at h
  · cases h
  rename_i hconflict
  cases h
  unfold idpAccountConflict at hconflict
  rw [Bool.or_eq_true, not_or, Bool.not_eq_true, decide_eq_true_eq, not_not] at hconflict
  exact ⟨rfl, hconflict⟩

theorem findAccount_eq_some (h : findAccount ci env d source who = .ok (some u)) :
    (u.isSuperAdmin = false ∧ u.authSource = source.source) ∧
    (findByUsername ci env d who.username = some u ∨
        (who.email ≠ "" ∧ who.byEmail ∧ findByEmail ci env d who.email = some u)) := by
  revert h
  fun_cases findAccount ci env d source who with
  | case1 v hname =>
    intro h
    obtain ⟨w, hown, ⟨⟩⟩ := map_eq_ok.mp h
    obtain ⟨rfl, hkept⟩ := owned_eq_ok hown
    exact ⟨hkept, .inl hname⟩
  | case2 _ huse v hemail =>
    intro h
    obtain ⟨w, hown, ⟨⟩⟩ := map_eq_ok.mp h
    obtain ⟨rfl, hkept⟩ := owned_eq_ok hown
    exact ⟨hkept, .inr ⟨huse.1, huse.2, hemail⟩⟩
  | _ => rintro ⟨⟩

theorem not_mem_of_provision (h : provision ci env d c source who = .ok (u, d')) :
    u ∉ d.users.rows := by
  intro hmem
  unfold provision at h
  split at h
  · cases h
  split at h
  · cases h
  rename_i v users hcreate
  cases h
  obtain ⟨-, hcreate⟩ := Option.ite_none_left_eq_some.mp hcreate
  exact Table.key_ne_of_insert (createUser_eq_some hcreate).1 hmem rfl

theorem bindAccount_eq_ok (h : bindAccount ci env d c source who = .ok (u, d'))
    (hmem : u ∈ d.users.rows) :
    findAccount ci env d source who = .ok (some u) ∧ u.isDisabled = false := by
  obtain ⟨found, hfound, h₁⟩ := bind_eq_ok.mp h
  obtain ⟨bound, hbound, h₂⟩ := bind_eq_ok.mp h₁
  obtain ⟨⟨⟩, hon, ⟨⟩⟩ := bind_eq_ok.mp h₂
  cases found with
  | some v =>
    cases hbound
    exact ⟨hfound, refuseIf_eq_ok.mp hon⟩
  | none => exact absurd hmem (not_mem_of_provision hbound)

theorem bindAccount_of_findByUsername (h : findByUsername ci env d who.username = some u)
    (hown : idpAccountConflict u source.source = false) (hon : u.isDisabled = false) :
    ∃ d', bindAccount ci env d c source who = .ok (u, d') := by
  have hfound : findAccount ci env d source who = .ok (some u) := by
    unfold findAccount owned
    rw [h]
    dsimp only
    rw [hown]
    rfl
  refine ⟨_, bind_eq_ok.mpr ⟨some u, hfound, bind_eq_ok.mpr ⟨(u, d), rfl,
    bind_eq_ok.mpr ⟨(), ?_, rfl⟩⟩⟩⟩
  exact refuseIf_eq_ok.mpr hon

variable {c : OidcConfig} {claims : String → Claim}

theorem oidcIdentity_eq_ok (h : oidcIdentity c claims = .ok who) :
    (who.username = orElse (claimedUsername c claims) (claimedEmail c claims) ∧ who.username ≠ "") ∧
      who.email = claimedEmail c claims ∧ who.byEmail = emailVerified claims := by
  obtain ⟨⟨⟩, hname, ⟨⟩⟩ := bind_eq_ok.mp h
  exact ⟨⟨rfl, by simpa using refuseIf_eq_ok.mp hname⟩, rfl, rfl⟩

theorem run_eq_ok {l : ExternalLogin} (h : l.run ci env d = .ok (u, d')) (hmem : u ∈ d.users.rows) :
    ∃ who, (findAccount ci env d l.provider who = .ok (some u) ∧ u.isDisabled = false) ∧
      ∀ c claims, l = .oidc c claims → oidcIdentity c claims = .ok who := by
  cases l with
  | oidc c claims =>
    obtain ⟨who, hwho, hbind⟩ := bind_eq_ok.mp h
    refine ⟨who, bindAccount_eq_ok hbind hmem, ?_⟩
    intro c' claims' heq
    cases heq
    exact hwho
  | saml c info =>
    obtain ⟨who, -, hbind⟩ := bind_eq_ok.mp h
    exact ⟨who, bindAccount_eq_ok hbind hmem, nofun⟩
  | ldap c server username password =>
    obtain ⟨who, -, hbind⟩ := bind_eq_ok.mp h
    exact ⟨who, bindAccount_eq_ok (mapError_eq_ok.mp hbind) hmem, nofun⟩

theorem orElse_cases (v w : String) : (v ≠ "" ∧ orElse v w = v) ∨ (v = "" ∧ orElse v w = w) := by
  unfold orElse
  split
  · next h => exact .inr ⟨h, rfl⟩
  · next h => exact .inl ⟨h, rfl⟩

theorem namedByToken (hwho : oidcIdentity c claims = .ok who)
    (hfound : findAccount ci env d .oidc who = .ok (some u)) (hon : u.isDisabled = false)
    (h : ¬ UnverifiedName ci env d c claims) : NamedByToken ci c claims u := by
  obtain ⟨⟨hname, hsome⟩, hemail, hby⟩ := oidcIdentity_eq_ok hwho
  obtain ⟨⟨hsuper, hsource⟩, hlookup⟩ := findAccount_eq_some hfound
  rcases hlookup with hlookup | ⟨hne, hverified, hlookup⟩
  · have hmatch := (findByUsername_eq_some hlookup).2
    rw [hname] at hlookup hmatch hsome
    rcases orElse_cases (claimedUsername c claims) (claimedEmail c claims) with ⟨hclaim, heq⟩ |
      ⟨hclaim, heq⟩
    · rw [heq] at hmatch
      exact .inl ⟨hclaim, hmatch⟩
    · -- the address stands in for the name
      rw [heq] at hlookup hmatch hsome
      right
      refine ⟨?_, hsome, .inl hmatch⟩
      by_contra hnot
      refine h ⟨hclaim, hsome, by simpa using hnot, u, hlookup, ?_, hon⟩
      unfold idpAccountConflict
      rw [hsuper, hsource]
      rfl
  · rw [hemail] at hne hlookup
    exact .inr ⟨hby ▸ hverified, hne, .inr (findByEmail_eq_some hlookup)⟩

theorem not_unverifiedName (h : BindsOwn ci env d (.oidc c claims)) :
    ¬ UnverifiedName ci env d c claims := by
  rintro ⟨hclaim, hsome, hverified, u, hlookup, hown, hon⟩
  have hname : orElse (claimedUsername c claims) (claimedEmail c claims) =
      claimedEmail c claims := by
    rw [hclaim]
    rfl
  obtain ⟨who, hwho⟩ : ∃ who, oidcIdentity c claims = .ok who := by
    refine ⟨_, bind_eq_ok.mpr ⟨(), refuseIf_eq_ok.mpr ?_, rfl⟩⟩
    rw [hname]
    simpa using hsome
  rw [← hname, ← (oidcIdentity_eq_ok hwho).1.1] at hlookup
  have hown : idpAccountConflict u (Provider.source .oidc) = false := hown
  obtain ⟨d', hbind⟩ := bindAccount_of_findByUsername (c := c.toProvisionConfig) hlookup hown hon
  have hrun : ExternalLogin.run ci env d (.oidc c claims) = .ok (u, d') :=
    bind_eq_ok.mpr ⟨who, hwho, hbind⟩
  obtain ⟨-, -, hnamed⟩ := h u d' hrun (findByUsername_eq_some hlookup).1
  rcases hnamed with ⟨hne, -⟩ | ⟨htrue, -⟩
  · exact hne hclaim
  · rw [hverified] at htrue
    cases htrue

end

/-- An external login binds only an account of its own, exactly when it is not an OIDC login by an
address that is not verified in place of a name. -/
theorem external_login_binds_own_iff (ci : String → String) (env : ProvisionEnv) (d : Directory)
    (l : ExternalLogin) :
    BindsOwn ci env d l ↔ ∀ c claims, l = .oidc c claims → ¬ UnverifiedName ci env d c claims := by
  constructor
  · rintro h c claims rfl
    exact not_unverifiedName h
  · intro h u d' hrun hmem
    obtain ⟨who, ⟨hfound, hon⟩, hwho⟩ := run_eq_ok hrun hmem
    obtain ⟨⟨hsuper, hsource⟩, -⟩ := findAccount_eq_some hfound
    refine ⟨hsuper, hsource, ?_⟩
    cases l with
    | oidc c claims => exact namedByToken (hwho c claims rfl) hfound hon (h c claims rfl)
    | saml c info | ldap c server username password => trivial

/-- The account of someone whose provider sends no username. -/
def member : UserRow :=
  ⟨.ofNat 21, "user@example.org", some "user@example.org", "", false, false, false, "oidc", 0, none⟩

def oneMember : Directory := ⟨.single member, ⟨.empty, [], [], []⟩⟩

/-- A token with nothing but an address that is not verified. -/
def spoofed : String → Claim :=
  fun key => if key = "email" then .text "user@example.org" else .absent

def defaultOidc : OidcConfig := ⟨⟨"", false, []⟩, "", "", ""⟩

def untroubled : ProvisionEnv := ⟨false, false, false, fun _ => false, .ofNat 22⟩

/-- It signs in as the account. -/
theorem unverified_address_binds :
    (provisionOIDCUser id untroubled oneMember defaultOidc spoofed).toOption.map Prod.fst =
      some member ∧
      emailVerified spoofed = false ∧
      ¬ BindsOwn id untroubled oneMember (.oidc defaultOidc spoofed) := by
  refine ⟨by decide +kernel, by decide +kernel, ?_⟩
  intro h
  refine not_unverifiedName h ⟨?_, ?_, ?_, member, ?_, ?_, ?_⟩
  all_goals decide +kernel

end Moorgate.Auth
