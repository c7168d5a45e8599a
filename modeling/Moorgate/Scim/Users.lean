import Moorgate.Framework.Base.Text
import Moorgate.Store.Users

/-!
# Accounts as SCIM describes them: `scim/users.go`

What a request of the identity provider says of an account. JSON is not modelled: a
raw value is what `json.Unmarshal` makes of it for each of the types that the
handlers try.
-/

namespace Moorgate.Scim

open Framework Store

/-! ## Case -/

/-- `unicode.ToLower` as far as comparisons with ASCII text go: two other characters have
an ASCII letter as their lower case. -/
def lowerRune (c : Char) : Char :=
  if c.toNat = 0x130 then 'i' else if c.toNat = 0x212A then 'k' else c.toLower

def toLower (s : String) : String := String.ofList (s.toList.map lowerRune)

/-- `strings.EqualFold` with a text of ASCII letters other than `k` and `s`. -/
def equalFold (s t : String) : Bool :=
  decide (s.toList.map Char.toLower = t.toList.map Char.toLower)

/-! ## Resources -/

structure ScimName where
  (formatted givenName familyName : String)

structure ScimEmail where
  value : String
  primary : Bool

structure ScimUser where
  userName : String
  name : Option ScimName
  displayName : String
  emails : List ScimEmail
  active : Bool

/-- The primary address, or else the first. -/
def ScimUser.primaryEmail (u : ScimUser) : String :=
  match u.emails.find? fun e => e.primary && decide (trimSpace e.value ≠ "") with
  | some e => trimSpace e.value
  | none =>
    match u.emails.find? fun e => decide (trimSpace e.value ≠ "") with
    | some e => trimSpace e.value
    | none => ""

/-- The method `displayName`. -/
def ScimUser.fullName (u : ScimUser) : String :=
  if u.displayName ≠ "" then u.displayName
  else
    match u.name with
    | none => ""
    | some n => if n.formatted ≠ "" then n.formatted else trimSpace (n.givenName ++ " " ++
        n.familyName)

def ScimUser.params (u : ScimUser) : UpdateUserParams := ⟨u.primaryEmail, u.fullName, !u.active⟩

/-! ## Settings -/

structure ScimConfig where
  (defaultRole authSource : String)

def ScimConfig.source (c : ScimConfig) : String :=
  if c.authSource ∈ ["oidc", "ldap", "saml"] then c.authSource else "saml"

def ScimConfig.role (c : ScimConfig) : String :=
  if c.defaultRole ≠ "" then c.defaultRole else "Read-Only"

/-! ## Patches -/

/-- A raw value as a boolean and as a text, as far as it is one. -/
structure Scalar where
  bool : Option Bool
  string : Option String

/-- A raw value, also as an object; `active` is its member of that name. -/
structure PatchValue where
  scalar : Scalar
  user : Option ScimUser
  active : Option Scalar

structure PatchOp where
  (op path : String)
  value : PatchValue

def decodeBool (v : Scalar) : Option Bool :=
  match v.bool with
  | some b => some b
  | none => v.string.map fun s => equalFold (trimSpace s) "true"

def decodeString (v : Scalar) : String := (v.string.map trimSpace).getD ""

/-- The variables of `patchUser`. -/
structure Patch where
  (email display : String)
  (disabled changedActive : Bool)

def Patch.setActive (p : Patch) (v : Scalar) : Patch :=
  match decodeBool v with
  | some b => { p with disabled := !b, changedActive := true }
  | none => p

/-- An operation without a path. -/
def Patch.merge (p : Patch) (obj : ScimUser) (active : Option Scalar) : Patch :=
  let p := if obj.displayName ≠ "" then { p with display := obj.displayName } else p
  let p := if obj.primaryEmail ≠ "" then { p with email := obj.primaryEmail } else p
  match active with
  | some v => p.setActive v
  | none => p

def Patch.apply (p : Patch) (o : PatchOp) : Patch :=
  if equalFold o.op "remove" && equalFold o.path "active" then
    { p with disabled := true, changedActive := true }
  else
    let path := toLower (trimSpace o.path)
    if path = "active" then p.setActive o.value.scalar
    else if path = "displayname" then { p with display := decodeString o.value.scalar }
    else if path = "emails" ∨ path = "emails[type eq \"work\"].value" then
      let s := decodeString o.value.scalar
      if s ≠ "" then { p with email := s } else p
    else if path = "" then
      match o.value.user with
      | some obj => p.merge obj o.value.active
      | none => p
    else p

/-- The operations in order, on the account as it was read. -/
def patched (u : UserRow) (ops : List PatchOp) : Patch :=
  ops.foldl Patch.apply ⟨u.email.getD "", u.displayName, u.isDisabled, false⟩

def Patch.params (p : Patch) : UpdateUserParams := ⟨p.email, p.display, p.disabled⟩

/-! ## What a patch leaves -/

/-- The flag is what it was unless the patch notes a change. -/
def Patch.Keeps (b : Bool) (p : Patch) : Prop := p.changedActive = false → p.disabled = b

variable {b : Bool} {p : Patch}

theorem Patch.Keeps.setActive (h : p.Keeps b) (v : Scalar) : (p.setActive v).Keeps b := by
  unfold Patch.setActive
  split
  · exact nofun
  · exact h

theorem Patch.Keeps.merge (h : p.Keeps b) (obj : ScimUser) (active : Option Scalar) :
    (p.merge obj active).Keeps b := by
  have hnamed : (if obj.displayName ≠ "" then { p with display := obj.displayName }
      else p).Keeps b := by
    split
    · exact h
    · exact h
  unfold Patch.merge
  dsimp only
  split
  · refine Patch.Keeps.setActive ?_ _
    split
    · exact hnamed
    · exact hnamed
  · split
    · exact hnamed
    · exact hnamed

theorem Patch.Keeps.apply (h : p.Keeps b) (o : PatchOp) : (p.apply o).Keeps b := by
  unfold Patch.apply
  split
  · exact nofun
  dsimp only
  split
  · exact h.setActive _
  split
  · exact h
  split
  · split
    · exact h
    · exact h
  · split
    · split
      · exact h.merge _ _
      · exact h
    · exact h

theorem keeps_patched (u : UserRow) (ops : List PatchOp) : (patched u ops).Keeps u.isDisabled := by
  suffices h : ∀ p : Patch, p.Keeps u.isDisabled → (ops.foldl Patch.apply p).Keeps u.isDisabled by
    exact h _ fun _ => rfl
  induction ops with
  | nil => exact fun _ h => h
  | cons o ops ih => exact fun p h => ih _ (h.apply o)

end Moorgate.Scim
