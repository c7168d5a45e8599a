import Moorgate.Framework.Base.Checks
import Moorgate.Framework.Base.Text

/-!
# The manifest of a release bundle: `release/manifest.go`

The manifest is what is signed. It names the images of the bundle with their digests, the version
that is installed, and the versions that it can be installed over. `quote` is `strconv.Quote`, the
`%q` of a message.
-/

namespace Moorgate.Release

open Framework

def manifestSchema : ℤ := 1

structure ImageRef where
  (component image tag : String)
  file : String -- the path within the bundle
  digest : String -- `sha256:<hex>` of that file
  bytes : ℤ
deriving DecidableEq

structure ConfigAddition where
  (key defaultValue generate : String)
deriving DecidableEq

structure Manifest where
  schemaVersion : ℤ
  (version minFromVersion : String)
  images : List ImageRef
  migrationCompatibility : String
  configAdditions : List ConfigAddition
deriving DecidableEq

/-! ## `Validate` -/

section

variable (quote : String → String)

/-- `^[A-Z][A-Z0-9_]*$`. -/
def isConfigKey (s : String) : Bool :=
  match s.toList with
  | [] => false
  | c :: l => c.isUpper && l.all fun d => d.isUpper || d.isDigit || d == '_'

def ConfigAddition.validate (c : ConfigAddition) : Except String Unit := do
  refuseIf (!isConfigKey c.key) ("config addition key " ++ quote c.key ++
    " is not a valid env identifier")
  refuseIf (decide (c.generate ≠ "" ∧ c.generate ≠ "secret"))
    ("config addition " ++ quote c.key ++ ": generate must be empty or \"secret\", got " ++
    quote c.generate)
  refuseIf (c.defaultValue.toList.any fun d => d == '\n' || d == '\r')
    ("config addition " ++ quote c.key ++ ": default value must not contain newlines")

def ImageRef.validate (i : ℕ) (im : ImageRef) : Except String Unit := do
  refuseIf (decide (im.component = "" ∨ im.image = "" ∨ im.tag = "" ∨ im.file = ""))
    ("image[" ++ toString i ++ "] is missing a required field")
  refuseIf (!("sha256:".toList.isPrefixOf im.digest.toList) || decide
    (im.digest.utf8ByteSize ≠ 7 + 64)) ("image[" ++ toString i ++ "] (" ++ im.component ++
    ") has an invalid digest")

def validateImages : ℕ → List ImageRef → Except String Unit
  | _, [] => .ok ()
  | i, im :: rest => do
      im.validate i
      validateImages (i + 1) rest

def validateAdditions : List ConfigAddition → Except String Unit
  | [] => .ok ()
  | c :: rest => do
      c.validate quote
      validateAdditions rest

def Manifest.validate (m : Manifest) : Except String Unit := do
  refuseIf (decide (m.schemaVersion ≠ manifestSchema))
    ("unsupported manifest schema " ++ toString m.schemaVersion ++ " (want " ++
    toString manifestSchema ++ ")")
  refuseIf (decide (trimSpace m.version = "")) "manifest has no version"
  refuseIf m.images.isEmpty "manifest lists no images"
  refuseIf (decide (m.migrationCompatibility ≠ "additive" ∧ m.migrationCompatibility ≠ "breaking"))
    ("manifest migrationCompatibility must be \"additive\" or \"breaking\", got " ++
    quote m.migrationCompatibility)
  validateImages 0 m.images
  validateAdditions quote m.configAdditions

end

/-! ## Versions -/

structure Semver where
  (major minor patch : ℕ)
deriving DecidableEq

/-- `strconv.Atoi` of a text without a sign. -/
def atoi (l : List Char) : Option ℕ :=
  if l ≠ [] ∧ l.all Char.isDigit ∧
    Nat.ofDigitChars 10 l 0 < 2 ^ 63 then some (Nat.ofDigitChars 10 l 0) else none

/-- The text is cut at the first sign, so that the parts have none. -/
def parseVersion (s : String) : Option Semver :=
  let l := (trimSpace s).toList
  let l := if l.head? = some 'v' then l.tail else l
  let l := l.takeWhile fun c => decide (c ≠ '-' ∧ c ≠ '+')
  match l.splitOn '.' with
  | [a, b, c] => do return ⟨← atoi a, ← atoi b, ← atoi c⟩
  | _ => none

def Semver.older (a b : Semver) : Bool :=
  if a.major ≠ b.major then decide (a.major < b.major)
  else if a.minor ≠ b.minor then decide (a.minor < b.minor)
  else decide (a.patch < b.patch)

def Manifest.checkUpgradeable (quote : String → String) (m : Manifest) (currentVersion : String) :
    Except String Unit :=
  match parseVersion m.version with
  | none => .error ("bundle version " ++ quote m.version ++ " is not a valid release version")
  | some new =>
    match parseVersion currentVersion with
    | none => .ok ()
    | some cur =>
      if !cur.older new then
        .error ("bundle version " ++ m.version ++ " is not newer than the running version " ++
          currentVersion)
      else
        refuseIf ((parseVersion m.minFromVersion).any fun min => cur.older min)
          ("running version " ++ currentVersion ++
            " is older than this bundle's minimum upgradable-from version " ++ m.minFromVersion ++
            " — upgrade to " ++ m.minFromVersion ++ " first")

end Moorgate.Release
