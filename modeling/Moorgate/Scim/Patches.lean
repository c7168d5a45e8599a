import Mathlib.Data.Bool.AllAny
import Moorgate.Admin.Deprovisioning

/-!
# What a patch says and what it does: `patchUser` of `scim/users.go`

The operations as JSON, what `encoding/json` makes of them for `patchUser`, and what
they say. The two differ: a value that is neither true nor false disables the account,
an object whose member `active` is a text is passed over as a whole, and the write
puts back every column that was read.
-/

namespace Moorgate.Scim

open Framework Models Store Admin

/-! ## JSON and what `json.Unmarshal` makes of it -/

inductive RawJson where
  | null
  | bool (b : Bool)
  | string (s : String)
  | number (text : String)
  | array (items : List RawJson)
  | object (members : List (String × RawJson))

namespace RawJson

/-- Decoding is into what is there, which `null` leaves. -/
def asBool (old : Bool) : RawJson → Option Bool
  | .null => some old
  | .bool b => some b
  | _ => none

def asString (old : String) : RawJson → Option String
  | .null => some old
  | .string s => some s
  | _ => none

/-- A slice: what has been decoded into its array, also behind its length. -/
structure Slice (α : Type) where
  backing : List α
  len : ℕ

def Slice.items {α : Type} (s : Slice α) : List α := s.backing.take s.len

/-- Each item is decoded into the element in its place. -/
def asItems {α : Type} (decode : α → RawJson → Option α) (zero : α) :
    List α → List RawJson → Option (List α)
  | _, [] => some []
  | old, v :: vs => do
    let a ← decode (old.headD zero) v
    let rest ← asItems decode zero old.tail vs
    some (a :: rest)

/-- `null` and an empty array set a slice anew. -/
def asSlice {α : Type} (decode : α → RawJson → Option α) (zero : α) (old : Slice α) :
    RawJson → Option (Slice α)
  | .null | .array [] => some ⟨[], 0⟩
  | .array vs => (asItems decode zero old.backing vs).map fun as =>
    ⟨as ++ old.backing.drop vs.length, vs.length⟩
  | _ => none

/-- The folding of `encoding/json` in its search for the field of a key. -/
def foldRune (c : Char) : Char :=
  if c.toNat = 0x17F then 's' else if c.toNat = 0x212A then 'k' else c.toLower

def isField (name key : String) : Bool :=
  decide (key.toList.map foldRune = name.toList.map foldRune)

def field {α : Type} (decode : α → RawJson → Option α) (name : String) (old : α)
    (ms : List (String × RawJson)) : Option α :=
  (ms.filter fun m => isField name m.1).foldlM (fun old m => decode old m.2) old

/-- Texts that are only decoded. -/
def skip (names : List String) (ms : List (String × RawJson)) : Option Unit :=
  names.forM fun name => (field asString name "" ms).map fun _ => ()

def asEmail (old : ScimEmail) : RawJson → Option ScimEmail
  | .null => some old
  | .object ms => do
    let value ← field asString "value" old.value ms
    let primary ← field asBool "primary" old.primary ms
    skip ["type"] ms
    some ⟨value, primary⟩
  | _ => none

/-- `null` sets a pointer to nil. -/
def asName (old : Option ScimName) : RawJson → Option (Option ScimName)
  | .null => some none
  | .object ms => do
    let old := old.getD ⟨"", "", ""⟩
    let formatted ← field asString "formatted" old.formatted ms
    let givenName ← field asString "givenName" old.givenName ms
    let familyName ← field asString "familyName" old.familyName ms
    some (some ⟨formatted, givenName, familyName⟩)
  | _ => none

def asMeta (_ : Unit) : RawJson → Option Unit
  | .null => some ()
  | .object ms => skip ["resourceType", "location", "created", "lastModified"] ms
  | _ => none

/-- Into a new `scimUser`: one member of a wrong type and it is an error. -/
def asUser : RawJson → Option ScimUser
  | .null => some ⟨"", none, "", [], false⟩
  | .object ms => do
    let _ ← field (asSlice asString "") "schemas" ⟨[], 0⟩ ms
    skip ["id", "externalId"] ms
    let userName ← field asString "userName" "" ms
    let name ← field asName "name" none ms
    let displayName ← field asString "displayName" "" ms
    let emails ← field (asSlice asEmail ⟨"", false⟩) "emails" ⟨[], 0⟩ ms
    let active ← field asBool "active" false ms
    let _ ← field asMeta "meta" () ms
    some ⟨userName, name, displayName, emails.items, active⟩
  | _ => none

def scalar (v : RawJson) : Scalar := ⟨v.asBool false, v.asString ""⟩

/-- Into a map: the last member of the name. -/
def member (name : String) : RawJson → Option RawJson
  | .object ms => (ms.reverse.find? fun m => decide (m.1 = name)).map Prod.snd
  | _ => none

def patchValue (v : RawJson) : PatchValue := ⟨v.scalar, v.asUser, (v.member "active").map scalar⟩

end RawJson

/-- An operation as it is sent; `value` may be missing. -/
structure RawOp where
  (op path : String)
  value : Option RawJson

/-- Without a value, every `json.Unmarshal` is an error. -/
def RawOp.decoded (o : RawOp) : PatchOp :=
  ⟨o.op, o.path, (o.value.map RawJson.patchValue).getD ⟨⟨none, none⟩, none, none⟩⟩

/-! ## What operations say -/

namespace RawJson

/-- A boolean, or `true` or `false` as a text in any case. -/
def truth : RawJson → Option Bool
  | .bool b => some b
  | .string s =>
    if toLower s = "true" then some true else if toLower s = "false" then some false else none
  | _ => none

def text : RawJson → Option String
  | .string s => some s
  | _ => none

/-- A text, or a list of addresses with its primary one. -/
def address : RawJson → Option String
  | .string s => some s
  | .array items => (items.mapM (asEmail ⟨"", false⟩)).map fun es =>
    ScimUser.primaryEmail ⟨"", none, "", es, false⟩
  | _ => none

end RawJson

/-- What the operation says of an attribute: it removes it, or has its path, or has no path
and an object with the member. -/
def RawOp.tells {α : Type} (removed : α) (read : RawJson → Option α) (paths : List String)
    (name : String) (o : RawOp) : Option α :=
  let path := toLower (trimSpace o.path)
  if path ∈ paths then if equalFold o.op "remove" then some removed else o.value.bind read
  else if path = "" then (o.value.bind (RawJson.member name)).bind read
  else none

def RawOp.saysActive : RawOp → Option Bool := tells false RawJson.truth ["active"] "active"

def RawOp.saysDisplay : RawOp → Option String := tells "" RawJson.text ["displayname"] "displayName"

def emailPaths : List String := ["emails", "emails[type eq \"work\"].value"]

def RawOp.saysEmail : RawOp → Option String :=
  tells "" RawJson.address emailPaths "emails"

/-- The account after an operation, by what it says. -/
def RawOp.meant (v : UserRow) (o : RawOp) : UserRow :=
  { v with
    email := (o.saysEmail.map nullIf).getD v.email
    displayName := o.saysDisplay.getD v.displayName
    isDisabled := (o.saysActive.map not).getD v.isDisabled }

def meant (v : UserRow) (ops : List RawOp) : UserRow := ops.foldl RawOp.meant v

/-! ## What `patchUser` takes -/

namespace PatchOp

def removesActive (o : PatchOp) : Bool := equalFold o.op "remove" && equalFold o.path "active"

def takesActive (o : PatchOp) : Option Bool :=
  if o.removesActive then some false
  else
    let path := toLower (trimSpace o.path)
    if path = "active" then decodeBool o.value.scalar
    else if path = "" then o.value.user.bind fun _ => o.value.active.bind decodeBool
    else none

def takesDisplay (o : PatchOp) : Option String :=
  if o.removesActive then none
  else
    let path := toLower (trimSpace o.path)
    if path = "displayname" then some (decodeString o.value.scalar)
    else if path = "" then o.value.user.bind fun obj => nullIf obj.displayName
    else none

def takesEmail (o : PatchOp) : Option String :=
  if o.removesActive then none
  else
    let path := toLower (trimSpace o.path)
    if path = "emails" ∨
      path = "emails[type eq \"work\"].value" then nullIf (decodeString o.value.scalar)
    else if path = "" then o.value.user.bind fun obj => nullIf obj.primaryEmail
    else none

end PatchOp

def latest {α β : Type} (f : α → Option β) : List α → Option β
  | [] => none
  | a :: l => (latest f l).or (f a)

/-- The variables of the loop with these values in place of those they have. -/
def Patch.taking (p : Patch) (email display : Option String) (active : Option Bool) : Patch :=
  ⟨email.getD p.email, display.getD p.display, (active.map not).getD p.disabled,
    active.isSome || p.changedActive⟩

theorem Patch.setActive_eq (p : Patch) (v : Scalar) :
    p.setActive v = p.taking none none (decodeBool v) := by
  unfold Patch.setActive
  cases decodeBool v with
  | none | some b => rfl

theorem Patch.merge_eq (p : Patch) (obj : ScimUser) (active : Option Scalar) :
    p.merge obj active = p.taking (nullIf obj.primaryEmail) (nullIf obj.displayName)
      (active.bind decodeBool) := by
  have hnamed : ∀ q : Patch, (if obj.displayName ≠ "" then { q with display := obj.displayName }
      else q) = q.taking none (nullIf obj.displayName) none := by
    by_cases h : obj.displayName = ""
    all_goals simp [h, nullIf, Patch.taking]
  have hmailed : ∀ q : Patch, (if obj.primaryEmail ≠ "" then { q with email := obj.primaryEmail }
      else q) = q.taking (nullIf obj.primaryEmail) none none := by
    by_cases h : obj.primaryEmail = ""
    all_goals simp [h, nullIf, Patch.taking]
  unfold Patch.merge
  dsimp only
  rw [hnamed, hmailed]
  cases active with
  | none => rfl
  | some v => exact Patch.setActive_eq _ v

theorem Patch.apply_eq (p : Patch) (o : PatchOp) :
    p.apply o = p.taking o.takesEmail o.takesDisplay o.takesActive := by
  unfold Patch.apply PatchOp.takesEmail PatchOp.takesDisplay PatchOp.takesActive
    PatchOp.removesActive
  generalize toLower (trimSpace o.path) = path
  split
  · rfl
  by_cases hactive : path = "active"
  · subst hactive
    exact p.setActive_eq _
  by_cases hdisplay : path = "displayname"
  · subst hdisplay
    rfl
  by_cases hemails : path = "emails" ∨ path = "emails[type eq \"work\"].value"
  · have hsome : path ≠ "" := by
      rintro rfl
      revert hemails
      decide
    by_cases hmail : decodeString o.value.scalar = ""
    all_goals simp [hactive, hdisplay, hemails, hsome, hmail, Patch.taking, nullIf]
  by_cases hnone : path = ""
  · subst hnone
    cases o.value.user with
    | none => rfl
    | some obj => exact p.merge_eq obj _
  · simp [hactive, hdisplay, hemails, hnone, Patch.taking]

theorem foldl_apply_eq (ops : List PatchOp) (p : Patch) : ops.foldl Patch.apply p =
      p.taking (latest PatchOp.takesEmail ops) (latest PatchOp.takesDisplay ops)
        (latest PatchOp.takesActive ops) := by
  induction ops generalizing p with
  | nil => rfl
  | cons o ops ih =>
    rw [List.foldl_cons, ih, Patch.apply_eq]
    simp only [Patch.taking, latest, Option.getD_or, Option.map_or, Option.isSome_or, Bool.or_assoc]

theorem meant_eq (ops : List RawOp) (v : UserRow) : meant v ops = { v with
        email := ((latest RawOp.saysEmail ops).map nullIf).getD v.email
        displayName := (latest RawOp.saysDisplay ops).getD v.displayName
        isDisabled := ((latest RawOp.saysActive ops).map not).getD v.isDisabled } := by
  unfold meant
  induction ops generalizing v with
  | nil => rfl
  | cons o ops ih =>
    rw [List.foldl_cons, ih]
    simp only [RawOp.meant, latest, Option.getD_or, Option.map_or]

/-! ## The request after its read -/

section

variable {ci : String → String} {now : Instant} {u : UserRow} {ops : List PatchOp} {p p' : Platform}

theorem patchWritten_eq_some (h : patchWritten ci now p u ops = some p') :
    p' = if latest PatchOp.takesActive ops = some false
      then (p.edit u.id (UserRow.edit (patched u ops).params) fun _ =>
        rfl).destroyUserSessions now u.id
      else p.edit u.id (UserRow.edit (patched u ops).params) fun _ => rfl := by
  obtain ⟨q, hq, rfl⟩ := Option.map_eq_some_iff.mp h
  rw [← updateUser_eq_edit hq]
  unfold patched
  rw [foldl_apply_eq]
  rcases latest PatchOp.takesActive ops with - | - | -
  · rfl
  · rfl
  · rfl

theorem users_patchWritten (h : patchWritten ci now p u ops = some p') :
    p'.users = updateRow u.id (UserRow.edit (patched u ops).params) (fun _ => rfl) p.users := by
  rw [patchWritten_eq_some h]
  split
  · exact users_foldl_endSession
  · rfl

end

/-! ## What shall come of a patch -/

/-- The account is what the operations say of the row at the write, and a patch that
disables it ends its sessions. -/
structure Means (p p' : Platform) (v : UserRow) (ops : List RawOp) : Prop where
  row : meant v ops ∈ p'.users.rows
  ended : latest RawOp.saysActive ops = some false → ∀ r ∈ p.sessions.rows, r.userId = v.id →
    r.revokedAt = none → Gone p' r.id ∧ ∀ c ∈ p.live.conns r.id, c.id ∈ p'.closed

/-! ## Operations that are read as they say -/

namespace RawJson

/-- Not `null`, and a text only if it is true or false. -/
def PlainTruth : RawJson → Prop
  | .null => False
  | .string s => toLower s = "true" ∨ toLower s = "false"
  | _ => True

/-- What `decodeBool` takes for false. -/
def Falsy : RawJson → Prop
  | .null | .bool false => True
  | .string s => equalFold (trimSpace s) "true" = false
  | _ => False

/-- No list of addresses, and a text only if it is an address without blanks around it. -/
def PlainAddress : RawJson → Prop
  | .string s => s ≠ "" ∧ trimSpace s = s
  | .array items => items.mapM (asEmail ⟨"", false⟩) = none
  | _ => True

/-- An object of which a `scimUser` can be made: what is decoded is what stands under the exact
names, and is not empty. Another object has no such member. -/
def PlainObject (v : RawJson) : Prop :=
  match v.asUser with
  | some obj => (∀ a ∈ v.member "active", a.PlainTruth) ∧
      nullIf obj.displayName = (v.member "displayName").bind text ∧
      nullIf obj.primaryEmail = (v.member "emails").bind address
  | none => (v.member "active").bind truth = none ∧ (v.member "displayName").bind text = none ∧
      (v.member "emails").bind address = none

end RawJson

/-- By the path of the operation, the values with which it does what it says. -/
@[irreducible] def RawOp.Plain (o : RawOp) : Prop :=
  let path := toLower (trimSpace o.path)
  if path = "active" then
    if equalFold o.op "remove" then equalFold o.path "active" ∨ ∃ v ∈ o.value, v.Falsy
    else ∀ v ∈ o.value, v.PlainTruth
  else if path = "displayname" then
    if equalFold o.op "remove" then ∀ v ∈ o.value, decodeString v.scalar = ""
    else ∃ s, o.value = some (.string s) ∧ trimSpace s = s
  else if path ∈ emailPaths then
    equalFold o.op "remove" = false ∧ ∀ v ∈ o.value, v.PlainAddress
  else if path = "" then ∀ v ∈ o.value, v.PlainObject
  else True

/-- What no operation says anything of is at the write as it was read. -/
structure Unmoved (u v : UserRow) (ops : List RawOp) : Prop where
  email : (∀ o ∈ ops, o.saysEmail = none) → nullIf (u.email.getD "") = v.email
  display : (∀ o ∈ ops, o.saysDisplay = none) → u.displayName = v.displayName
  active : (∀ o ∈ ops, o.saysActive = none) → u.isDisabled = v.isDisabled

section

theorem toLower_of_not_upper {c : Char} (h : ¬ (65 ≤ c.toNat ∧ c.toNat ≤ 90)) : c.toLower = c := by
  unfold Char.toLower
  split
  · next hc => exact absurd ⟨UInt32.le_iff_toNat_le.mp hc.1, UInt32.le_iff_toNat_le.mp hc.2⟩ h
  · rfl

theorem lowerRune_of_toLower {c : Char} (h : c.toLower.toNat < 128) : lowerRune c = c.toLower := by
  have hne : c.toNat ≠ 0x130 ∧ c.toNat ≠ 0x212A := by
    by_contra hc
    rw [toLower_of_not_upper (by omega)] at h
    omega
  rw [lowerRune, if_neg hne.1, if_neg hne.2]

theorem toLower_of_lowerRune {c : Char} (hi : lowerRune c ≠ 'i') (hk : lowerRune c ≠ 'k') :
    c.toLower = lowerRune c := by
  unfold lowerRune at *
  split_ifs at * <;> simp_all

theorem trimSpace_of_word {s : String} (h : ∀ c ∈ s.toList, isSpace c.toLower = false) :
    trimSpace s = s := by
  have hclean : ∀ c ∈ s.toList, isSpace c = false := by
    intro c hc
    have hlower := h c hc
    by_cases hupper : 65 ≤ c.toNat ∧ c.toNat ≤ 90
    · simp only [isSpace, Bool.or_eq_false_iff, Bool.and_eq_false_iff, decide_eq_false_iff_not,
        beq_eq_false_iff_ne]
      omega
    · rwa [toLower_of_not_upper hupper] at hlower
  rw [trimSpace, trim_eq_self hclean, String.ofList_toList]

theorem path_of_equalFold {path : String} (h : equalFold path "active") :
    toLower (trimSpace path) = "active" := by
  have hword : path.toList.map Char.toLower = "active".toList := of_decide_eq_true h
  have hletters : ∀ d ∈ path.toList.map Char.toLower, isSpace d = false ∧ d.toNat < 128 := by
    rw [hword]
    exact List.all_iff_forall_prop.mp (by decide)
  have hchars := fun c hc => hletters (Char.toLower c) (List.mem_map_of_mem hc)
  rw [trimSpace_of_word fun c hc => (hchars c hc).1, toLower,
    List.map_congr_left fun c hc => lowerRune_of_toLower (hchars c hc).2, hword,
    String.ofList_toList]

/-- `strings.ToLower` and `strings.EqualFold` agree on the two words. -/
theorem equalFold_of_toLower {s w : String} (h : toLower s = w) (hw : w = "true" ∨ w = "false") :
    equalFold (trimSpace s) "true" = decide (w = "true") := by
  have hword : s.toList.map lowerRune = w.toList := by rw [← h, toLower, String.toList_ofList]
  have hletters : ∀ d ∈ s.toList.map lowerRune, isSpace d = false ∧ d ≠ 'i' ∧ d ≠ 'k' := by
    rw [hword]
    rcases hw with rfl | rfl <;> exact List.all_iff_forall_prop.mp (by decide)
  have hchars := fun c hc => hletters (lowerRune c) (List.mem_map_of_mem hc)
  have hlower : ∀ c ∈ s.toList, c.toLower = lowerRune c :=
    fun c hc => toLower_of_lowerRune (hchars c hc).2.1 (hchars c hc).2.2
  rw [trimSpace_of_word fun c hc => by rw [hlower c hc]; exact (hchars c hc).1, equalFold,
    List.map_congr_left hlower, hword]
  rcases hw with rfl | rfl <;> decide

theorem nullIf_ne (s : String) : nullIf s ≠ some "" := by
  unfold nullIf
  split
  · exact nofun
  · next h => exact fun heq => h (Option.some.inj heq)

variable (v : RawJson)

theorem decodeBool_eq_truth_iff : decodeBool v.scalar = v.truth ↔ v.PlainTruth := by
  cases v with
  | string s =>
    by_cases htrue : toLower s = "true"
    · have h := equalFold_of_toLower htrue (.inl rfl)
      simp [decodeBool, RawJson.scalar, RawJson.asBool, RawJson.asString, RawJson.truth,
        RawJson.PlainTruth, htrue, h]
    by_cases hfalse : toLower s = "false"
    · have h := equalFold_of_toLower hfalse (.inr rfl)
      simp [decodeBool, RawJson.scalar, RawJson.asBool, RawJson.asString, RawJson.truth,
        RawJson.PlainTruth, hfalse, h]
    · simp [decodeBool, RawJson.scalar, RawJson.asBool, RawJson.asString, RawJson.truth,
        RawJson.PlainTruth, htrue, hfalse]
  | _ => simp [decodeBool, RawJson.scalar, RawJson.asBool, RawJson.asString, RawJson.truth,
      RawJson.PlainTruth]

theorem decodeBool_eq_false_iff : decodeBool v.scalar = some false ↔ v.Falsy := by
  cases v with
  | bool b => cases b <;> simp [decodeBool, RawJson.scalar, RawJson.asBool, RawJson.Falsy]
  | _ => simp [decodeBool, RawJson.scalar, RawJson.asBool, RawJson.asString, RawJson.Falsy]

theorem decodeString_eq_text_iff :
    some (decodeString v.scalar) = v.text ↔ ∃ s, v = .string s ∧ trimSpace s = s := by
  cases v <;> simp [decodeString, RawJson.scalar, RawJson.asString, RawJson.text]

theorem decodeString_eq_address_iff :
    nullIf (decodeString v.scalar) = v.address ↔ v.PlainAddress := by
  have hnil : nullIf (trimSpace "") = none := rfl
  cases v with
  | string s =>
    show nullIf (trimSpace s) = some s ↔ s ≠ "" ∧ trimSpace s = s
    unfold nullIf
    split
    · next hblank => simp [hblank, eq_comm]
    · next htext =>
      rw [Option.some_inj]
      exact ⟨fun h => ⟨h ▸ htext, h⟩, And.right⟩
  | array items =>
    cases h : items.mapM (RawJson.asEmail ⟨"", false⟩) <;>
      simp [decodeString, RawJson.scalar, RawJson.asString, RawJson.address, RawJson.PlainAddress,
      nullIf, h]
  | null => exact iff_of_true hnil trivial
  | _ => exact iff_of_true rfl trivial

theorem plainObject_iff : v.PlainObject ↔
    (v.asUser.bind fun _ => ((v.member "active").map RawJson.scalar).bind decodeBool) =
      (v.member "active").bind RawJson.truth ∧
    (v.asUser.bind fun obj => nullIf obj.displayName) = (v.member "displayName").bind RawJson.text ∧
    (v.asUser.bind fun obj => nullIf obj.primaryEmail) =
      (v.member "emails").bind RawJson.address := by
  unfold RawJson.PlainObject
  cases v.asUser with
  | none => simp [eq_comm]
  | some obj =>
    cases v.member "active" with
    | none => simp
    | some a => simp [decodeBool_eq_truth_iff]

end

/-- A plain operation is taken as it says, and no other is. -/
theorem plain_iff (o : RawOp) : o.Plain ↔ o.decoded.takesActive = o.saysActive ∧
    o.decoded.takesDisplay = o.saysDisplay ∧ o.decoded.takesEmail = o.saysEmail := by
  obtain ⟨op, path, value⟩ := o
  unfold RawOp.Plain RawOp.saysActive RawOp.saysDisplay RawOp.saysEmail RawOp.tells
    PatchOp.takesActive PatchOp.takesDisplay PatchOp.takesEmail PatchOp.removesActive
  dsimp only [RawOp.decoded]
  have hnone : decodeBool ⟨none, none⟩ = none ∧ decodeString ⟨none, none⟩ = "" ∧ nullIf "" = none :=
    ⟨rfl, rfl, rfl⟩
  by_cases hactive : toLower (trimSpace path) = "active"
  · by_cases hop : equalFold op "remove"
    · by_cases hexact : equalFold path "active"
      · simp [hactive, hop, hexact, emailPaths]
      · cases value <;> simp [hactive, hop, hexact, emailPaths, RawJson.patchValue, hnone,
          decodeBool_eq_false_iff]
    · cases value <;> simp [hactive, hop, emailPaths, RawJson.patchValue, hnone,
        decodeBool_eq_truth_iff]
  have hother : equalFold path "active" = false := by
    by_contra hexact
    exact hactive (path_of_equalFold (Bool.not_eq_false _ ▸ hexact))
  by_cases hdisplay : toLower (trimSpace path) = "displayname"
  · by_cases hop : equalFold op "remove" <;> cases value <;>
      simp [hdisplay, hop, hother, emailPaths, RawJson.patchValue, hnone, decodeString_eq_text_iff]
  by_cases hemail : toLower (trimSpace path) ∈ emailPaths
  · have hpath : (toLower (trimSpace path) = "emails" ∨
        toLower (trimSpace path) = "emails[type eq \"work\"].value") ∧
        toLower (trimSpace path) ≠ "" := by
      refine ⟨by simpa [emailPaths] using hemail, ?_⟩
      intro hnil
      rw [hnil] at hemail
      revert hemail
      decide
    by_cases hop : equalFold op "remove" <;> cases value <;>
      simp [hactive, hdisplay, hemail, hpath, hop, hother, RawJson.patchValue, hnone, nullIf_ne,
        decodeString_eq_address_iff]
  have hpath : ¬ (toLower (trimSpace path) = "emails" ∨
      toLower (trimSpace path) = "emails[type eq \"work\"].value") := by
    simpa [emailPaths] using hemail
  by_cases hobject : toLower (trimSpace path) = ""
  · cases value <;> simp [hobject, hother, emailPaths, plainObject_iff, RawJson.patchValue]
  · simp [hactive, hdisplay, hemail, hpath, hobject, hother]

theorem takesEmail_ne (o : PatchOp) : o.takesEmail ≠ some "" := by
  unfold PatchOp.takesEmail
  split
  · exact nofun
  dsimp only
  split
  · exact nullIf_ne _
  split
  · cases o.value.user with
    | none => exact nofun
    | some obj => exact nullIf_ne _
  · exact nofun

/-! ## Patches that do what they say -/

theorem latest_eq_none {α β : Type} {f : α → Option β} {l : List α} :
    latest f l = none ↔ ∀ a ∈ l, f a = none := by
  induction l with
  | nil => simp [latest]
  | cons a l ih => simp [latest, ih, and_comm]

theorem latest_decoded {β : Type} {taken : PatchOp → Option β} {said : RawOp → Option β}
    {ops : List RawOp} (h : ∀ o ∈ ops, taken o.decoded = said o) :
    latest taken (ops.map RawOp.decoded) = latest said ops := by
  induction ops with
  | nil => rfl
  | cons o ops ih =>
    rw [List.forall_mem_cons] at h
    rw [List.map_cons, latest, latest, ih h.2, h.1]

section

variable {ci : String → String} {now : Instant} {u v : UserRow} {ops : List RawOp} {p p' : Platform}

theorem latest_of_plain (h : ∀ o ∈ ops, o.Plain) :
    latest PatchOp.takesActive (ops.map RawOp.decoded) = latest RawOp.saysActive ops ∧
      latest PatchOp.takesDisplay (ops.map RawOp.decoded) = latest RawOp.saysDisplay ops ∧
      latest PatchOp.takesEmail (ops.map RawOp.decoded) = latest RawOp.saysEmail ops :=
  ⟨latest_decoded fun o ho => ((plain_iff o).mp (h o ho)).1,
    latest_decoded fun o ho => ((plain_iff o).mp (h o ho)).2.1,
    latest_decoded fun o ho => ((plain_iff o).mp (h o ho)).2.2⟩

/-- For each attribute, the last value that is taken, or else what was read, is the last
that is said, or else what is there at the write. -/
theorem edit_eq_meant_iff : v.edit (patched u (ops.map RawOp.decoded)).params = meant v ops ↔
    nullIf ((latest PatchOp.takesEmail (ops.map RawOp.decoded)).getD (u.email.getD "")) =
      ((latest RawOp.saysEmail ops).map nullIf).getD v.email ∧
    (latest PatchOp.takesDisplay (ops.map RawOp.decoded)).getD u.displayName =
      (latest RawOp.saysDisplay ops).getD v.displayName ∧
    ((latest PatchOp.takesActive (ops.map RawOp.decoded)).map not).getD u.isDisabled =
      ((latest RawOp.saysActive ops).map not).getD v.isDisabled := by
  unfold patched
  rw [foldl_apply_eq, meant_eq]
  constructor
  · intro h
    exact ⟨congrArg UserRow.email h, congrArg UserRow.displayName h, congrArg UserRow.isDisabled h⟩
  · rintro ⟨hemail, hdisplay, hactive⟩
    simp only [UserRow.edit, Patch.params, Patch.taking, hemail, hdisplay, hactive]

theorem edit_eq_meant_iff_unmoved (hplain : ∀ o ∈ ops, o.Plain) :
    v.edit (patched u (ops.map RawOp.decoded)).params = meant v ops ↔ Unmoved u v ops := by
  obtain ⟨hactive, hdisplay, hemail⟩ := latest_of_plain hplain
  rw [edit_eq_meant_iff, hactive, hdisplay, hemail]
  have hunmoved : Unmoved u v ops ↔
      (latest RawOp.saysEmail ops = none → nullIf (u.email.getD "") = v.email) ∧
      (latest RawOp.saysDisplay ops = none → u.displayName = v.displayName) ∧
      (latest RawOp.saysActive ops = none → u.isDisabled = v.isDisabled) := by
    simp only [latest_eq_none]
    exact ⟨fun h => ⟨h.email, h.display, h.active⟩, fun h => ⟨h.1, h.2.1, h.2.2⟩⟩
  rw [hunmoved]
  refine and_congr ?_ (and_congr ?_ ?_)
  · cases latest RawOp.saysEmail ops <;> simp
  · cases latest RawOp.saysDisplay ops <;> simp
  · cases latest RawOp.saysActive ops <;> simp

theorem meant_mem_iff (h : patchWritten ci now p u (ops.map RawOp.decoded) = some p')
    (hv : v ∈ p.users.rows) (hid : v.id = u.id) :
    meant v ops ∈ p'.users.rows ↔
    v.edit (patched u (ops.map RawOp.decoded)).params = meant v ops := by
  have hwritten : v.edit (patched u (ops.map RawOp.decoded)).params ∈ p'.users.rows := by
    rw [users_patchWritten h]
    exact mem_updateRow_self _ _ hv hid
  constructor
  · intro hmeant
    refine Table.eq_of_key hwritten hmeant ?_
    rw [meant_eq]
    rfl
  · intro heq
    rwa [← heq]

theorem ended_of_taken (h : patchWritten ci now p u (ops.map RawOp.decoded) = some p')
    (hid : v.id = u.id)
    (hactive : latest PatchOp.takesActive (ops.map RawOp.decoded) = some false) :
    ∀ r ∈ p.sessions.rows, r.userId = v.id → r.revokedAt = none →
      Gone p' r.id ∧ ∀ c ∈ p.live.conns r.id, c.id ∈ p'.closed := by
  intro r hr huser hlive
  rw [patchWritten_eq_some h, if_pos hactive]
  exact (gone_destroyUserSessions_iff (p := p.edit u.id _ _) hr (huser.trans hid)).mpr
    (.inr (not_revoked_of_mem hr hlive))

end

def opsRow : UserRow := ⟨.ofNat 1, "ops", none, "", false, false, false, "local", 0, none⟩

theorem eq_of_getD {α : Type} {a b : Option α} {x y : α} (hxy : x ≠ y)
    (h : ∀ d, a.getD d = b.getD d) : a = b := by
  cases a with
  | none =>
    cases b with
    | none => rfl
    | some c => exact absurd ((h x).trans (h y).symm) hxy
  | some c =>
    cases b with
    | none => exact absurd ((h x).symm.trans (h y)) hxy
    | some d => exact congrArg some (h c)

theorem plain_of_written {o : RawOp} (h : ∀ u : UserRow, u.email ≠ some "" →
    u.edit (patched u ([o].map RawOp.decoded)).params = meant u [o]) : o.Plain := by
  have hsame : ∀ e name off, e ≠ some "" →
      nullIf (o.decoded.takesEmail.getD (e.getD "")) = (o.saysEmail.map nullIf).getD e ∧
      o.decoded.takesDisplay.getD name = o.saysDisplay.getD name ∧
      (o.decoded.takesActive.map not).getD off = (o.saysActive.map not).getD off := by
    intro e name off he
    have hrow := edit_eq_meant_iff.mp (h ⟨UUID.nil, "", e, name, false, off, false, "", 0, none⟩ he)
    simpa only [List.map_cons, List.map_nil, latest, Option.none_or] using hrow
  have hnil : (none : Option String) ≠ some "" := nofun
  refine (plain_iff o).mpr ⟨?_, eq_of_getD (by decide : "" ≠ "a")
    fun d => (hsame none d false hnil).2.1, ?_⟩
  · refine Option.map_injective Bool.involutive_not.injective
      (eq_of_getD Bool.false_ne_true fun d => ?_)
    exact (hsame none "" d hnil).2.2
  · have hnone := (hsame none "" false hnil).1
    have hsome := (hsame (some "a") "" false (by decide)).1
    cases htaken : o.decoded.takesEmail with
    | none =>
      rw [htaken] at hnone hsome
      cases hsaid : o.saysEmail with
      | none => rfl
      | some s =>
        rw [hsaid] at hnone hsome
        cases hnone.trans hsome.symm
    | some s =>
      have hs : nullIf s = some s :=
        if_neg fun hs => takesEmail_ne _ (htaken.trans (congrArg some hs))
      rw [htaken, Option.getD_some, hs] at hnone
      cases hsaid : o.saysEmail with
      | none =>
        rw [hsaid] at hnone
        cases hnone
      | some s' =>
        rw [hsaid, Option.map_some, Option.getD_some, nullIf] at hnone
        split at hnone
        · cases hnone
        · exact hnone

def disable : List RawOp := [⟨"replace", "active", some (.bool false)⟩]

/-- An object in which `active` is the text `False`. -/
def disableByText : List RawOp := [⟨"replace", "", some (.object [("active", .string "False")])⟩]

end Moorgate.Scim
