import Moorgate.Store.HostAccess

/-!
# Who sees a credential: `store/vault.go`

A user has access to a credential by a grant, their own or that of a group. `UserSecretAccess`
looks at one credential and takes the highest level. `ListAccessibleVaultSecrets` joins the
credentials with the grants, and collapses the rows of one credential through a map from its id to
its place in the result.

A row is the list of its columns, and `Scan` fails unless there are as many destinations. The
columns were extended in `vaultSecretCols`, the scan of the listing was not, so the listing fails
for every user who has access to anything (`listing_agrees_iff`).
-/

namespace Moorgate.Store

open Framework Models

/-! ## Tables -/

/-- A row of `vault_secrets`. -/
structure VaultSecretRow where
  id : UUID
  (name folder type username target description accessPolicy : String)
  version : ℤ
  createdBy : Option UUID
  (createdAt updatedAt : Instant)
  rotationIntervalDays : ℤ
  (lastRotatedAt nextRotationAt : Option Instant)
  (externalProvider externalRef : String)

inductive SubjectKind where
  | user | group
deriving DecidableEq

/-- The levels that `createGrant` stores. -/
inductive AccessLevel where
  | view | use | manage
deriving DecidableEq

def AccessLevel.text : AccessLevel → String
  | .view => "view"
  | .use => "use"
  | .manage => "manage"

/-- A row of `vault_grants`. -/
structure VaultGrantRow where
  (id secretId : UUID)
  subjectKind : SubjectKind
  subjectId : UUID
  access : AccessLevel

/-- `usernames` are those of `users`, and `collate` the order of the texts. -/
structure VaultAccessDB where
  secrets : Table VaultSecretRow.id
  grants : Table VaultGrantRow.id
  userGroups : List UserGroup
  usernames : UUID → Option String
  collate : String → String → Bool

/-! ## Rows and destinations -/

inductive SqlValue where
  | uuid (v : UUID)
  | text (v : String)
  | int (v : ℤ)
  | timestamptz (v : Instant)
  | null

/-- `models.VaultSecret`. -/
structure ListedSecret where
  id : UUID
  (name folder type username target description accessPolicy : String)
  version : ℤ
  createdBy : String
  (createdAt updatedAt : Instant)
  rotationIntervalDays : ℤ
  (lastRotatedAt nextRotationAt : Option Instant)
  (externalProvider externalRef access : String)

def ListedSecret.zero : ListedSecret :=
  ⟨.nil, "", "", "", "", "", "", "", 0, "", 0, 0, 0, none, none, "", "", ""⟩

def nullable : Option Instant → SqlValue
  | none => .null
  | some t => .timestamptz t

def vaultSecretCols (db : VaultAccessDB) (s : VaultSecretRow) : List SqlValue :=
  [.uuid s.id, .text s.name, .text s.folder, .text s.type, .text s.username, .text s.target,
    .text s.description, .text s.accessPolicy, .int s.version,
    .text ((s.createdBy.bind db.usernames).getD ""), .timestamptz s.createdAt,
    .timestamptz s.updatedAt, .int s.rotationIntervalDays, nullable s.lastRotatedAt,
    nullable s.nextRotationAt, .text s.externalProvider, .text s.externalRef]

/-- Where a column is scanned to; `none` if the value is not of the type. -/
abbrev Dest := SqlValue → ListedSecret → Option ListedSecret

section

variable (put : String → ListedSecret → ListedSecret) (putInt : ℤ → ListedSecret → ListedSecret)
  (putTime : Instant → ListedSecret → ListedSecret)

def uuidDest : Dest
  | .uuid x, v => some { v with id := x }
  | _, _ => none

def textDest : Dest
  | .text x, v => some (put x v)
  | _, _ => none

def intDest : Dest
  | .int x, v => some (putInt x v)
  | _, _ => none

def timeDest : Dest
  | .timestamptz x, v => some (putTime x v)
  | _, _ => none

end

def basicDests : List Dest :=
  [uuidDest, textDest fun x v => { v with name := x }, textDest fun x v => { v with folder := x },
    textDest fun x v => { v with type := x }, textDest fun x v => { v with username := x },
    textDest fun x v => { v with target := x }, textDest fun x v => { v with description := x },
    textDest fun x v => { v with accessPolicy := x }, intDest fun x v => { v with version := x },
    textDest fun x v => { v with createdBy := x }, timeDest fun x v => { v with createdAt := x },
    timeDest fun x v => { v with updatedAt := x }]

def accessDest : Dest := textDest fun x v => { v with access := x }

def accessibleDests : List Dest := basicDests ++ [accessDest]

inductive ScanError where
  | count (columns destinations : ℕ)
    -- "number of field descriptions must equal number of destinations, got %d and %d"
  | convert
deriving DecidableEq

def scanColumns (v : ListedSecret) : List Dest → List SqlValue → Except ScanError ListedSecret
  | d :: ds, c :: cs =>
    match d c v with
    | none => .error .convert
    | some v => scanColumns v ds cs
  | _, _ => .ok v

def scan (ds : List Dest) (cs : List SqlValue) : Except ScanError ListedSecret :=
  if cs.length ≠ ds.length then .error (.count cs.length ds.length) else scanColumns .zero ds cs

/-! ## Queries -/

section

variable (db : VaultAccessDB) (userID : UUID)

/-- The condition on a grant that both queries have. -/
def VaultGrantRow.applies (g : VaultGrantRow) : Bool :=
  (decide (g.subjectKind = .user) && decide (g.subjectId = userID)) ||
  (decide (g.subjectKind = .group) &&
    db.userGroups.any fun ug => decide (ug.userId = userID) && decide (ug.groupId = g.subjectId))

def grantedRows : List (VaultSecretRow × VaultGrantRow) :=
  (db.secrets.rows.flatMap fun s =>
    (db.grants.rows.filter fun g => decide (g.secretId = s.id) && g.applies db userID).map fun g =>
      (s, g)).mergeSort
  fun a b => if a.1.folder = b.1.folder then db.collate a.1.name b.1.name
    else db.collate a.1.folder b.1.folder

def listedCols (r : VaultSecretRow × VaultGrantRow) : List SqlValue :=
  vaultSecretCols db r.1 ++ [.text r.2.access.text]

end

def accessRank (a : String) : ℕ :=
  if a = "manage" then 3 else if a = "use" then 2 else if a = "view" then 1 else 0

/-- `byID` has the place of a credential in `out`. -/
structure Listing where
  byID : UUID → Option ℕ
  out : List ListedSecret

def Listing.collect (l : Listing) (v : ListedSecret) : Listing :=
  match l.byID v.id with
  | some i =>
    { l with
      out := l.out.modify i fun w =>
        if accessRank v.access > accessRank w.access then { w with access := v.access } else w }
  | none => ⟨Function.update l.byID v.id (some l.out.length), l.out ++ [v]⟩

def listRows (ds : List Dest) (l : Listing) :
    List (List SqlValue) → Except ScanError (List ListedSecret)
  | [] => .ok l.out
  | cs :: rest =>
    match scan ds cs with
    | .error err => .error err
    | .ok v => listRows ds (l.collect v) rest

def listAccessibleVaultSecrets (db : VaultAccessDB) (userID : UUID) :
    Except ScanError (List ListedSecret) :=
  listRows accessibleDests ⟨fun _ => none, []⟩ ((grantedRows db userID).map (listedCols db))

def higher (best a : String) : String := if accessRank a > accessRank best then a else best

def userSecretAccess (db : VaultAccessDB) (userID secretID : UUID) : String :=
  ((db.grants.rows.filter fun g => decide (g.secretId = secretID) && g.applies db userID).map
    fun g => g.access.text).foldl higher ""

/-! ## What a listing has to be -/

def Accessible (db : VaultAccessDB) (userID secretID : UUID) : Prop :=
  ∃ s ∈ db.secrets.rows, s.id = secretID ∧ ∃ g ∈ db.grants.rows, g.secretId = secretID ∧
    g.applies db userID

/-- Each credential with a grant exactly once, no other, and with the level of `UserSecretAccess`.
-/
structure Lists (db : VaultAccessDB) (userID : UUID) (out : List ListedSecret) : Prop where
  once : (out.map ListedSecret.id).Nodup
  accessible : ∀ id, id ∈ out.map ListedSecret.id ↔ Accessible db userID id
  level : ∀ v ∈ out, v.access = userSecretAccess db userID v.id

def ListingAgrees (db : VaultAccessDB) (userID : UUID) : Prop :=
  ∃ out, listAccessibleVaultSecrets db userID = .ok out ∧ Lists db userID out

section

variable {db : VaultAccessDB} {userID : UUID}

theorem mem_grantedRows {s : VaultSecretRow} {g : VaultGrantRow} : (s, g) ∈ grantedRows db userID ↔
      s ∈ db.secrets.rows ∧ g ∈ db.grants.rows ∧ g.secretId = s.id ∧ g.applies db userID := by
  unfold grantedRows
  rw [(List.mergeSort_perm _ _).mem_iff, List.mem_flatMap]
  constructor
  · rintro ⟨s', hs', hmem⟩
    obtain ⟨g', hg', ⟨⟩⟩ := List.mem_map.mp hmem
    rw [List.mem_filter, Bool.and_eq_true, decide_eq_true_eq] at hg'
    exact ⟨hs', hg'.1, hg'.2⟩
  · rintro ⟨hs, hg, hid, happlies⟩
    refine ⟨s, hs, List.mem_map.mpr ⟨g, List.mem_filter.mpr ⟨hg, ?_⟩, rfl⟩⟩
    rw [Bool.and_eq_true, decide_eq_true_eq]
    exact ⟨hid, happlies⟩

theorem accessible_iff {id : UUID} :
    Accessible db userID id ↔ ∃ r ∈ grantedRows db userID, r.1.id = id := by
  constructor
  · rintro ⟨s, hs, rfl, g, hg, hid, happlies⟩
    exact ⟨(s, g), mem_grantedRows.mpr ⟨hs, hg, hid, happlies⟩, rfl⟩
  · rintro ⟨⟨s, g⟩, hr, rfl⟩
    obtain ⟨hs, hg, hid, happlies⟩ := mem_grantedRows.mp hr
    exact ⟨s, hs, rfl, g, hg, hid, happlies⟩

/-- Eighteen columns and thirteen destinations. -/
theorem scan_accessible (r : VaultSecretRow × VaultGrantRow) :
    scan accessibleDests (listedCols db r) = .error (.count 18 13) := rfl

theorem listAccessible_of_row {r : VaultSecretRow × VaultGrantRow}
    {rest : List (VaultSecretRow × VaultGrantRow)} (h : grantedRows db userID = r :: rest) :
    listAccessibleVaultSecrets db userID = .error (.count 18 13) := by
  rw [listAccessibleVaultSecrets, h, List.map_cons, listRows, scan_accessible]

end

/-- **The listing agrees with the access check** exactly for the users who have access to no
credential. -/
theorem listing_agrees_iff (db : VaultAccessDB) (userID : UUID) :
    ListingAgrees db userID ↔ ∀ id, ¬ Accessible db userID id := by
  cases hrows : grantedRows db userID with
  | nil =>
    have hnone : ∀ id, ¬ Accessible db userID id := by
      intro id h
      obtain ⟨r, hr, -⟩ := accessible_iff.mp h
      rw [hrows] at hr
      cases hr
    refine iff_of_true ⟨[], ?_, List.nodup_nil, fun id => ?_, nofun⟩ hnone
    · rw [listAccessibleVaultSecrets, hrows]
      rfl
    · exact iff_of_false List.not_mem_nil (hnone id)
  | cons r rest =>
    refine iff_of_false ?_ fun hnone => ?_
    · rintro ⟨out, hout, -⟩
      cases (listAccessible_of_row hrows).symm.trans hout
    · refine hnone r.1.id (accessible_iff.mpr ⟨r, ?_, rfl⟩)
      rw [hrows]
      exact List.mem_cons_self

def oneGrant : VaultAccessDB where
  secrets := .single ⟨⟨1⟩, "db", "", "password", "root", "", "", "open", 1, none, 0, 0, 0, none,
    none, "", ""⟩
  grants := .single ⟨⟨2⟩, ⟨1⟩, .user, ⟨7⟩, .view⟩
  userGroups := []
  usernames _ := none
  collate a b := decide (a ≤ b)

/-- The user may view the credential, and the listing fails. -/
theorem listing_fails_for_grant : userSecretAccess oneGrant ⟨7⟩ ⟨1⟩ = "view" ∧
      listAccessibleVaultSecrets oneGrant ⟨7⟩ = .error (.count 18 13) ∧
      ¬ ListingAgrees oneGrant ⟨7⟩ := by
  have hrow : ∃ r, r ∈ grantedRows oneGrant ⟨7⟩ :=
    ⟨(_, _), mem_grantedRows.mpr ⟨List.mem_singleton_self _, List.mem_singleton_self _, rfl, rfl⟩⟩
  obtain ⟨r, rest, hrows⟩ := List.exists_cons_of_ne_nil (List.ne_nil_of_mem hrow.choose_spec)
  have hfails := listAccessible_of_row hrows
  refine ⟨by decide, hfails, ?_⟩
  rintro ⟨out, hout, -⟩
  cases hfails.symm.trans hout

end Moorgate.Store
