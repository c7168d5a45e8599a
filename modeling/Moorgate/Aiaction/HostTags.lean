import Moorgate.Framework.Base.Table
import Moorgate.Models.Ids

/-!
# Tagging a host: `host.tag` of `aiaction/actions.go`

The action reads the row and writes all of it, through the form of the host editor, of which it
fills in nine fields: the others get their defaults. What another request wrote in between is
overwritten with what was read.
-/

namespace Moorgate.Aiaction

open Framework Models

/-- The columns that the form has; `α` and `ω` are the addresses, and `κ` is `jsonb`. -/
structure HostForm (α ω κ : Type) where
  (hostname description environment owner : String)
  address : α
  wgAddress : ω
  sshPort : ℤ
  sshUser : String
  tags : List String
  authMethod : String
  credentialID : Option UUID
  protocol : String
  rdpPort : ℤ
  (rdpOptions hostOptions : κ)
deriving DecidableEq

/-- A row of `hosts`, with `ι` for `inet`; `rest` are the columns that the form has not. -/
structure HostRow (ι κ ρ : Type) extends HostForm (Option String) (Option ι) κ where
  updatedAt : Instant
  rest : ρ
deriving DecidableEq

abbrev HostInput (κ : Type) := HostForm String String κ

/-- `host(…)`, `::inet`, the JSON of options that are all zero, and
`strings.ToLower(strings.TrimSpace(t))`. -/
structure Lib (ι κ : Type) where
  host : ι → String
  inet : String → Option ι
  noOptions : κ
  tagKey : String → String
  tagKey_tagKey : ∀ t, tagKey (tagKey t) = tagKey t

variable {ι κ ρ : Type} (L : Lib ι κ)

def updateHost (now : Instant) (inp : HostInput κ) (row : HostRow ι κ ρ) : Option (HostRow ι κ ρ) :=
  (castOrNull L.inet inp.wgAddress).map fun wgAddress =>
    { inp with
      address := nullIf inp.address
      wgAddress
      authMethod := if inp.authMethod ∈ ["vault_password", "vault_ssh_key"] then inp.authMethod
        else "fleet_cert"
      protocol := if inp.protocol = "rdp" then "rdp" else "ssh"
      rdpPort := if inp.rdpPort ≤ 0 ∨ 65535 < inp.rdpPort then 3389 else inp.rdpPort
      updatedAt := now
      rest := row.rest }

/-- Appends the tags, each with its key, whose key is not blank and was not seen. -/
def addTags : List (String × String) → List (String × String) → List (String × String) :=
  List.foldl fun out p => if p.1 = "" ∨ p.1 ∈ out.map Prod.fst then out else out ++ [p]

def applyTags (current add remove : List String) : List String :=
  let rm := remove.map L.tagKey
  let kept := addTags [] ((current.map fun t => (L.tagKey t, t)).filter fun p => decide (p.1 ∉ rm))
  (addTags kept (add.map fun t => (L.tagKey t, L.tagKey t))).map Prod.snd

/-- `Execute`, which has read `h` when the row is `row`. -/
def tagHost (now : Instant) (add remove : List String) (h row : HostRow ι κ ρ) :
    Option (HostRow ι κ ρ) :=
  updateHost L now
    { h with
      address := h.address.getD ""
      wgAddress := (h.wgAddress.map L.host).getD ""
      tags := applyTags L h.tags add remove
      authMethod := ""
      credentialID := none
      protocol := ""
      rdpPort := 0
      rdpOptions := L.noOptions
      hostOptions := L.noOptions } row

/-! ## What it leaves -/

/-- Without duplicates and blanks, and up to the case, these are the current tags less `remove`, and
`add`. -/
structure Retagged (current add remove tags : List String) : Prop where
  nodup : (tags.map L.tagKey).Nodup
  mem : ∀ k, k ∈ tags.map L.tagKey ↔
    k ≠ "" ∧ ((k ∈ current.map L.tagKey ∧ k ∉ remove.map L.tagKey) ∨ k ∈ add.map L.tagKey)

def OnlyTags (row row' : HostRow ι κ ρ) : Prop :=
  { row' with tags := row.tags, updatedAt := row.updatedAt } = row

/-- The row is what was read, as it comes back from the form, with the defaults in the other
fields. -/
def AsWritten (h row : HostRow ι κ ρ) : Prop :=
  ∃ wgAddress, castOrNull L.inet ((h.wgAddress.map L.host).getD "") = some wgAddress ∧
    row.toHostForm =
      { h with
        address := nullIf (h.address.getD "")
        wgAddress
        tags := row.tags
        authMethod := "fleet_cert"
        credentialID := none
        protocol := "ssh"
        rdpPort := 3389
        rdpOptions := L.noOptions
        hostOptions := L.noOptions }

def TagsAsRead (add remove : List String) (h row : HostRow ι κ ρ) : Prop :=
  ∀ k, k ≠ "" → k ∉ remove.map L.tagKey → k ∉ add.map L.tagKey →
    (k ∈ h.tags.map L.tagKey ↔ k ∈ row.tags.map L.tagKey)

theorem addTags_spec (ps out : List (String × String)) (hout : (out.map Prod.fst).Nodup) :
    ((addTags out ps).map Prod.fst).Nodup ∧ (∀ p ∈ addTags out ps, p ∈ out ∨ p ∈ ps) ∧
      ∀ k, k ∈ (addTags out ps).map Prod.fst ↔ k ∈ out.map Prod.fst ∨
      (k ≠ "" ∧ k ∈ ps.map Prod.fst) := by
  induction ps generalizing out with
  | nil => simp [addTags, hout]
  | cons p ps ih =>
    by_cases hskip : p.1 = "" ∨ p.1 ∈ out.map Prod.fst
    · have hstep : addTags out (p :: ps) =
          addTags out ps := by simp only [addTags, List.foldl_cons, if_pos hskip]
      obtain ⟨hnodup, hfrom, hmem⟩ := ih out hout
      rw [hstep]
      exact ⟨hnodup, by grind, by grind⟩
    · have hstep : addTags out (p :: ps) = addTags (out ++ [p]) ps := by
        simp only [addTags, List.foldl_cons, if_neg hskip]
      obtain ⟨hnodup, hfrom, hmem⟩ := ih (out ++ [p]) (by simp [List.nodup_append, hout]; grind)
      rw [hstep]
      exact ⟨hnodup, by grind, by grind⟩

theorem retagged_applyTags (current add remove : List String) :
    Retagged L current add remove (applyTags L current add remove) := by
  unfold applyTags
  obtain ⟨hnodup, hfrom, hkept⟩ := addTags_spec ((current.map fun t => (L.tagKey t, t)).filter
    fun p => decide (p.1 ∉ remove.map L.tagKey)) [] List.nodup_nil
  dsimp only
  generalize addTags [] _ = kept at *
  obtain ⟨hnodup', hfrom', hmem⟩ :=
    addTags_spec (add.map fun t => (L.tagKey t, L.tagKey t)) kept hnodup
  generalize addTags kept _ = out at *
  have hkeys : (out.map Prod.snd).map L.tagKey = out.map Prod.fst := by
    rw [List.map_map]
    refine List.map_congr_left fun p hp => ?_
    have := L.tagKey_tagKey
    grind
  refine ⟨hkeys ▸ hnodup', fun k => ?_⟩
  grind

/-- A host that is tagged keeps the rest of its row, and has the tags it should, iff the row is as
it is written and the other tags are as they were read. -/
theorem tagging_keeps_row_iff (now : Instant) (add remove : List String)
    {h row row' : HostRow ι κ ρ} (hrun : tagHost L now add remove h row = some row') :
    OnlyTags row row' ∧ Retagged L row.tags add remove row'.tags ↔
      AsWritten L h row ∧ TagsAsRead L add remove h row := by
  obtain ⟨wg, hwg, rfl⟩ := Option.map_eq_some_iff.mp hrun
  have hnew := retagged_applyTags L h.tags add remove
  refine and_congr ?_ ⟨fun hold k hk hrm hadd => ?_, fun hsame => ⟨hnew.nodup,
    fun k => (hnew.mem k).trans ?_⟩⟩
  · constructor
    · exact fun hrow => ⟨wg, hwg, (congrArg HostRow.toHostForm hrow).symm⟩
    · rintro ⟨wg', hwg', hform⟩
      cases hwg.symm.trans hwg'
      exact congrArg (fun form => HostRow.mk form row.updatedAt row.rest) hform.symm
  · have := (hnew.mem k).symm.trans (hold.mem k)
    tauto
  · have := hsame k
    tauto

/-! ## A desktop host -/

def plainLib : Lib String ℕ := ⟨id, some, 0, id, fun _ => rfl⟩

def sshHost : HostRow String ℕ Unit where
  hostname := "web1"
  description := ""
  environment := "production"
  owner := ""
  address := some "10.0.0.7"
  wgAddress := none
  sshPort := 22
  sshUser := "fleet"
  tags := ["linux"]
  authMethod := "fleet_cert"
  credentialID := none
  protocol := "ssh"
  rdpPort := 3389
  rdpOptions := 0
  hostOptions := 0
  updatedAt := 0
  rest := ()

theorem tagging_keeps_row_plain : ∃ row, tagHost plainLib 5 ["web"] [] sshHost sshHost = some row ∧
    row.tags = ["linux", "web"] ∧ OnlyTags sshHost row :=
  ⟨_, rfl, by decide, ((tagging_keeps_row_iff plainLib 5 ["web"] [] rfl).mpr
    ⟨⟨none, rfl, rfl⟩, fun _ _ _ _ => Iff.rfl⟩).1⟩

def desktopHost : HostRow String ℕ Unit :=
  { sshHost with
    authMethod := "vault_password"
    credentialID := some ⟨7⟩
    protocol := "rdp" }

/-- A desktop host becomes an SSH host without its credential, and the owner that is entered after
the row was read is gone. -/
theorem tagging_loses_columns : (tagHost plainLib 5 ["web"] [] desktopHost desktopHost).map
      (fun r => (r.authMethod, r.credentialID, r.protocol)) = some ("fleet_cert", none, "ssh") ∧
    (tagHost plainLib 5 ["web"] [] sshHost { sshHost with owner := "ops" }).map (fun r => r.owner) =
      some "" := by
  decide

end Moorgate.Aiaction
