import Moorgate.Framework.Base.Table
import Moorgate.Models.Ids

/-!
# Vaulted credentials: `store/vault.go`

A credential has a current version number, and a sealed value for each version.
Every function is one statement or one transaction.
-/

namespace Moorgate.Store

open Framework Models

inductive SecretType where
  | password | sshKey | apiKey | generic
deriving DecidableEq

/-- A row of `vault_secrets`. -/
structure VaultSecret where
  id : UUID
  type : SecretType
  (username externalProvider : String)
  version : ℕ
deriving DecidableEq

/-- A row of `vault_secret_versions`. The sealed value of an external credential
is empty. -/
structure VaultVersion where
  (id secretId : UUID)
  version : ℕ
  sealed : String
deriving DecidableEq

abbrev VaultSecrets := Table VaultSecret.id
abbrev VaultVersions := Table VaultVersion.id

structure VaultVersionSeal where
  id : UUID
  sealed : String
deriving DecidableEq

def allVaultVersionSeals (t : VaultVersions) : List VaultVersionSeal :=
  t.rows.map fun v => ⟨v.id, v.sealed⟩

def updateVaultVersionSeal (id : UUID) (sealed : String) (t : VaultVersions) : VaultVersions :=
  t.update (fun v => decide (v.id = id)) (fun v => { v with sealed }) fun _ => rfl

theorem mem_updateVaultVersionSeal {id : UUID} {sealed : String} {t : VaultVersions}
    {v : VaultVersion} (h : v ∈ (updateVaultVersionSeal id sealed t).rows) :
    (v.id ≠ id ∧ v ∈ t.rows) ∨ (v.id = id ∧ v.sealed = sealed) := by
  obtain ⟨w, hw, heq⟩ := Table.mem_update.mp h
  by_cases hid : w.id = id
  · rw [if_pos (decide_eq_true hid)] at heq
    exact .inr ⟨by rw [← heq]; exact hid, by rw [← heq]⟩
  · rw [if_neg (by simpa using hid)] at heq
    exact .inl ⟨by rw [← heq]; exact hid, by rw [← heq]; exact hw⟩

structure VaultTables where
  secrets : VaultSecrets
  versions : VaultVersions

/-- `none` when there is no such credential, or a version with the new number. -/
def addVaultSecretVersion (newID secretID : UUID) (sealed : String) (t : VaultTables) :
    Option (ℕ × VaultTables) :=
  match t.secrets.lookup secretID with
  | none => none
  | some s =>
    let next := s.version + 1
    if t.versions.rows.any fun v => decide (v.secretId = secretID ∧ v.version = next) then none
    else
      (t.versions.insert ⟨newID, secretID, next, sealed⟩).map fun versions =>
        (next, ⟨t.secrets.update (fun s => decide (s.id = secretID))
          (fun s => { s with version := s.version + 1 }) fun _ => rfl, versions⟩)

def getVaultSecretSealed (secretID : UUID) (t : VaultTables) : Option String :=
  match t.secrets.lookup secretID with
  | none => none
  | some s =>
    (t.versions.rows.find? fun v => decide (v.secretId = secretID ∧ v.version = s.version)).map
      VaultVersion.sealed

section

variable {newID secretID : UUID} {sealed : String} {t t' : VaultTables} {n : ℕ}

theorem addVaultSecretVersion_eq_some
    (h : addVaultSecretVersion newID secretID sealed t = some (n, t')) :
    ∃ s, t.secrets.lookup secretID = some s ∧
    t'.secrets.lookup secretID = some { s with version := s.version + 1 } ∧
      t'.versions.rows = t.versions.rows ++ [⟨newID, secretID, s.version + 1, sealed⟩] ∧
      ∀ v ∈ t.versions.rows, ¬ (v.secretId = secretID ∧ v.version = s.version + 1) := by
  unfold addVaultSecretVersion at h
  split at h
  · cases h
  rename_i s hs
  dsimp only at h
  split at h
  · cases h
  rename_i hfree
  obtain ⟨versions, hins, ⟨⟩⟩ := Option.map_eq_some_iff.mp h
  have hid : s.id = secretID := (Table.lookup_eq_some.mp hs).2
  refine ⟨s, hs, ?_, Table.rows_insert hins, fun v hv hmatch => ?_⟩
  · rw [Table.lookup_update, hs, Option.map_some, if_pos (decide_eq_true hid)]
  · exact hfree (List.any_eq_true.mpr ⟨v, hv, decide_eq_true hmatch⟩)

theorem getVaultSecretSealed_add
    (h : addVaultSecretVersion newID secretID sealed t = some (n, t')) :
    getVaultSecretSealed secretID t' = some sealed := by
  obtain ⟨s, -, hlook, hrows, hfree⟩ := addVaultSecretVersion_eq_some h
  have hnone : t.versions.rows.find?
      (fun v => decide (v.secretId = secretID ∧ v.version = s.version + 1)) = none := by
    rw [List.find?_eq_none]
    intro v hv hmatch
    exact hfree v hv (of_decide_eq_true hmatch)
  unfold getVaultSecretSealed
  rw [hlook]
  dsimp only
  rw [hrows, List.find?_append, hnone]
  simp

end

end Moorgate.Store
