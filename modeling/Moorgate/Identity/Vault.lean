import Moorgate.Framework.Base.Table
import Moorgate.Models.Ids

/-!
# The identity vault: `identity/vault.go`

The live credentials of one backend instance, by session and by host; that of the session itself is
kept under the nil host. The key material is not modelled, and so neither is its overwriting.
-/

namespace Moorgate.Identity

open Framework Models

/-- The host a session-level credential is kept under. -/
def sessionScope : UUID := UUID.nil

structure Credential where
  (sessionID hostID userID : UUID)
  username : String
  serial : ℕ
  principals : List String
  expiresAt : Instant
deriving DecidableEq

/-- At most one credential for a session and a host. -/
abbrev Vault := Table fun c : Credential => (c.sessionID, c.hostID)

namespace Vault

def put (v : Vault) (c : Credential) : Vault := v.upsert c

def get (v : Vault) (sessionID : UUID) : Option Credential := v.lookup (sessionID, sessionScope)

def getHost (v : Vault) (sessionID hostID : UUID) : Option Credential :=
  v.lookup (sessionID, hostID)

def destroy (v : Vault) (sessionID : UUID) : Vault :=
  v.delete fun c => decide (c.sessionID = sessionID)

end Vault

def Holds (v : Vault) (sid : UUID) : Prop := ∃ c ∈ v.rows, c.sessionID = sid

instance (v : Vault) (sid : UUID) : Decidable (Holds v sid) :=
  inferInstanceAs (Decidable (∃ c ∈ v.rows, _))

theorem not_holds_destroy (v : Vault) (sid : UUID) : ¬ Holds (v.destroy sid) sid := by
  rintro ⟨c, hc, hsid⟩
  obtain ⟨-, hne⟩ := Table.mem_delete.mp hc
  simp [hsid] at hne

variable {v : Vault} {sid : UUID}

theorem Holds.of_destroy {id : UUID} (h : Holds (v.destroy id) sid) : Holds v sid := by
  obtain ⟨c, hc, hsid⟩ := h
  exact ⟨c, (Table.mem_delete.mp hc).1, hsid⟩

theorem Holds.destroy {id : UUID} (h : Holds v sid) (hne : sid ≠ id) :
    Holds (v.destroy id) sid := by
  obtain ⟨c, hc, hsid⟩ := h
  have hkept : c.sessionID ≠ id := by rwa [hsid]
  exact ⟨c, Table.mem_delete.mpr ⟨hc, decide_eq_false hkept⟩, hsid⟩

theorem Holds.of_put {c : Credential} (h : Holds (v.put c) sid) :
    Holds v sid ∨ c.sessionID = sid := by
  obtain ⟨d, hd, hsid⟩ := h
  rcases Table.mem_upsert.mp hd with ⟨hd, -⟩ | rfl
  · exact .inl ⟨d, hd, hsid⟩
  · exact .inr hsid

end Moorgate.Identity
