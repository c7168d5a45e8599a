import Mathlib.Logic.Basic

/-!
# Checks in a row

A handler makes one check after the other and stops at the first that fails. In
`Except` this is a chain of binds, and the chain succeeds exactly when each link does.
-/

namespace Moorgate.Framework

variable {α β ε : Type} {x : Except ε α} {b : β}

def refuseIf (c : Bool) (e : ε) : Except ε Unit := if c then .error e else .ok ()

@[simp] theorem refuseIf_eq_ok {c : Bool} {e : ε} {u : Unit} :
    refuseIf c e = .ok u ↔ c = false := by
  cases c
  · exact ⟨fun _ => rfl, fun _ => rfl⟩
  · exact ⟨nofun, nofun⟩

theorem bind_eq_ok {f : α → Except ε β} : (x >>= f) = .ok b ↔ ∃ a, x = .ok a ∧ f a = .ok b := by
  cases x with
  | error e => exact ⟨nofun, fun ⟨_, h, _⟩ => nomatch h⟩
  | ok a => exact ⟨fun h => ⟨a, rfl, h⟩, fun ⟨_, ha, h⟩ => by cases ha; exact h⟩

theorem refuseIf_bind_eq_ok {c : Bool} {e : ε} {k : Except ε β} :
    (refuseIf c e >>= fun _ => k) = .ok b ↔ c = false ∧ k = .ok b := by
  cases c
  · exact ⟨fun h => ⟨rfl, h⟩, And.right⟩
  · exact ⟨nofun, nofun⟩

theorem map_eq_ok {f : α → β} : x.map f = .ok b ↔ ∃ a, x = .ok a ∧ f a = b := by
  cases x with
  | error e => exact ⟨nofun, fun ⟨_, h, _⟩ => nomatch h⟩
  | ok a => exact ⟨fun h => ⟨a, rfl, Except.ok.inj h⟩,
      fun ⟨_, ha, h⟩ => by cases ha; exact congrArg Except.ok h⟩

@[simp] theorem mapError_eq_ok {ε' : Type} {f : ε → ε'} {a : α} :
    x.mapError f = .ok a ↔ x = .ok a := by
  cases x with
  | error e => exact ⟨nofun, nofun⟩
  | ok a => exact ⟨fun h => by cases h; rfl, fun h => by cases h; rfl⟩

end Moorgate.Framework
