import Mathlib.Logic.Function.Basic
import Moorgate.Models.Ids

/-!
# The registry of live connections: `livesessions/registry.go`

Every connection is registered under its browser session with a number of its own
and a function that closes it. `Close` and `CloseSessionHost` take entries out and
run these functions; here they return whose.
-/

namespace Moorgate.Livesessions

open Models

structure LiveConn where
  id : ℕ
  hostID : UUID
deriving DecidableEq

/-- The `uint64` counter is unbounded: 2^64 connections are not made. -/
structure Registry where
  conns : UUID → List LiveConn
  next : ℕ

namespace Registry

def new : Registry := ⟨fun _ => [], 0⟩

variable (r : Registry) (sessionID : UUID)

/-- The number of the connection. -/
def register (hostID : UUID) : Registry × ℕ :=
  let id := r.next + 1
  (⟨Function.update r.conns sessionID (r.conns sessionID ++ [⟨id, hostID⟩]), id⟩, id)

def deregister (id : ℕ) : Registry :=
  { r with
    conns := Function.update r.conns sessionID
      ((r.conns sessionID).filter fun c => decide (c.id ≠ id)) }

def close : Registry × List ℕ :=
  ({ r with conns := Function.update r.conns sessionID [] }, (r.conns sessionID).map LiveConn.id)

def closeSessionHost (hostID : UUID) : Registry × List ℕ :=
  ({ r with
      conns := Function.update r.conns sessionID
        ((r.conns sessionID).filter fun c => decide (c.hostID ≠ hostID)) },
    ((r.conns sessionID).filter fun c => decide (c.hostID = hostID)).map LiveConn.id)

/-! ## What stays registered -/

variable {r sessionID} {hostID sid : UUID} {id : ℕ} {c : LiveConn}

theorem mem_register_of_mem (h : c ∈ r.conns sid) :
    c ∈ (r.register sessionID hostID).1.conns sid := by
  show c ∈ Function.update r.conns sessionID _ sid
  by_cases hsid : sid = sessionID
  · subst hsid
    rw [Function.update_self]
    exact List.mem_append_left _ h
  · rwa [Function.update_of_ne hsid]

theorem mem_register_self :
    ⟨(r.register sessionID hostID).2, hostID⟩ ∈ (r.register sessionID hostID).1.conns
      sessionID := by
  show _ ∈ Function.update r.conns sessionID _ sessionID
  rw [Function.update_self]
  exact List.mem_append_right _ (List.mem_singleton_self _)

theorem mem_deregister (h : c ∈ r.conns sid) (hne : c.id ≠ id) :
    c ∈ (r.deregister sessionID id).conns sid := by
  show c ∈ Function.update r.conns sessionID _ sid
  by_cases hsid : sid = sessionID
  · subst hsid
    rw [Function.update_self]
    exact List.mem_filter.mpr ⟨h, decide_eq_true hne⟩
  · rwa [Function.update_of_ne hsid]

theorem mem_close (h : c ∈ r.conns sid) :
    (sid = sessionID ∧ c.id ∈ (r.close sessionID).2) ∨ c ∈ (r.close sessionID).1.conns sid := by
  by_cases hsid : sid = sessionID
  · subst hsid
    exact .inl ⟨rfl, List.mem_map_of_mem h⟩
  · right
    show c ∈ Function.update r.conns sessionID [] sid
    rwa [Function.update_of_ne hsid]

theorem mem_closeSessionHost (h : c ∈ r.conns sid) :
    (sid = sessionID ∧ c.hostID = hostID ∧ c.id ∈ (r.closeSessionHost sessionID hostID).2) ∨
      c ∈ (r.closeSessionHost sessionID hostID).1.conns sid := by
  by_cases hsid : sid = sessionID
  · subst hsid
    by_cases hhost : c.hostID = hostID
    · exact .inl ⟨rfl, hhost, List.mem_map_of_mem (List.mem_filter.mpr ⟨h, decide_eq_true hhost⟩)⟩
    right
    show c ∈ Function.update r.conns sid _ sid
    rw [Function.update_self]
    exact List.mem_filter.mpr ⟨h, decide_eq_true hhost⟩
  · right
    show c ∈ Function.update r.conns sessionID _ sid
    rwa [Function.update_of_ne hsid]

end Registry

end Moorgate.Livesessions
