import Mathlib.Data.Finset.Basic
import Mathlib.Data.Finset.Insert
import Moorgate.Models.Ids

/-!
# The broker of live sessions: `livesessions/broker.go`

A broker hands the frames of live sessions to those who watch them, on its own instance by channels
and on others by mirroring them. Every definition is what one method does under the lock; what
comes after the lock was released is left to the caller of the definition. A missing entry of a map
is its zero value.
-/

namespace Moorgate.Livesessions

open Models

structure Frame where
  kind : String
  data : List UInt8
  (cols rows : ℤ)
deriving DecidableEq

/-- `subs` are the channels of a session with the frames that wait in them;
`peered` is whether `SetPeer` was called. The `uint64` and `int64` counters do not
overflow in fewer than 2^63 subscriptions, and are unbounded here. -/
structure Broker where
  subs : UUID → List (ℕ × List Frame)
  size : UUID → ℤ × ℤ
  next : ℕ
  total : ℤ
  isLocal : UUID → Bool
  remoteOut : UUID → Finset String
  remoteIn : UUID → ℕ
  peered : Bool

namespace Broker

def new : Broker :=
  ⟨fun _ => [], fun _ => (0, 0), 0, 0, fun _ => false, fun _ => ∅, fun _ => 0, false⟩

variable (b : Broker) (sessionID : UUID)

def setPeer : Broker := { b with peered := true }

def registerLocal : Broker := { b with isLocal := Function.update b.isLocal sessionID true }

def addTotal (n : ℤ) : Broker := { b with total := b.total + n }

/-- What is to be added to the number of watchers, and the frame to be mirrored: the
size of the terminal, for the one who joins. -/
def remoteWatchStart (origin : String) : Broker × ℤ × Option Frame :=
  if b.isLocal sessionID then
    let existed := decide (origin ∈ b.remoteOut sessionID)
    let (cols, rows) := b.size sessionID
    ({ b with
        remoteOut :=
          Function.update b.remoteOut sessionID (insert origin (b.remoteOut sessionID)) },
      if existed then 0 else 1,
      if b.peered ∧ 0 < cols ∧ 0 < rows then some ⟨"r", [], cols, rows⟩ else none)
  else (b, 0, none)

def remoteWatchStop (origin : String) : Broker × ℤ :=
  ({ b with
      remoteOut := Function.update b.remoteOut sessionID ((b.remoteOut sessionID).erase origin) },
    if origin ∈ b.remoteOut sessionID then -1 else 0)

def wantRemote : Broker × Bool :=
  let n := b.remoteIn sessionID + 1
  ({ b with remoteIn := Function.update b.remoteIn sessionID n }, decide (n = 1) && b.peered)

def releaseRemote : Broker × Bool :=
  let n := if 0 < b.remoteIn sessionID then b.remoteIn sessionID - 1 else b.remoteIn sessionID
  ({ b with remoteIn := Function.update b.remoteIn sessionID n }, decide (n = 0) && b.peered)

def active : Bool := decide (0 < b.total)

def capacity : ℕ := 512

/-- A full channel drops the frame. -/
def offer (f : Frame) (ch : ℕ × List Frame) : ℕ × List Frame :=
  (ch.1, if ch.2.length < capacity then ch.2 ++ [f] else ch.2)

/-- Whether the frame is to be mirrored to the peers. -/
def publish (f : Frame) : Broker × Bool :=
  ({ b with
      size := if f.kind = "r" then Function.update b.size sessionID (f.cols, f.rows) else b.size
      subs := Function.update b.subs sessionID ((b.subs sessionID).map (offer f)) },
    b.peered && decide (b.remoteOut sessionID ≠ ∅))

def subscribe : Broker × ℕ × ℤ × ℤ :=
  let id := b.next + 1
  ({ b with
      next := id
      subs := Function.update b.subs sessionID (b.subs sessionID ++ [(id, [])])
      total := b.total + 1 },
    id, b.size sessionID)

def unsubscribe (id : ℕ) : Broker :=
  if id ∈ (b.subs sessionID).map Prod.fst then
    { b with
      subs := Function.update b.subs sessionID
        ((b.subs sessionID).filter fun ch => decide (ch.1 ≠ id))
      total := b.total - 1 }
  else b

def clear : Broker :=
  { b with
    size := Function.update b.size sessionID (0, 0)
    isLocal := Function.update b.isLocal sessionID false }

/-! ## What the methods leave alone -/

variable {b sessionID} {origin : String}

theorem remoteOut_remoteWatchStart : (b.remoteWatchStart sessionID origin).1.remoteOut =
    if b.isLocal sessionID then
      Function.update b.remoteOut sessionID (insert origin (b.remoteOut sessionID))
        else b.remoteOut := by
  unfold remoteWatchStart
  split <;> rfl

theorem isLocal_remoteWatchStart : (b.remoteWatchStart sessionID origin).1.isLocal = b.isLocal := by
  unfold remoteWatchStart
  split <;> rfl

theorem peered_remoteWatchStart : (b.remoteWatchStart sessionID origin).1.peered = b.peered := by
  unfold remoteWatchStart
  split <;> rfl

/-! ## The watchers of remote sessions -/

theorem remoteIn_wantRemote (b : Broker) (sessionID sid : UUID) :
    (b.wantRemote sessionID).1.remoteIn sid =
      b.remoteIn sid + if sessionID = sid then 1 else 0 := by
  show Function.update b.remoteIn sessionID (b.remoteIn sessionID + 1) sid = _
  by_cases h : sessionID = sid
  · subst h
    rw [Function.update_self, if_pos rfl]
  · rw [Function.update_of_ne (Ne.symm h), if_neg h, Nat.add_zero]

theorem remoteIn_releaseRemote (hpos : 0 < b.remoteIn sessionID) (sid : UUID) :
    (b.releaseRemote sessionID).1.remoteIn sid + (if sessionID = sid then 1 else 0) =
      b.remoteIn sid := by
  show Function.update b.remoteIn sessionID (if 0 < b.remoteIn sessionID then _ else _) sid + _ = _
  rw [if_pos hpos]
  by_cases h : sessionID = sid
  · subst h
    rw [Function.update_self, if_pos rfl]
    exact Nat.sub_add_cancel hpos
  · rw [Function.update_of_ne (Ne.symm h), if_neg h, Nat.add_zero]

theorem wantRemote_snd (hpeered : b.peered) :
    (b.wantRemote sessionID).2 = decide (b.remoteIn sessionID = 0) := by
  show (decide (b.remoteIn sessionID + 1 = 1) && b.peered) = _
  rw [hpeered, Bool.and_true]
  simp

theorem releaseRemote_snd (hpeered : b.peered) :
    (b.releaseRemote sessionID).2 =
      decide ((b.releaseRemote sessionID).1.remoteIn sessionID = 0) := by
  show (decide (_ = 0) && b.peered) = decide (Function.update b.remoteIn sessionID _ sessionID = 0)
  rw [hpeered, Bool.and_true, Function.update_self]

end Broker

end Moorgate.Livesessions
