import Mathlib.Data.List.Basic
import Mathlib.Tactic

/-!
# Byte strings of a fixed length

`splitBytes n` cuts the first `n` bytes off, and is how a parser reads a field of
fixed length: it fails on shorter input and otherwise undoes the concatenation.
`putUint32` writes a number as four bytes, most significant first, and drops what
does not fit.
-/

namespace Moorgate.Framework

abbrev Bytes (n : ℕ) := {l : List UInt8 // l.length = n}

variable {n : ℕ}

def splitBytes (n : ℕ) (l : List UInt8) : Option (Bytes n × List UInt8) :=
  if h : n ≤ l.length then some (⟨l.take n, List.length_take_of_le h⟩, l.drop n) else none

@[simp] theorem splitBytes_append (x : Bytes n) (y : List UInt8) :
    splitBytes n (x.1 ++ y) = some (x, y) := by
  obtain ⟨l, rfl⟩ := x
  simp [splitBytes]

theorem splitBytes_eq_some {l : List UInt8} {x : Bytes n} {y : List UInt8}
    (h : splitBytes n l = some (x, y)) : l = x.1 ++ y := by
  unfold splitBytes at h
  split at h
  · cases h
    exact (List.take_append_drop n l).symm
  · cases h

theorem splitBytes_eq_none {l : List UInt8} : splitBytes n l = none ↔ l.length < n := by
  unfold splitBytes
  split
  · next hle => simp [hle]
  · next hlt => simpa using hlt

/-! ## Numbers of four bytes -/

def putUint32 (k : ℕ) : Bytes 4 :=
  ⟨[UInt8.ofNat (k / 2 ^ 24), UInt8.ofNat (k / 2 ^ 16), UInt8.ofNat (k / 2 ^ 8),
    UInt8.ofNat k], rfl⟩

def uint32 (b : Bytes 4) : ℕ := b.1.foldl (fun acc x => acc * 256 + x.toNat) 0

theorem uint32_putUint32 (k : ℕ) : uint32 (putUint32 k) = k % 2 ^ 32 := by
  simp only [uint32, putUint32, List.foldl_cons, List.foldl_nil, UInt8.toNat_ofNat']
  omega

end Moorgate.Framework
