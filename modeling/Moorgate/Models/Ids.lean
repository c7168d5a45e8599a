import Moorgate.Framework.Base.Civil
import Moorgate.Framework.Base.Hex

/-!
# Identifiers

Rows of the store are identified by UUIDs, 128 bits printed in the usual
8-4-4-4-12 grouping of lower-case hexadecimal digits.
-/

namespace Moorgate.Models

open Framework

structure UUID where
  bits : BitVec 128
deriving DecidableEq

def UUID.nil : UUID := ⟨0⟩

def UUID.ofNat (n : ℕ) : UUID := ⟨BitVec.ofNat 128 n⟩

def UUID.string (u : UUID) : String :=
  let ds := hexDigits 32 u.bits.toNat
  String.ofList (ds.take 8 ++ '-' :: (ds.drop 8).take 4 ++ '-' :: (ds.drop 12).take 4 ++
    '-' :: (ds.drop 16).take 4 ++ '-' :: ds.drop 20)

section

variable {u v : UUID}

theorem UUID.string_inj (h : u.string.toList = v.string.toList) : u = v := by
  have hlength : ∀ w : UUID, (hexDigits 32 w.bits.toNat).length = 32 :=
    fun w => length_hexDigits 32 _
  unfold UUID.string at h
  simp only [String.toList_ofList, List.append_assoc, List.cons_append] at h
  generalize hu : hexDigits 32 u.bits.toNat = ds at h
  generalize hv : hexDigits 32 v.bits.toNat = es at h
  have hds : ds.length = 32 := hu ▸ hlength u
  have hes : es.length = 32 := hv ▸ hlength v
  obtain ⟨h₁, h⟩ := List.append_inj h (by simp [hds, hes])
  obtain ⟨h₂, h⟩ := List.append_inj (List.cons.inj h).2 (by simp [hds, hes])
  obtain ⟨h₃, h⟩ := List.append_inj (List.cons.inj h).2 (by simp [hds, hes])
  obtain ⟨h₄, h⟩ := List.append_inj (List.cons.inj h).2 (by simp [hds, hes])
  have h₅ := (List.cons.inj h).2
  have hjoin : ∀ {a b : ℕ}, (ds.drop a).take b = (es.drop a).take b →
      ds.drop (a + b) = es.drop (a + b) → ds.drop a = es.drop a := by
    intro a b htake hdrop
    rw [← List.take_append_drop b (ds.drop a), htake, List.drop_drop, hdrop, ← List.drop_drop,
      List.take_append_drop]
  have hdigits : ds = es := hjoin (a := 0) h₁ (hjoin h₂ (hjoin h₃ (hjoin h₄ h₅)))
  have hbits : u.bits.toNat = v.bits.toNat := by
    refine hexDigits_inj (w := 32) ?_ ?_ (hu.trans (hdigits.trans hv.symm))
    · exact u.bits.isLt.trans_le (by norm_num)
    · exact v.bits.isLt.trans_le (by norm_num)
  exact congrArg UUID.mk (BitVec.eq_of_toNat_eq hbits)

theorem UUID.mem_string {c : Char} (h : c ∈ u.string.toList) : isHexDigit c ∨ c = '-' := by
  have hdigit : c ∈ hexDigits 32 u.bits.toNat → isHexDigit c := isHexDigit_of_mem_hexDigits
  unfold UUID.string at h
  simp only [String.toList_ofList, List.mem_append, List.mem_cons] at h
  rcases h with (((h | rfl | h) | rfl | h) | rfl | h) | rfl | h
  · exact .inl (hdigit (List.mem_of_mem_take h))
  · exact .inr rfl
  · exact .inl (hdigit (List.mem_of_mem_drop (List.mem_of_mem_take h)))
  · exact .inr rfl
  · exact .inl (hdigit (List.mem_of_mem_drop (List.mem_of_mem_take h)))
  · exact .inr rfl
  · exact .inl (hdigit (List.mem_of_mem_drop (List.mem_of_mem_take h)))
  · exact .inr rfl
  · exact .inl (hdigit (List.mem_of_mem_drop h))

end

/-- The JSON object without members. -/
def emptyObject : String := String.ofList ['{', '}']

end Moorgate.Models
