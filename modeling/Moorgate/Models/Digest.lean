import Moorgate.Framework.Base.Hex

/-!
# Digests

The two digests of the Go library, as the hexadecimal text the program stores and compares. What a
proof needs of them it takes from `Hashing` or assumes by name.
-/

namespace Moorgate.Models

open Framework

abbrev Key := List UInt8

/-- What `hex.EncodeToString` returns for a digest. -/
def IsHexDigest (s : String) : Prop := s ≠ "" ∧ ∀ c ∈ s.toList, isHexDigit c

theorem IsHexDigest.no_bar {s : String} (h : IsHexDigest s) : '|' ∉ s.toList :=
  fun hbar => absurd (h.2 _ hbar) (by decide)

/-- `hex.EncodeToString` of `crypto/sha256` and of `crypto/hmac` over it. -/
structure Hashing where
  sha256 : String → String
  hmac : Key → String → String
  sha256_hex : ∀ data, IsHexDigest (sha256 data)
  hmac_hex : ∀ key data, IsHexDigest (hmac key data)

/-- Digests as free terms: the hexadecimal text of what they are taken over,
behind a digit that tells the two apart. -/
def freeHashing : Hashing where
  sha256 d := String.ofList ('0' :: hexText d)
  hmac key d := String.ofList ('1' :: (key.flatMap fun b => hexDigits 2 b.toNat) ++ hexText d)
  sha256_hex d := by
    refine ⟨by simp [String.ofList_eq_empty_iff], fun c hc => ?_⟩
    rcases List.mem_cons.mp (by simpa using hc) with rfl | hc
    · decide
    · exact isHexDigit_of_mem_hexText hc
  hmac_hex key d := by
    refine ⟨by simp [String.ofList_eq_empty_iff], fun c hc => ?_⟩
    rw [String.toList_ofList, List.cons_append, List.mem_cons, List.mem_append] at hc
    rcases hc with rfl | hc | hc
    · decide
    · obtain ⟨b, -, hb⟩ := List.mem_flatMap.mp hc
      exact isHexDigit_of_mem_hexDigits hb
    · exact isHexDigit_of_mem_hexText hc

end Moorgate.Models
