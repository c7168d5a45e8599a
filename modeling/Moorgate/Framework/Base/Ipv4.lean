import Moorgate.Framework.Base.Timestamps

/-!
# IPv4 addresses and blocks

An address is a number below `2 ^ 32`, and its text the four octets in decimal with dots between
them. The text determines the address, and reading it gives the address back.

A block has a prefix length and a base that is masked with it, so that counting up from the base
never leaves 32 bits.
-/

namespace Moorgate.Framework

/-! ## Texts -/

def octets (a : ℕ) : List ℕ := [a / 2 ^ 24 % 256, a / 2 ^ 16 % 256, a / 2 ^ 8 % 256, a % 256]

/-- The pieces of the text of an address. -/
def octetTexts (a : ℕ) : List (List Char) := (octets a).map fun o => (zeroPad 0 o).toList

def dotted (a : ℕ) : String := String.ofList (joinWith '.' (octetTexts a))

section

variable {a b : ℕ}

theorem dot_notMem_octetTexts : ∀ p ∈ octetTexts a, '.' ∉ p := by
  intro p hp
  obtain ⟨o, -, rfl⟩ := List.mem_map.mp hp
  exact notMem_zeroPad rfl

theorem octets_inj (ha : a < 2 ^ 32) (hb : b < 2 ^ 32) (h : octets a = octets b) : a = b := by
  simp only [octets, List.cons.injEq, and_true] at h
  omega

theorem octetTexts_inj (h : octetTexts a = octetTexts b) : octets a = octets b := by
  simp only [octetTexts, octets, List.map_cons, List.map_nil, List.cons.injEq, and_true] at h ⊢
  exact ⟨zeroPad_inj h.1, zeroPad_inj h.2.1, zeroPad_inj h.2.2.1, zeroPad_inj h.2.2.2⟩

theorem splitWith_dotted (a : ℕ) : splitWith '.' (dotted a).toList = octetTexts a := by
  rw [dotted, String.toList_ofList]
  exact splitWith_joinWith nofun dot_notMem_octetTexts

theorem dotted_inj (ha : a < 2 ^ 32) (hb : b < 2 ^ 32) (h : dotted a = dotted b) : a = b := by
  have htexts : octetTexts a = octetTexts b := by rw [← splitWith_dotted, ← splitWith_dotted, h]
  exact octets_inj ha hb (octetTexts_inj htexts)

theorem mem_joinWith {c x : Char} :
    ∀ {ps : List (List Char)}, x ∈ joinWith c ps → x = c ∨ ∃ p ∈ ps, x ∈ p
  | [], h => absurd h List.not_mem_nil
  | [p], h => .inr ⟨p, List.mem_cons_self, h⟩
  | p :: q :: ps, h => by
      rw [joinWith, List.mem_append, List.mem_cons] at h
      rcases h with hp | rfl | hrest
      · exact .inr ⟨p, List.mem_cons_self, hp⟩
      · exact .inl rfl
      · rcases mem_joinWith hrest with rfl | ⟨r, hr, hx⟩
        · exact .inl rfl
        · exact .inr ⟨r, List.mem_cons_of_mem p hr, hx⟩

theorem mem_dotted {x : Char} (h : x ∈ (dotted a).toList) : x = '.' ∨ x.isDigit := by
  rw [dotted, String.toList_ofList] at h
  rcases mem_joinWith h with rfl | ⟨p, hp, hx⟩
  · exact .inl rfl
  · obtain ⟨o, -, rfl⟩ := List.mem_map.mp hp
    exact .inr (isDigit_of_mem_zeroPad hx)

end

/-! ## Reading -/

/-- A decimal number below 256 without a leading zero. -/
def parseOctet (p : List Char) : Option ℕ :=
  (List.range 256).find? fun o => decide ((zeroPad 0 o).toList = p)

def parseDotted (s : String) : Option (Fin (2 ^ 32)) :=
  match (splitWith '.' s.toList).map parseOctet with
  | [some a, some b, some c, some d] =>
    some (Fin.ofNat (2 ^ 32) (a * 2 ^ 24 + b * 2 ^ 16 + c * 2 ^ 8 + d))
  | _ => none

theorem parseOctet_zeroPad {o : ℕ} (h : o < 256) : parseOctet (zeroPad 0 o).toList = some o := by
  refine List.find?_range_eq_some.mpr ⟨decide_eq_true rfl, List.mem_range.mpr h, fun q hq => ?_⟩
  rw [Bool.not_eq_true', decide_eq_false_iff_not]
  exact fun htext => hq.ne (zeroPad_inj htext)

theorem lt_of_mem_octets {a o : ℕ} (h : o ∈ octets a) : o < 256 := by
  simp only [octets, List.mem_cons, List.not_mem_nil, or_false] at h
  omega

theorem map_parseOctet_octetTexts (a : ℕ) :
    (octetTexts a).map parseOctet = (octets a).map some := by
  rw [octetTexts, List.map_map, List.map_inj_left]
  intro o ho
  rw [Function.comp_apply, parseOctet_zeroPad (lt_of_mem_octets ho)]

theorem parseDotted_dotted (a : Fin (2 ^ 32)) : parseDotted (dotted a) = some a := by
  have hread : (splitWith '.' (dotted a).toList).map parseOctet = (octets a).map some := by
    rw [splitWith_dotted, map_parseOctet_octetTexts]
  unfold parseDotted
  rw [hread]
  simp only [octets, List.map_cons, List.map_nil, Option.some.injEq, Fin.ext_iff, Fin.val_ofNat]
  omega

/-! ## Blocks -/

/-- The addresses that begin with the first `ones` bits of `base`. -/
structure Block where
  (base ones : ℕ)
  base_lt : base < 2 ^ 32
  ones_le : ones ≤ 32
  /-- The other bits of the base are zero. -/
  masked : 2 ^ (32 - ones) ∣ base

namespace Block

def size (b : Block) : ℕ := 2 ^ (32 - b.ones)

theorem base_add_size_le (b : Block) : b.base + b.size ≤ 2 ^ 32 := by
  obtain ⟨k, hk⟩ := b.masked
  have hsplit : 2 ^ (32 - b.ones) * 2 ^ b.ones = 2 ^ 32 := by
    rw [← pow_add, Nat.sub_add_cancel b.ones_le]
  have hk' : k < 2 ^ b.ones := by
    have hlt := b.base_lt
    rw [hk, ← hsplit] at hlt
    exact Nat.lt_of_mul_lt_mul_left hlt
  calc b.base + b.size = 2 ^ (32 - b.ones) * (k + 1) := by rw [hk, size]; ring
    _ ≤ 2 ^ (32 - b.ones) * 2 ^ b.ones := Nat.mul_le_mul_left _ hk'
    _ = 2 ^ 32 := hsplit

def contains (b : Block) (a : ℕ) : Bool := decide (b.base ≤ a ∧ a < b.base + b.size)

def ofAddress (a : Fin (2 ^ 32)) (ones : Fin 33) : Block where
  base := a / 2 ^ (32 - ones.val) * 2 ^ (32 - ones.val)
  ones := ones
  base_lt := lt_of_le_of_lt (Nat.div_mul_le_self _ _) a.isLt
  ones_le := Nat.le_of_lt_succ ones.isLt
  masked := Nat.dvd_mul_left _ _

end Block

/-- The length of a prefix. It may have leading zeros. -/
def parseOnes (p : List Char) : Option (Fin 33) :=
  let n := Nat.ofDigitChars 10 p 0
  if h : n < 33 then if p ≠ [] ∧ p.all Char.isDigit = true then some ⟨n, h⟩ else none else none

def parseBlock (s : String) : Option Block :=
  match splitWith '/' s.toList with
  | [addr, ones] =>
    match parseDotted (String.ofList addr), parseOnes ones with
    | some a, some n => some (Block.ofAddress a n)
    | _, _ => none
  | _ => none

theorem parseBlock_empty : parseBlock "" = none := rfl

end Moorgate.Framework
