import Mathlib.Data.List.Basic
import Mathlib.Tactic

/-!
# Hexadecimal text

Fixed-width hexadecimal digits of a number, and a rendering of whole strings as such digits, six
for each character. The rendering is injective, so it serves as a digest without collisions where
one is treated symbolically.
-/

namespace Moorgate.Framework

def hexDigit (n : ℕ) : Char :=
  if n < 10 then Char.ofNat ('0'.toNat + n) else Char.ofNat ('a'.toNat + (n - 10))

def hexDigits : ℕ → ℕ → List Char
  | 0, _ => []
  | width + 1, n => hexDigits width (n / 16) ++ [hexDigit (n % 16)]

def isHexDigit (c : Char) : Bool := ('0' ≤ c && c ≤ '9') || ('a' ≤ c && c ≤ 'f')

/-- Six digits for each character. -/
def hexText (s : String) : List Char := s.toList.flatMap fun c => hexDigits 6 c.toNat

private theorem hexDigit_inj : ∀ a < 16, ∀ b < 16, hexDigit a = hexDigit b → a = b := by
  decide

private theorem isHexDigit_hexDigit : ∀ a < 16, isHexDigit (hexDigit a) := by
  decide

theorem length_hexDigits (w n : ℕ) : (hexDigits w n).length = w := by
  induction w generalizing n with
  | zero => rfl
  | succ w ih => simp [hexDigits, ih]

theorem hexDigits_inj {w m n : ℕ} (hm : m < 16 ^ w) (hn : n < 16 ^ w)
    (h : hexDigits w m = hexDigits w n) : m = n := by
  induction w generalizing m n with
  | zero => simp at hm hn; omega
  | succ w ih =>
    obtain ⟨hhi, hlo⟩ := List.append_inj h (by simp [length_hexDigits])
    have hdiv : m / 16 = n / 16 := by
      apply ih _ _ hhi <;> rw [pow_succ] at * <;> omega
    have hmod : m % 16 = n % 16 :=
      hexDigit_inj _ (Nat.mod_lt _ (by decide)) _ (Nat.mod_lt _ (by decide))
        (List.singleton_inj.mp hlo)
    omega

theorem isHexDigit_of_mem_hexDigits {w n : ℕ} {c : Char} (h : c ∈ hexDigits w n) :
    isHexDigit c := by
  induction w generalizing n with
  | zero => simp [hexDigits] at h
  | succ w ih =>
    rcases List.mem_append.mp h with h | h
    · exact ih h
    · rw [List.mem_singleton.mp h]
      exact isHexDigit_hexDigit _ (Nat.mod_lt _ (by decide))

theorem isHexDigit_of_mem_hexText {s : String} {c : Char} (h : c ∈ hexText s) : isHexDigit c := by
  obtain ⟨_, _, hc⟩ := List.mem_flatMap.mp h
  exact isHexDigit_of_mem_hexDigits hc

private theorem char_block_inj {c d : Char} (h : hexDigits 6 c.toNat = hexDigits 6 d.toNat) :
    c = d := by
  have hlt : ∀ e : Char, e.toNat < 16 ^ 6 := by
    intro e
    rcases e.valid with he | ⟨-, he⟩
    all_goals exact lt_of_lt_of_le he (by norm_num)
  exact Char.toNat_inj.mp (hexDigits_inj (hlt c) (hlt d) h)

private theorem blocks_inj : ∀ {xs ys : List Char},
    xs.flatMap (fun c => hexDigits 6 c.toNat) = ys.flatMap (fun c => hexDigits 6 c.toNat) → xs = ys
  | [], [], _ => rfl
  | [], y :: ys, h => by
      have := congrArg List.length h
      simp [length_hexDigits] at this
      omega
  | x :: xs, [], h => by
      have := congrArg List.length h
      simp [length_hexDigits] at this
  | x :: xs, y :: ys, h => by
      simp only [List.flatMap_cons] at h
      obtain ⟨hc, hrest⟩ := List.append_inj h (by simp [length_hexDigits])
      rw [char_block_inj hc, blocks_inj hrest]

theorem hexText_inj {s t : String} (h : hexText s = hexText t) : s = t :=
  String.toList_inj.mp (blocks_inj h)

end Moorgate.Framework
