import Moorgate.Framework.Base.Bytes

/-!
# Ideal authenticated encryption

What opens is what was sealed, under its own key and nonce, and nothing else opens. A program that
parses a blob in several layouts presents to `decrypt` a piece of a sealed text, or a sealed text
with bytes around it: the law that no sealed text is found inside another (`encrypt_infix`) decides
such attempts. The length of a sealed text depends on the length of its plaintext only.
-/

namespace Moorgate.Framework

structure Aead (κ ν : Type*) where
  encrypt : κ → ν → List UInt8 → List UInt8
  decrypt : κ → ν → List UInt8 → Option (List UInt8)
  sealedLen : ℕ → ℕ
  length_encrypt : ∀ k n p, (encrypt k n p).length = sealedLen p.length
  decrypt_encrypt : ∀ k n p, decrypt k n (encrypt k n p) = some p
  encrypt_of_decrypt : ∀ {k n c p}, decrypt k n c = some p → c = encrypt k n p
  encrypt_infix : ∀ {k n p k' n' p'}, encrypt k n p <:+: encrypt k' n' p' → k = k' ∧ n = n' ∧ p = p'

namespace Aead

variable {κ ν : Type*} (A : Aead κ ν)

/-- A text that opens and is a tail of a sealed one, or has it as its tail, opens
to the same plaintext. -/
theorem eq_of_decrypt_of_suffix {k k' : κ} {n n' : ν} {c p q : List UInt8}
    (h : A.decrypt k n c = some q) (hc : c <:+ A.encrypt k' n' p ∨ A.encrypt k' n' p <:+ c) :
    q = p := by
  obtain rfl := A.encrypt_of_decrypt h
  rcases hc with hc | hc
  · exact (A.encrypt_infix hc.isInfix).2.2
  · exact (A.encrypt_infix hc.isInfix).2.2.symm

theorem decrypt_take {k k' : κ} {n n' : ν} {p : List UInt8} {j : ℕ}
    (hj : j < (A.encrypt k n p).length) : A.decrypt k' n' ((A.encrypt k n p).take j) = none := by
  cases h : A.decrypt k' n' ((A.encrypt k n p).take j) with
  | none => rfl
  | some q =>
    have hcut := A.encrypt_of_decrypt h
    have hin : A.encrypt k' n' q <:+: A.encrypt k n p := hcut ▸ (List.take_prefix j _).isInfix
    obtain ⟨rfl, rfl, rfl⟩ := A.encrypt_infix hin
    have hlen := congrArg List.length hcut
    rw [List.length_take] at hlen
    omega

end Aead

/-! ## An instance

Key, nonce and plaintext are written out in half bytes between two marks that are
no half bytes. -/

def nibbles (b : UInt8) : List UInt8 := [b / 16, b % 16]

def joinNibbles : List UInt8 → List UInt8
  | hi :: lo :: rest => (hi * 16 + lo) :: joinNibbles rest
  | _ => []

theorem joinNibbles_nibbles (l rest : List UInt8) :
    joinNibbles (l.flatMap nibbles ++ rest) = l ++ joinNibbles rest := by
  induction l with
  | nil => rfl
  | cons b l ih =>
    have hb : b / 16 * 16 + b % 16 = b := by
      apply UInt8.toNat.inj
      have hlt := b.toNat_lt
      simp only [UInt8.toNat_add, UInt8.toNat_mul, UInt8.toNat_div, UInt8.toNat_mod,
        UInt8.reduceToNat]
      omega
    show (b / 16 * 16 + b % 16) :: joinNibbles (l.flatMap nibbles ++ rest) = b ::
      (l ++ joinNibbles rest)
    rw [ih, hb]

theorem joinNibbles_flatMap (l : List UInt8) : joinNibbles (l.flatMap nibbles) = l := by
  have hnil : joinNibbles [] = [] := rfl
  have h := joinNibbles_nibbles l []
  rwa [hnil, List.append_nil, List.append_nil] at h

theorem lt_of_mem_nibbles {l : List UInt8} {x : UInt8} (h : x ∈ l.flatMap nibbles) : x < 16 := by
  obtain ⟨b, -, hx⟩ := List.mem_flatMap.mp h
  have hb := b.toNat_lt
  rw [UInt8.lt_iff_toNat_lt]
  rcases List.mem_cons.mp hx with rfl | hx
  · show b.toNat / 16 < 16
    omega
  · rw [List.mem_singleton.mp hx, UInt8.toNat_mod]
    exact Nat.mod_lt _ (by decide)

theorem length_flatMap_nibbles (l : List UInt8) : (l.flatMap nibbles).length = 2 * l.length := by
  induction l with
  | nil => rfl
  | cons b l ih =>
    rw [List.flatMap_cons, List.length_append, ih, List.length_cons]
    show 2 + 2 * l.length = 2 * (l.length + 1)
    omega

/-- Of two texts between the same marks, neither of which occurs inside, one is
not found inside the other. -/
theorem eq_of_marked_infix {α : Type*} {x y : α} {m m' : List α} (hxy : x ≠ y) (hx : x ∉ m')
    (hy : y ∉ m') (h : (x :: m ++ [y]) <:+: (x :: m' ++ [y])) : m = m' := by
  obtain ⟨s, t, hst⟩ := h
  have hs : s = [] := by
    cases s with
    | nil => rfl
    | cons a s =>
      simp only [List.cons_append, List.append_assoc, List.cons.injEq] at hst
      have hmem : x ∈ m' ++ [y] := by rw [← hst.2]; simp
      rcases List.mem_append.mp hmem with hm | hm
      · exact absurd hm hx
      · exact absurd (List.mem_singleton.mp hm) hxy
  subst hs
  rcases List.eq_nil_or_concat t with rfl | ⟨t', z, rfl⟩
  · simpa using hst
  have hall : (x :: m ++ y :: t') ++ [z] = (x :: m') ++ [y] := by simpa using hst
  have hm : x :: m ++ y :: t' = x :: m' := List.append_inj_left' hall rfl
  have hmem : y ∈ m' := by
    rw [List.cons_append, List.cons.injEq] at hm
    rw [← hm.2]
    exact List.mem_append_right _ List.mem_cons_self
  exact absurd hmem hy

def freeSeal (k : Bytes 32) (n : Bytes 12) (p : List UInt8) : List UInt8 :=
  255 :: (k.1 ++ n.1 ++ p).flatMap nibbles ++ [254]

def freeAead : Aead (Bytes 32) (Bytes 12) where
  encrypt := freeSeal
  decrypt k n c :=
    let p := (joinNibbles c.tail).drop 44
    if freeSeal k n p = c then some p else none
  sealedLen len := 2 * (44 + len) + 2
  length_encrypt k n p := by
    simp only [freeSeal, List.length_append, List.length_cons, length_flatMap_nibbles, k.2, n.2,
      List.length_nil]
  decrypt_encrypt k n p := by
    have hp : (joinNibbles (freeSeal k n p).tail).drop 44 = p := by
      have hend : joinNibbles [254] = [] := rfl
      rw [freeSeal, List.cons_append, List.tail_cons, joinNibbles_nibbles, hend, List.append_nil]
      exact List.drop_left' (by rw [List.length_append, k.2, n.2])
    simp only [hp, if_true]
  encrypt_of_decrypt {k n c p} h := by
    dsimp only at h
    split at h
    · rename_i hc
      cases h
      exact hc.symm
    · cases h
  encrypt_infix {k n p k' n' p'} h := by
    have hmark (l : List UInt8) {x : UInt8} (hx : ¬ x < 16) : x ∉ l.flatMap nibbles :=
      fun hmem => hx (lt_of_mem_nibbles hmem)
    have hnib := eq_of_marked_infix (by decide) (hmark _ (by decide)) (hmark _ (by decide)) h
    have hall : k.1 ++ n.1 ++ p = k'.1 ++ n'.1 ++ p' := by
      rw [← joinNibbles_flatMap (k.1 ++ n.1 ++ p), hnib, joinNibbles_flatMap]
    rw [List.append_assoc, List.append_assoc] at hall
    obtain ⟨hk, hrest⟩ := List.append_inj hall (k.2.trans k'.2.symm)
    obtain ⟨hn, hp⟩ := List.append_inj hrest (n.2.trans n'.2.symm)
    exact ⟨Subtype.ext hk, Subtype.ext hn, hp⟩

end Moorgate.Framework
