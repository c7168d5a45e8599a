import Mathlib.Data.List.Basic
import Mathlib.Tactic

/-!
# Byte strings and UTF-8

A byte string need not be a text. Whether it is one can be read off its pieces as
long as they are joined by ASCII: no character of more than one byte has an ASCII
byte in it, so an ASCII byte always stands between two characters.
-/

namespace Moorgate.Framework

abbrev ByteString := List UInt8

def utf8 (s : String) : ByteString := s.toList.flatMap String.utf8EncodeChar

def Utf8 (l : ByteString) : Prop := ByteArray.IsValidUTF8 ⟨l.toArray⟩

instance : DecidablePred Utf8 :=
  fun l => inferInstanceAs (Decidable (ByteArray.IsValidUTF8 ⟨l.toArray⟩))

variable {l : ByteString}

theorem utf8_iff : Utf8 l ↔ ∃ m : List Char, l = m.flatMap String.utf8EncodeChar := by
  constructor
  · rintro ⟨m, hm⟩
    refine ⟨m, ?_⟩
    have hdata := congrArg (fun b => b.data.toList) hm
    simpa [List.utf8Encode] using hdata
  · rintro ⟨m, rfl⟩
    refine ⟨m, ?_⟩
    unfold List.utf8Encode
    ext1
    simp

theorem utf8_utf8 (s : String) : Utf8 (utf8 s) := utf8_iff.mpr ⟨s.toList, rfl⟩

variable {a b : ByteString}

theorem Utf8.append (ha : Utf8 a) (hb : Utf8 b) : Utf8 (a ++ b) := by
  obtain ⟨m, rfl⟩ := utf8_iff.mp ha
  obtain ⟨n, rfl⟩ := utf8_iff.mp hb
  exact utf8_iff.mpr ⟨m ++ n, (List.flatMap_append).symm⟩

theorem utf8_encodeChar (c : Char) : Utf8 (String.utf8EncodeChar c) := utf8_iff.mpr ⟨[c], by simp⟩

theorem le_ofNat {n : ℕ} (hlow : 128 ≤ n) (hhigh : n < 256) : 128 ≤ UInt8.ofNat n := by
  rw [UInt8.le_iff_toNat_le, UInt8.toNat_ofNat', Nat.mod_eq_of_lt hhigh]
  exact hlow

theorem utf8EncodeChar_cases (c : Char) :
    (∃ x, String.utf8EncodeChar c = [x] ∧ (x = 0 ↔ c = '\x00')) ∨ ∀ x ∈ String.utf8EncodeChar c,
      128 ≤ x := by
  unfold String.utf8EncodeChar
  dsimp only
  split_ifs with h
  · refine .inl ⟨_, rfl, ?_⟩
    rw [← UInt8.toNat_inj, UInt8.toNat_ofNat', Nat.mod_eq_of_lt (by omega)]
    rw [Char.ext_iff, ← UInt32.toNat_inj]
    rfl
  all_goals
    right
    simp only [List.forall_mem_cons, List.not_mem_nil, false_imp_iff, implies_true, and_true]
    and_intros <;> exact le_ofNat (by omega) (by omega)

variable {x : UInt8}

/-- Before and after an ASCII byte there are whole characters. -/
theorem split_of_flatMap_eq {m : List Char} (hx : x < 128)
    (h : m.flatMap String.utf8EncodeChar = a ++ x :: b) : Utf8 a ∧ Utf8 b := by
  induction m generalizing a with
  | nil => simp at h
  | cons c m ih =>
    rcases List.append_eq_append_iff.mp h with ⟨t, rfl, ht⟩ | ⟨t, hc, ht⟩
    · obtain ⟨hta, hb⟩ := ih ht
      exact ⟨(utf8_encodeChar c).append hta, hb⟩
    · cases t with
      | nil =>
        rw [List.append_nil] at hc
        obtain ⟨-, hb⟩ := ih (a := []) ht.symm
        exact ⟨hc ▸ utf8_encodeChar c, hb⟩
      | cons y t =>
        -- the byte is one of the character, which is therefore nothing else
        obtain ⟨rfl, rfl⟩ := ht
        rcases utf8EncodeChar_cases c with ⟨z, hz, -⟩ | hall
        · rw [hz] at hc
          have hlen := congrArg List.length hc
          simp only [List.length_append, List.length_cons, List.length_nil] at hlen
          have ha : a = [] := List.eq_nil_of_length_eq_zero (by omega)
          have ht : t = [] := List.eq_nil_of_length_eq_zero (by omega)
          subst ha ht
          exact ⟨utf8_iff.mpr ⟨[], rfl⟩, utf8_iff.mpr ⟨m, rfl⟩⟩
        · have hmem := hall x (by rw [hc]; simp)
          exact absurd hx (UInt8.not_lt.mpr hmem)

theorem utf8_singleton (hx : x < 128) : Utf8 [x] := by
  have hnat : x.toNat < 128 := UInt8.lt_iff_toNat_lt.mp hx
  have hvalid : Nat.isValidChar x.toNat := .inl (by omega)
  have hval : (Char.ofNat x.toNat).val.toNat = x.toNat := by
    rw [Char.ofNat, dif_pos hvalid]
    rfl
  refine utf8_iff.mpr ⟨[Char.ofNat x.toNat], ?_⟩
  rw [List.flatMap_singleton, String.utf8EncodeChar, hval, if_pos (by omega), UInt8.ofNat_toNat]

/-- Pieces that an ASCII byte joins make a text exactly when they are texts. -/
theorem utf8_append_cons_iff (hx : x < 128) : Utf8 (a ++ x :: b) ↔ Utf8 a ∧ Utf8 b := by
  constructor
  · intro h
    obtain ⟨m, hm⟩ := utf8_iff.mp h
    exact split_of_flatMap_eq hx hm.symm
  · rintro ⟨ha, hb⟩
    exact ha.append ((utf8_singleton hx).append hb)

theorem zero_mem_utf8_iff {s : String} : 0 ∈ utf8 s ↔ '\x00' ∈ s.toList := by
  unfold utf8
  rw [List.mem_flatMap]
  constructor
  · rintro ⟨c, hc, h0⟩
    rcases utf8EncodeChar_cases c with ⟨x, hx, hiff⟩ | hall
    · rw [hx, List.mem_singleton] at h0
      rw [← hiff.mp h0.symm]
      exact hc
    · exact absurd (hall 0 h0) (by decide)
  · intro h
    exact ⟨'\x00', h, by decide⟩

/-! ## Text made of any bytes -/

/-- At most `n` characters; a byte that begins none stands as U+FFFD. -/
def decodeChars : ℕ → ByteString → ByteString
  | 0, _ | _ + 1, [] => []
  | n + 1, b :: l =>
    match ByteArray.utf8DecodeChar? ⟨(b :: l).toArray⟩ 0 with
    | some c => String.utf8EncodeChar c ++ decodeChars n
        ((b :: l).drop (String.utf8EncodeChar c).length)
    | none => String.utf8EncodeChar '\uFFFD' ++ decodeChars n l

/-- What becomes of a byte string that is written as a text. -/
def toText (l : ByteString) : ByteString := decodeChars l.length l

/-- The characters of a byte string, at most `n`; a byte that begins none is read as U+FFFD. -/
def runesUpTo : ℕ → ByteString → List Char
  | 0, _ | _ + 1, [] => []
  | n + 1, b :: l =>
    match ByteArray.utf8DecodeChar? ⟨(b :: l).toArray⟩ 0 with
    | some c => c :: runesUpTo n ((b :: l).drop (String.utf8EncodeChar c).length)
    | none => '\uFFFD' :: runesUpTo n l

def runes (l : ByteString) : List Char := runesUpTo l.length l

theorem flatMap_runesUpTo (n : ℕ) (l : ByteString) :
    (runesUpTo n l).flatMap String.utf8EncodeChar = decodeChars n l := by
  induction n generalizing l with
  | zero => rfl
  | succ n ih =>
    cases l with
    | nil => rfl
    | cons b l =>
      unfold runesUpTo decodeChars
      split <;> rw [List.flatMap_cons, ih]

variable (m : List Char)

theorem runesUpTo_flatMap (n : ℕ) (h : (m.flatMap String.utf8EncodeChar).length ≤ n) :
    runesUpTo n (m.flatMap String.utf8EncodeChar) = m := by
  induction m generalizing n with
  | nil => cases n <;> rfl
  | cons c m ih =>
    have hpos : 0 < (String.utf8EncodeChar c).length := by
      rw [String.length_utf8EncodeChar]
      exact c.utf8Size_pos
    rw [List.flatMap_cons, List.length_append] at h
    rw [List.flatMap_cons]
    cases n with
    | zero => omega
    | succ n =>
      have hdecode : ByteArray.utf8DecodeChar?
          ⟨(String.utf8EncodeChar c ++ m.flatMap String.utf8EncodeChar).toArray⟩ 0 = some c := by
        have hbytes : ⟨(String.utf8EncodeChar c ++ m.flatMap String.utf8EncodeChar).toArray⟩ =
            (c :: m).utf8Encode := by
          unfold List.utf8Encode
          ext1
          simp
        rw [hbytes]
        exact List.utf8DecodeChar?_utf8Encode_cons
      cases henc : String.utf8EncodeChar c with
      | nil => simp [henc] at hpos
      | cons b t =>
        rw [henc] at hdecode h
        rw [List.cons_append] at hdecode ⊢
        simp only [runesUpTo, hdecode, henc]
        rw [← List.cons_append, List.drop_left, ih n (by simp only [List.length_cons] at h; omega)]

theorem runes_flatMap : runes (m.flatMap String.utf8EncodeChar) = m := runesUpTo_flatMap m _ le_rfl

theorem toText_eq_self_iff : toText l = l ↔ Utf8 l := by
  unfold toText
  constructor
  · intro h
    exact utf8_iff.mpr ⟨runes l, h.symm.trans (flatMap_runesUpTo _ l).symm⟩
  · intro h
    obtain ⟨m, rfl⟩ := utf8_iff.mp h
    rw [← flatMap_runesUpTo, runesUpTo_flatMap m _ le_rfl]

variable {b : UInt8}

theorem decode_of_ascii (hb : b < 128) (l : ByteString) :
    ∃ c, String.utf8EncodeChar c = [b] ∧
    ByteArray.utf8DecodeChar? ⟨(b :: l).toArray⟩ 0 = some c := by
  obtain ⟨m, hm⟩ := utf8_iff.mp (utf8_singleton hb)
  obtain ⟨c, rfl⟩ : ∃ c, m = [c] := by
    have hlen := congrArg List.length hm
    cases m with
    | nil => simp at hm
    | cons c m =>
      cases m with
      | nil => exact ⟨c, rfl⟩
      | cons d m =>
        have hc := c.utf8Size_pos
        have hd := d.utf8Size_pos
        simp only [List.flatMap_cons, List.length_append, String.length_utf8EncodeChar,
          List.length_singleton] at hlen
        omega
  have henc : String.utf8EncodeChar c = [b] := by simpa using hm.symm
  refine ⟨c, henc, ?_⟩
  have hcons := List.utf8DecodeChar?_utf8Encode_cons (l := []) (c := c)
  have hsplit : (⟨(b :: l).toArray⟩ : ByteArray) = [c].utf8Encode ++ ⟨l.toArray⟩ := by
    unfold List.utf8Encode
    ext1
    simp [henc]
  rw [hsplit]
  exact ByteArray.utf8DecodeChar?_append_eq_some hcons _

theorem toText_cons_of_ascii (hb : b < 128) (l : ByteString) : toText (b :: l) = b :: toText l := by
  obtain ⟨c, henc, hdecode⟩ := decode_of_ascii hb l
  unfold toText
  rw [List.length_cons]
  simp only [decodeChars, hdecode, henc]
  rfl

theorem toText_append_of_ascii (ha : ∀ b ∈ a, b < 128) (l : ByteString) :
    toText (a ++ l) = a ++ toText l := by
  induction a with
  | nil => rfl
  | cons b a ih =>
    rw [List.cons_append, toText_cons_of_ascii (ha b List.mem_cons_self),
      ih fun c hc => ha c (List.mem_cons_of_mem b hc), List.cons_append]

theorem toText_of_ascii (ha : ∀ b ∈ a, b < 128) : toText a = a := by
  have happend := toText_append_of_ascii ha []
  have hnil : toText [] = [] := rfl
  rwa [hnil, List.append_nil] at happend

theorem eq_append_of_decode {c : Char} (h : ByteArray.utf8DecodeChar? ⟨l.toArray⟩ 0 = some c) :
    ∃ r, l = String.utf8EncodeChar c ++ r := by
  obtain ⟨r, hr⟩ := ByteArray.exists_of_utf8DecodeChar?_eq_some h
  refine ⟨r.data.toList, ?_⟩
  have hdata := congrArg (fun b => b.data.toList) hr
  simpa using hdata

theorem le_of_decode_eq_none (h : ByteArray.utf8DecodeChar? ⟨(b :: l).toArray⟩ 0 = none) :
    128 ≤ b := by
  by_contra hb
  obtain ⟨c, -, hdecode⟩ := decode_of_ascii (UInt8.not_le.mp hb) l
  cases h.symm.trans hdecode

theorem decodeChars_cons (n : ℕ) (b : UInt8) (l : ByteString) :
    (∃ c r, b :: l = String.utf8EncodeChar c ++ r ∧ decodeChars (n + 1) (b :: l) =
      String.utf8EncodeChar c ++ decodeChars n r) ∨
      (128 ≤ b ∧ decodeChars (n + 1) (b :: l) = String.utf8EncodeChar '\uFFFD' ++
        decodeChars n l) := by
  cases hdecode : ByteArray.utf8DecodeChar? ⟨(b :: l).toArray⟩ 0 with
  | some c =>
    obtain ⟨r, hr⟩ := eq_append_of_decode hdecode
    refine .inl ⟨c, r, hr, ?_⟩
    simp only [decodeChars, hdecode]
    rw [hr, List.drop_left]
  | none =>
    refine .inr ⟨le_of_decode_eq_none hdecode, ?_⟩
    simp only [decodeChars, hdecode]

private theorem ascii_notMem_replacement (hx : x < 128) : x ∉ String.utf8EncodeChar '\uFFFD' := by
  intro hmem
  have hall : ∀ y ∈ String.utf8EncodeChar '\uFFFD', ¬ y < 128 := by decide +kernel
  exact hall x hmem hx

/-- Character by character, and byte by byte where none begins. -/
theorem toText_induction {P : ByteString → ByteString → Prop} (nil : P [] [])
    (char : ∀ c r t, P r t → P (String.utf8EncodeChar c ++ r) (String.utf8EncodeChar c ++ t))
    (byte : ∀ b l t, 128 ≤ b → P l t → P (b :: l) (String.utf8EncodeChar '\uFFFD' ++ t))
    (l : ByteString) : P l (toText l) := by
  suffices h : ∀ n, l.length ≤ n → P l (decodeChars n l) from h _ le_rfl
  intro n hn
  induction n generalizing l with
  | zero =>
    rw [List.eq_nil_of_length_eq_zero (Nat.le_zero.mp hn)]
    exact nil
  | succ n ih =>
    cases l with
    | nil => exact nil
    | cons b l =>
      rcases decodeChars_cons n b l with ⟨c, r, hr, hdecode⟩ | ⟨hb, hdecode⟩
      · have hlen := congrArg List.length hr
        have hpos := c.utf8Size_pos
        rw [List.length_append, String.length_utf8EncodeChar] at hlen
        rw [hdecode, hr]
        exact char c r _ (ih r (by omega))
      · rw [hdecode]
        exact byte b l _ hb (ih l (Nat.le_of_succ_le_succ hn))

/-- Nothing else becomes ASCII, and all ASCII stays. -/
theorem mem_toText_of_ascii (hx : x < 128) : x ∈ toText l ↔ x ∈ l := by
  refine toText_induction (P := fun l t => x ∈ t ↔ x ∈ l) .rfl ?_ ?_ l
  · intro c r t ih
    rw [List.mem_append, List.mem_append, ih]
  · intro b l t hb ih
    have hne : x ≠ b := by
      rintro rfl
      exact absurd hx (UInt8.not_lt.mpr hb)
    rw [List.mem_append, ih, List.mem_cons]
    simp [ascii_notMem_replacement hx, hne]

theorem exists_toText_cons (hb : 128 ≤ b) (l : ByteString) :
    ∃ x r, toText (b :: l) = x :: r ∧ 128 ≤ x := by
  rcases decodeChars_cons l.length b l with ⟨c, r, hr, hdecode⟩ | ⟨-, hdecode⟩
  · cases henc : String.utf8EncodeChar c with
    | nil =>
      have hpos := c.utf8Size_pos
      rw [← String.length_utf8EncodeChar, henc] at hpos
      cases hpos
    | cons y s =>
      rw [henc, List.cons_append, List.cons.injEq] at hr
      rw [henc, List.cons_append] at hdecode
      exact ⟨y, _, hdecode, hr.1 ▸ hb⟩
  · exact ⟨0xEF, _, hdecode, by decide⟩

/-- A replaced byte becomes three, so nothing is lost. -/
theorem length_le_toText (l : ByteString) : l.length ≤ (toText l).length := by
  refine toText_induction (P := fun l t => l.length ≤ t.length) le_rfl ?_ ?_ l
  · intro c r t ih
    rw [List.length_append, List.length_append]
    exact Nat.add_le_add_left ih _
  · intro b l t _ ih
    have hthree : (String.utf8EncodeChar '\uFFFD').length = 3 := by decide
    rw [List.length_append, hthree, List.length_cons]
    omega

/-- Pieces that are written as texts one by one make up the whole exactly if each of them is one. -/
theorem flatten_map_toText_iff {pieces : List ByteString} :
    (pieces.map toText).flatten = pieces.flatten ↔ ∀ l ∈ pieces, Utf8 l := by
  have hle : ∀ pieces : List ByteString, pieces.flatten.length ≤
      (pieces.map toText).flatten.length := by
    intro pieces
    induction pieces with
    | nil => exact le_rfl
    | cons l pieces ih =>
      rw [List.map_cons, List.flatten_cons, List.flatten_cons, List.length_append,
        List.length_append]
      exact Nat.add_le_add (length_le_toText l) ih
  induction pieces with
  | nil => exact iff_of_true rfl nofun
  | cons l pieces ih =>
    rw [List.map_cons, List.flatten_cons, List.flatten_cons, List.forall_mem_cons]
    refine Iff.trans ?_ (and_congr toText_eq_self_iff ih)
    constructor
    · intro h
      have hlen := congrArg List.length h
      rw [List.length_append, List.length_append] at hlen
      have hfirst : (toText l).length = l.length := by
        have hl := length_le_toText l
        have hrest := hle pieces
        omega
      exact List.append_inj h hfirst
    · rintro ⟨hl, hrest⟩
      rw [hl, hrest]

/-! ## White space

`unicode.IsSpace` at the front of a byte string, character by character. -/

def trimLeft : ByteString → ByteString
  | 0xC2 :: 0x85 :: l | 0xC2 :: 0xA0 :: l | 0xE1 :: 0x9A :: 0x80 :: l => trimLeft l
  | 0xE2 :: 0x80 :: b :: l =>
    if (0x80 ≤ b ∧ b ≤ 0x8A) ∨ b = 0xA8 ∨ b = 0xA9 ∨ b = 0xAF then trimLeft l else 0xE2 ::
      0x80 :: b :: l
  | 0xE2 :: 0x81 :: 0x9F :: l | 0xE3 :: 0x80 :: 0x80 :: l => trimLeft l
  | b :: l => if (0x09 ≤ b ∧ b ≤ 0x0D) ∨ b = 0x20 then trimLeft l else b :: l
  | [] => []

def trimRight : ByteString → ByteString
  | [] => []
  | b :: l => if trimLeft (b :: l) = [] then [] else b :: trimRight l

def trimSpaceBytes (l : ByteString) : ByteString := trimRight (trimLeft l)

def trimNewlines (l : ByteString) : ByteString := (l.reverse.dropWhile (· == 0x0A)).reverse

/-- `strings.ToLower` as far as it yields ASCII: of the other characters only the Kelvin sign and
the dotted capital I have a lower-case letter there. -/
def toLowerAscii : ByteString → ByteString
  | 0xE2 :: 0x84 :: 0xAA :: l => 0x6B :: toLowerAscii l
  | 0xC4 :: 0xB0 :: l => 0x69 :: toLowerAscii l
  | b :: l => (if 0x41 ≤ b ∧ b ≤ 0x5A then b + 0x20 else b) :: toLowerAscii l
  | [] => []

example : toText [0x61, 0xFF, 0x62] = utf8 "a\uFFFDb" := by decide +kernel

example : trimSpaceBytes (utf8 "\u2003 a b\n\u00A0") = utf8 "a b" := by decide +kernel

end Moorgate.Framework
