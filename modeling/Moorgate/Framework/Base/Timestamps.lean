import Moorgate.Framework.Base.Civil
import Moorgate.Framework.Base.Text

/-!
# What an RFC 3339 text determines

Decimal text with leading zeros has its number for a value, whatever the width. A fraction without
its trailing zeros is filled up again. A civil date has one day number. So the text of an instant,
with nanoseconds, is the text of no other.
-/

namespace Moorgate.Framework

/-! ## Decimal text -/

section

variable {w m n : ℕ} {c : Char}

theorem toList_zeroPad (w n : ℕ) :
    (zeroPad w n).toList = List.replicate (w - (Nat.toDigits 10 n).length) '0' ++
      Nat.toDigits 10 n := by
  have hdigits : toString n = String.ofList (Nat.toDigits 10 n) := Nat.repr_eq_ofList_toDigits
  simp only [zeroPad, hdigits, String.toList_append, String.toList_ofList, String.length_ofList]

theorem ofDigitChars_replicate_zero (k : ℕ) : Nat.ofDigitChars 10 (List.replicate k '0') 0 = 0 := by
  induction k with
  | zero => rfl
  | succ k ih => exact ih

theorem ofDigitChars_zeroPad (w n : ℕ) : Nat.ofDigitChars 10 (zeroPad w n).toList 0 = n := by
  rw [toList_zeroPad, Nat.ofDigitChars_append, ofDigitChars_replicate_zero,
    Nat.ofDigitChars_toDigits (by decide) (by decide)]

theorem zeroPad_inj (h : (zeroPad w m).toList = (zeroPad w n).toList) : m = n := by
  rw [← ofDigitChars_zeroPad w m, h, ofDigitChars_zeroPad]

theorem isDigit_of_mem_zeroPad (h : c ∈ (zeroPad w n).toList) : c.isDigit := by
  rw [toList_zeroPad, List.mem_append] at h
  rcases h with hzero | hdigit
  · rw [List.eq_of_mem_replicate hzero]
    rfl
  · exact Nat.isDigit_of_mem_toDigits (by decide) (by decide) hdigit

theorem notMem_zeroPad (hc : c.isDigit = false) : c ∉ (zeroPad w n).toList := by
  intro h
  rw [isDigit_of_mem_zeroPad h] at hc
  cases hc

theorem length_zeroPad (hw : 0 < w) (hn : n < 10 ^ w) : (zeroPad w n).toList.length = w := by
  have hle := Nat.toDigits_length 10 n w hw hn
  rw [toList_zeroPad, List.length_append, List.length_replicate]
  omega

theorem zeroPad_ne_nil (w n : ℕ) : (zeroPad w n).toList ≠ [] := by
  rw [toList_zeroPad]
  exact List.append_ne_nil_of_right_ne_nil _ Nat.toDigits_ne_nil

end

/-! ## Signed numbers -/

section

variable {u v : List Char} {a b : ℤ} {w : ℕ}

def signedText (w : ℕ) (a : ℤ) : List Char :=
  (if a < 0 then ['-'] else []) ++ (zeroPad w a.natAbs).toList

theorem toList_yearText (a : ℤ) : (yearText a).toList = signedText 4 a := by
  have hdash : "-".toList = ['-'] := rfl
  unfold yearText signedText
  split
  · rw [String.toList_append, hdash]
  · rw [List.nil_append]

theorem toList_toString (a : ℤ) : (toString a).toList = signedText 0 a := by
  have hpad : ∀ n, (zeroPad 0 n).toList = (Nat.repr n).toList := by
    intro n
    rw [toList_zeroPad, Nat.repr_eq_ofList_toDigits, String.toList_ofList, Nat.zero_sub,
      List.replicate_zero, List.nil_append]
  unfold signedText
  rw [hpad]
  cases a with
  | ofNat n => rfl
  | negSucc n =>
    have htext : toString (Int.negSucc n) = "-" ++ Nat.repr (n + 1) := rfl
    rw [if_pos (Int.negSucc_lt_zero n), htext, String.toList_append]
    rfl

/-- A number ends at the next dash, or at the one after its sign. -/
theorem signedText_append_inj (h : signedText w a ++ '-' :: u = signedText w b ++ '-' :: v) :
    a = b ∧ u = v := by
  have hdash : ∀ {n}, '-' ∉ (zeroPad w n).toList := notMem_zeroPad rfl
  -- a text that begins with a dash is not one that begins with a digit
  have hsign : ∀ {n} {x y : List Char}, '-' :: x ≠ (zeroPad w n).toList ++ y := by
    intro n x y heq
    rcases List.cons_eq_append_iff.mp heq with ⟨hnil, -⟩ | ⟨l, hl, -⟩
    · exact zeroPad_ne_nil w n hnil
    · exact hdash (hl ▸ List.mem_cons_self)
  unfold signedText at h
  split at h <;> split at h
  all_goals simp only [List.singleton_append, List.nil_append] at h
  · obtain ⟨habs, hrest⟩ := append_cons_inj hdash hdash (List.cons.inj h).2
    have habs := zeroPad_inj habs
    exact ⟨by omega, hrest⟩
  · exact absurd h hsign
  · exact absurd h.symm hsign
  · obtain ⟨habs, hrest⟩ := append_cons_inj hdash hdash h
    have habs := zeroPad_inj habs
    exact ⟨by omega, hrest⟩

theorem signedText_inj (h : signedText w a = signedText w b) : a = b :=
  (signedText_append_inj (congrArg (· ++ '-' :: []) h)).1

theorem mem_signedText {c : Char} (h : c ∈ signedText w a) : c.isDigit ∨ c = '-' := by
  rcases List.mem_append.mp h with hsign | hdigit
  · split at hsign
    · exact .inr (List.mem_singleton.mp hsign)
    · cases hsign
  · exact .inl (isDigit_of_mem_zeroPad hdigit)

end

/-! ## Fractions -/

section

variable {p m n : ℕ} {l : List Char}

def stripZeros (l : List Char) : List Char := (l.reverse.dropWhile (· = '0')).reverse

theorem stripZeros_append_zero (l : List Char) : stripZeros (l ++ ['0']) = stripZeros l := by
  unfold stripZeros
  rw [List.reverse_append, List.reverse_singleton, List.singleton_append,
    List.dropWhile_cons_of_pos (by decide)]

theorem stripZeros_append_replicate (l : List Char) :
    stripZeros l ++ List.replicate (l.length - (stripZeros l).length) '0' = l := by
  induction l using List.reverseRecOn with
  | nil => rfl
  | append_singleton l c ih =>
    by_cases hc : c = '0'
    · subst hc
      have hle : (stripZeros l).length ≤ l.length := by
        have := congrArg List.length ih
        rw [List.length_append] at this
        omega
      rw [stripZeros_append_zero, List.length_append, List.length_singleton, Nat.succ_sub hle,
        List.replicate_succ', ← List.append_assoc, ih]
    · have hstrip : stripZeros (l ++ [c]) = l ++ [c] := by
        unfold stripZeros
        rw [List.reverse_append, List.reverse_singleton, List.singleton_append,
          List.dropWhile_cons_of_neg (by simpa using hc), List.reverse_cons, List.reverse_reverse]
      rw [hstrip, Nat.sub_self, List.replicate_zero, List.append_nil]

theorem stripZeros_inj {l' : List Char} (hlength : l.length = l'.length)
    (h : stripZeros l = stripZeros l') : l = l' := by
  rw [← stripZeros_append_replicate l, ← stripZeros_append_replicate l', h, hlength]

theorem mem_of_mem_stripZeros {c : Char} (h : c ∈ stripZeros l) : c ∈ l := by
  rw [← stripZeros_append_replicate l]
  exact List.mem_append_left _ h

theorem toList_fracText (p n : ℕ) :
    (fracText p n).toList = if n = 0 then [] else '.' :: stripZeros (zeroPad p n).toList := by
  unfold fracText stripZeros
  split
  · rfl
  · have hdot : ".".toList = ['.'] := rfl
    simp only [String.toList_append, String.toList_ofList, hdot, List.cons_append, List.nil_append]

theorem fracText_inj (hp : 0 < p) (hm : m < 10 ^ p) (hn : n < 10 ^ p)
    (h : (fracText p m).toList = (fracText p n).toList) : m = n := by
  rw [toList_fracText, toList_fracText] at h
  split at h <;> split at h
  · omega
  · cases h
  · cases h
  · refine zeroPad_inj (stripZeros_inj ?_ (List.cons.inj h).2)
    rw [length_zeroPad hp hm, length_zeroPad hp hn]

theorem mem_fracText {c : Char} (h : c ∈ (fracText p n).toList) : c = '.' ∨ c.isDigit := by
  rw [toList_fracText] at h
  split at h
  · cases h
  · rcases List.mem_cons.mp h with rfl | hmem
    · exact .inl rfl
    · exact .inr (isDigit_of_mem_zeroPad (mem_of_mem_stripZeros hmem))

end

/-! ## Dates -/

/-- The year of the era that a day is in, and the days before it. -/
theorem eraYear_bounds {doe y : ℕ} (h : doe < 146097)
    (hy : y = (doe - doe / 1460 + doe / 36524 - doe / 146096) / 365) :
    y ≤ 399 ∧ 365 * y + y / 4 - y / 100 ≤ doe ∧ doe ≤ 365 * y + y / 4 - y / 100 + 365 := by
  -- the century it is in, and the place in its four years
  have hcentury : y / 100 + doe / 146096 = doe / 36524 := by
    have hcases : doe / 36524 = 0 ∨ doe / 36524 = 1 ∨ doe / 36524 = 2 ∨ doe / 36524 = 3 ∨
        doe / 36524 = 4 := by omega
    rcases hcases with he | he | he | he | he <;> omega
  have hquad : y + 1 = 4 * (doe / 1460) ∨ y = 4 * (doe / 1460) ∨ y = 4 * (doe / 1460) + 1 ∨
      y = 4 * (doe / 1460) + 2 ∨ y = 4 * (doe / 1460) + 3 := by omega
  rcases hquad with hq | hq | hq | hq | hq <;> omega

theorem monthDay_inj {a b : ℕ} (ha : a ≤ 365) (hb : b ≤ 365)
    (hm : (if (5 * a + 2) / 153 < 10 then (5 * a + 2) / 153 + 3 else (5 * a + 2) / 153 - 9) =
      if (5 * b + 2) / 153 < 10 then (5 * b + 2) / 153 + 3 else (5 * b + 2) / 153 - 9)
    (hd : a - (153 * ((5 * a + 2) / 153) + 2) / 5 + 1 =
      b - (153 * ((5 * b + 2) / 153) + 2) / 5 + 1) : a = b := by
  split at hm <;> split at hm <;> omega

theorem civilFromDays_inj {d d' : ℤ} (h : civilFromDays d = civilFromDays d') : d = d' := by
  obtain ⟨hyear, hrest⟩ := Prod.mk.inj h
  obtain ⟨hmonth, hday⟩ := Prod.mk.inj hrest
  have hlt : ∀ z : ℤ, (z % 146097).toNat < 146097 := fun z => by omega
  obtain ⟨hy, hlo, hhi⟩ := eraYear_bounds (hlt (d + 719468)) rfl
  obtain ⟨hy', hlo', hhi'⟩ := eraYear_bounds (hlt (d' + 719468)) rfl
  have hdoy := monthDay_inj (by omega) (by omega) hmonth hday
  rw [hmonth] at hyear
  generalize hdoe : ((d + 719468) % 146097).toNat = doe at *
  generalize hdoe' : ((d' + 719468) % 146097).toNat = doe' at *
  generalize (doe - doe / 1460 + doe / 36524 - doe / 146096) / 365 = y at *
  generalize (doe' - doe' / 1460 + doe' / 36524 - doe' / 146096) / 365 = y' at *
  obtain ⟨rfl, hera⟩ : y = y' ∧ (d + 719468) / 146097 = (d' + 719468) / 146097 := by
    omega
  omega

/-! ## Instants -/

section

variable {a b : ℤ}

theorem toList_formatNanos (t : ℤ) : (formatNanos t).toList =
      (yearText (civilFromDays (t / 86400000000000)).1).toList ++ '-' ::
        ((zeroPad 2 (civilFromDays (t / 86400000000000)).2.1).toList ++ '-' ::
          ((zeroPad 2 (civilFromDays (t / 86400000000000)).2.2).toList ++ 'T' ::
            ((zeroPad 2 ((t % 86400000000000).toNat / 1000000000 / 3600)).toList ++ ':' ::
              ((zeroPad 2 ((t % 86400000000000).toNat / 1000000000 / 60 % 60)).toList ++ ':' ::
                ((zeroPad 2 ((t % 86400000000000).toNat / 1000000000 % 60)).toList ++
                  ((fracText 9 ((t % 86400000000000).toNat % 1000000000)).toList ++
                    ['Z'])))))) := by
  have hdash : "-".toList = ['-'] := rfl
  have hcolon : ":".toList = [':'] := rfl
  have hT : "T".toList = ['T'] := rfl
  have hZ : "Z".toList = ['Z'] := rfl
  simp only [formatNanos, String.toList_append, hdash, hcolon, hT, hZ, List.append_assoc,
    List.cons_append, List.nil_append]

/-- Seconds end where the fraction or the zone begins. -/
theorem seconds_append_inj {m n x y : ℕ} (hx : x < 10 ^ 9) (hy : y < 10 ^ 9) (hm : m < 60)
    (hn : n < 60) (h : (zeroPad 2 m).toList ++ ((fracText 9 x).toList ++ ['Z']) =
      (zeroPad 2 n).toList ++ ((fracText 9 y).toList ++ ['Z'])) : m = n ∧ x = y := by
  have hlength : ∀ {k}, k < 60 → (zeroPad 2 k).toList.length = 2 :=
    fun hk => length_zeroPad (by decide) (by omega)
  obtain ⟨hsecs, hfraction⟩ := List.append_inj h ((hlength hm).trans (hlength hn).symm)
  exact ⟨zeroPad_inj hsecs, fracText_inj (by decide) hx hy (List.append_cancel_right hfraction)⟩

/-- **The text of an instant** is the text of no other. -/
theorem formatNanos_inj (h : formatNanos a = formatNanos b) : a = b := by
  have htext := congrArg String.toList h
  rw [toList_formatNanos, toList_formatNanos] at htext
  have hdash : ∀ {n}, '-' ∉ (zeroPad 2 n).toList := notMem_zeroPad rfl
  have hT : ∀ {n}, 'T' ∉ (zeroPad 2 n).toList := notMem_zeroPad rfl
  have hcolon : ∀ {n}, ':' ∉ (zeroPad 2 n).toList := notMem_zeroPad rfl
  rw [toList_yearText, toList_yearText] at htext
  obtain ⟨hyear, htext⟩ := signedText_append_inj htext
  obtain ⟨hmonth, htext⟩ := append_cons_inj hdash hdash htext
  obtain ⟨hdom, htext⟩ := append_cons_inj hT hT htext
  obtain ⟨hhours, htext⟩ := append_cons_inj hcolon hcolon htext
  obtain ⟨hminutes, htext⟩ := append_cons_inj hcolon hcolon htext
  obtain ⟨hseconds, hnanos⟩ :=
    seconds_append_inj (Nat.mod_lt _ (by decide)) (Nat.mod_lt _ (by decide))
    (Nat.mod_lt _ (by decide)) (Nat.mod_lt _ (by decide)) htext
  have hday := civilFromDays_inj (Prod.ext hyear (Prod.ext (zeroPad_inj hmonth) (zeroPad_inj hdom)))
  have hhours := zeroPad_inj hhours
  have hminutes := zeroPad_inj hminutes
  omega

theorem mem_formatNanos {c : Char} (h : c ∈ (formatNanos a).toList) :
    c.isDigit ∨ c ∈ ['-', 'T', ':', '.', 'Z'] := by
  have hyear : ∀ {y : ℤ}, c ∈ (yearText y).toList → c.isDigit ∨ c ∈ ['-', 'T', ':', '.', 'Z'] := by
    intro y hy
    rw [toList_yearText] at hy
    rcases mem_signedText hy with hdigit | rfl
    · exact .inl hdigit
    · exact .inr (by decide)
  have hpad : ∀ {n}, c ∈ (zeroPad 2 n).toList → c.isDigit ∨ c ∈ ['-', 'T', ':', '.', 'Z'] :=
    fun hc => .inl (isDigit_of_mem_zeroPad hc)
  have hfraction : ∀ {n}, c ∈ (fracText 9 n).toList → c.isDigit ∨ c ∈ ['-', 'T', ':', '.',
      'Z'] := by
    intro n hc
    rcases mem_fracText hc with rfl | hdigit
    · exact .inr (by decide)
    · exact .inl hdigit
  rw [toList_formatNanos] at h
  simp only [List.mem_append, List.mem_cons, List.not_mem_nil, or_false] at h
  grind

end

end Moorgate.Framework
