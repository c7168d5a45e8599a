import Mathlib.Data.List.Basic
import Mathlib.Data.List.TakeWhile
import Mathlib.Tactic

/-!
# Trimming and cutting

`trim p l` cuts from both ends of `l` what satisfies `p`. On text, with the
white space of Unicode, it is Go's `strings.TrimSpace`. `cutLast c l` is what stands
before the last `c`.
-/

namespace Moorgate.Framework

variable {α : Type*}

def trim (p : α → Bool) (l : List α) : List α := ((l.dropWhile p).reverse.dropWhile p).reverse

variable {p : α → Bool} {l : List α}

theorem trim_append_left {k : List α} (h : ∀ a ∈ k, p a) : trim p (k ++ l) = trim p l := by
  rw [trim, trim, List.dropWhile_append_of_pos h]

theorem trim_append_right {k : List α} (h : ∀ a ∈ k, p a) : trim p (l ++ k) = trim p l := by
  have hreverse : ∀ a ∈ k.reverse, p a := fun a ha => h a (List.mem_reverse.mp ha)
  rw [trim, trim, List.dropWhile_append]
  split
  · next hall =>
    rw [List.dropWhile_eq_nil_iff.2 h, List.isEmpty_iff.mp hall]
  · rw [List.reverse_append, List.dropWhile_append_of_pos hreverse]

theorem exists_trim (p : α → Bool) (l : List α) :
    ∃ a b, l = a ++ trim p l ++ b ∧ (∀ x ∈ a, p x) ∧ ∀ x ∈ b, p x := by
  have hfront := List.takeWhile_append_dropWhile (p := p) (l := l)
  have hback := congrArg List.reverse
      (List.takeWhile_append_dropWhile (p := p) (l := (l.dropWhile p).reverse))
  rw [List.reverse_append, List.reverse_reverse] at hback
  refine ⟨l.takeWhile p, ((l.dropWhile p).reverse.takeWhile p).reverse, ?_, ?_, ?_⟩
  · rw [trim, List.append_assoc, hback, hfront]
  · exact fun x hx => List.mem_takeWhile_imp hx
  · exact fun x hx => List.mem_takeWhile_imp (List.mem_reverse.mp hx)

theorem mem_of_mem_trim {a : α} (h : a ∈ trim p l) : a ∈ l := by
  obtain ⟨front, back, hl, -⟩ := exists_trim p l
  rw [hl]
  exact List.mem_append_left _ (List.mem_append_right _ h)

theorem length_trim_le (p : α → Bool) (l : List α) : (trim p l).length ≤ l.length := by
  obtain ⟨front, back, hl, -⟩ := exists_trim p l
  have hlength := congrArg List.length hl
  rw [List.length_append, List.length_append] at hlength
  omega

theorem trim_filter (q : α → Bool) : trim p (l.filter q) = trim p ((trim p l).filter q) := by
  obtain ⟨front, back, hl, hfront, hback⟩ := exists_trim p l
  have hcut {k : List α} (hk : ∀ x ∈ k, p x) : ∀ x ∈ k.filter q, p x :=
    fun x hx => hk x (List.mem_of_mem_filter hx)
  conv_lhs => rw [hl, List.filter_append, List.filter_append]
  rw [trim_append_right (hcut hback), trim_append_left (hcut hfront)]

@[simp] theorem trim_trim (p : α → Bool) (l : List α) : trim p (trim p l) = trim p l := by
  have h := trim_filter (p := p) (l := l) fun _ => true
  rw [List.filter_true, List.filter_true] at h
  exact h.symm

/-- What is filtered out does not show after trimming iff all of it is cut from the ends. -/
theorem length_trim_filter_eq_iff {q : α → Bool} :
    (trim p l).length = (trim p (l.filter q)).length ↔ ∀ a ∈ trim p l, q a := by
  rw [trim_filter, ← List.length_filter_eq_length_iff]
  have hle := List.length_filter_le q (trim p l)
  have htrim := length_trim_le p ((trim p l).filter q)
  constructor
  · omega
  · intro h
    rw [List.filter_eq_self.mpr (List.length_filter_eq_length_iff.mp h), trim_trim]

theorem trim_map {β : Type*} (f : β → α) (l : List β) :
    trim p (l.map f) = (trim (p ∘ f) l).map f := by
  rw [trim, trim, List.dropWhile_map, ← List.map_reverse, List.dropWhile_map, List.map_reverse]

@[simp] theorem trim_eq_nil_iff : trim p l = [] ↔ ∀ a ∈ l, p a := by
  constructor
  · intro h
    obtain ⟨front, back, hl, hfront, hback⟩ := exists_trim p l
    rw [h, List.append_nil] at hl
    rw [hl, List.forall_mem_append]
    exact ⟨hfront, hback⟩
  · intro h
    have hnil := trim_append_left (l := []) h
    rwa [List.append_nil] at hnil

theorem trim_eq_self (h : ∀ a ∈ l, p a = false) : trim p l = l := by
  have hdrop : ∀ {l : List α}, (∀ a ∈ l, p a = false) → l.dropWhile p = l := by
    intro l h
    cases l with
    | nil => rfl
    | cons a l => rw [List.dropWhile_cons, if_neg (by rw [h a List.mem_cons_self]; decide)]
  have hreverse : ∀ a ∈ l.reverse, p a = false := fun a ha => h a (List.mem_reverse.mp ha)
  rw [trim, hdrop h, hdrop hreverse, List.reverse_reverse]

variable {a b x y : List α} {c : α}

theorem append_cons_split (h : a ++ c :: x = b ++ c :: y) :
    (a = b ∧ x = y) ∨ (∃ t, a = b ++ c :: t ∧ y = t ++ c :: x) ∨ ∃ t, b = a ++ c :: t ∧
    x = t ++ c :: y := by
  rcases List.append_eq_append_iff.mp h with ⟨t, rfl, ht⟩ | ⟨t, rfl, ht⟩
  · cases t with
    | nil =>
      rw [List.append_nil]
      exact .inl ⟨rfl, (List.cons.inj ht).2⟩
    | cons e t =>
      obtain ⟨rfl, rfl⟩ := List.cons.inj ht
      exact .inr (.inr ⟨t, rfl, rfl⟩)
  · cases t with
    | nil =>
      rw [List.append_nil]
      exact .inl ⟨rfl, (List.cons.inj ht).2.symm⟩
    | cons e t =>
      obtain ⟨rfl, rfl⟩ := List.cons.inj ht
      exact .inr (.inl ⟨t, rfl, rfl⟩)

theorem append_cons_cases (hb : c ∉ b) (h : a ++ c :: x = b ++ c :: y) :
    (a = b ∧ x = y) ∨ ∃ t, a = b ++ c :: t ∧ y = t ++ c :: x := by
  rcases append_cons_split h with hsame | hlater | ⟨t, rfl, -⟩
  · exact .inl hsame
  · exact .inr hlater
  · exact absurd (List.mem_append_right _ List.mem_cons_self) hb

theorem append_cons_inj (ha : c ∉ a) (hb : c ∉ b) (h : a ++ c :: x = b ++ c :: y) :
    a = b ∧ x = y := by
  rcases append_cons_cases hb h with hsame | ⟨t, rfl, -⟩
  · exact hsame
  · exact absurd (List.mem_append_right _ List.mem_cons_self) ha

theorem append_cons_inj_right (hx : c ∉ x) (hy : c ∉ y) (h : a ++ c :: x = b ++ c :: y) :
    a = b ∧ x = y := by
  rcases append_cons_split h with hsame | ⟨t, -, rfl⟩ | ⟨t, -, rfl⟩
  · exact hsame
  · exact absurd (List.mem_append_right _ List.mem_cons_self) hy
  · exact absurd (List.mem_append_right _ List.mem_cons_self) hx

def joinWith (c : α) : List (List α) → List α
  | [] => []
  | [p] => p
  | p :: q :: ps => p ++ c :: joinWith c (q :: ps)

section

variable [DecidableEq α] {c : α} {u v : List α}

theorem span_ne (hu : c ∉ u) (hv : v = [] ∨ ∃ rest, v = c :: rest) :
    (u ++ v).takeWhile (fun x => decide (x ≠ c)) = u ∧
    (u ++ v).dropWhile (fun x => decide (x ≠ c)) = v := by
  have hall : ∀ x ∈ u, decide (x ≠ c) := by
    intro x hx
    refine decide_eq_true ?_
    rintro rfl
    exact hu hx
  rw [List.takeWhile_append_of_pos hall, List.dropWhile_append_of_pos hall]
  rcases hv with rfl | ⟨rest, rfl⟩
  · exact ⟨List.append_nil u, rfl⟩
  · exact ⟨by rw [List.takeWhile_cons_of_neg (by simp), List.append_nil],
      List.dropWhile_cons_of_neg (by simp)⟩

/-- What stands before the last `c`, or everything. -/
def cutLast (c : α) (l : List α) : List α :=
  if c ∈ l then ((l.reverse.dropWhile (· ≠ c)).drop 1).reverse else l

theorem cutLast_append (hv : c ∉ v) : cutLast c (u ++ c :: v) = u := by
  have hrev : (u ++ c :: v).reverse = v.reverse ++ c :: u.reverse := by simp
  have hspan := span_ne (v := c :: u.reverse) (mt List.mem_reverse.mp hv) (.inr ⟨_, rfl⟩)
  rw [cutLast, if_pos (by simp), hrev, hspan.2, List.drop_one, List.tail_cons, List.reverse_reverse]

/-- Each join has as many separators as there are places between the pieces, with those that the
pieces have. -/
theorem count_joinWith (c : α) : ∀ ps : List (List α),
    (joinWith c ps).count c = (ps.map (List.count c)).sum + (ps.length - 1)
  | [] => rfl
  | [p] => by simp [joinWith]
  | p :: q :: ps => by
      rw [joinWith, List.count_append, List.count_cons_self, count_joinWith c (q :: ps)]
      simp only [List.map_cons, List.sum_cons, List.length_cons]
      omega

/-- The pieces between the separators; there is always one. -/
def splitWith (c : α) : List α → List (List α)
  | [] => [[]]
  | x :: l =>
    if x = c then [] :: splitWith c l
    else
      match splitWith c l with
      | [] => [[x]]
      | p :: ps => (x :: p) :: ps

theorem splitWith_ne_nil (c : α) (l : List α) : splitWith c l ≠ [] := by
  cases l with
  | nil => exact nofun
  | cons x l =>
    unfold splitWith
    split
    · exact nofun
    · split <;> exact nofun

theorem splitWith_append_cons (c : α) (u v : List α) :
    splitWith c (u ++ c :: v) = splitWith c u ++ splitWith c v := by
  induction u with
  | nil =>
    show splitWith c (c :: v) = [] :: splitWith c v
    rw [splitWith, if_pos rfl]
  | cons x u ih =>
    rw [List.cons_append, splitWith, splitWith, ih]
    split
    · rfl
    · cases hu : splitWith c u with
      | nil => exact absurd hu (splitWith_ne_nil c u)
      | cons p ps => rfl

theorem splitWith_of_notMem (hu : c ∉ u) : splitWith c u = [u] := by
  induction u with
  | nil => rfl
  | cons x u ih =>
    rw [List.mem_cons, not_or] at hu
    rw [splitWith, if_neg (Ne.symm hu.1), ih hu.2]

theorem splitWith_joinWith :
    ∀ {ps : List (List α)}, ps ≠ [] → (∀ p ∈ ps, c ∉ p) → splitWith c (joinWith c ps) = ps
  | [], h, _ => absurd rfl h
  | [p], _, hfree => splitWith_of_notMem (hfree p List.mem_cons_self)
  | p :: q :: ps, _, hfree => by
      obtain ⟨hp, hrest⟩ := List.forall_mem_cons.mp hfree
      rw [joinWith, splitWith_append_cons, splitWith_of_notMem hp,
        splitWith_joinWith (List.cons_ne_nil q ps) hrest]
      rfl

/-- Pieces without a separator are those of no other join of as many pieces. -/
theorem joinWith_inj : ∀ {ps qs : List (List α)}, ps.length = qs.length → (∀ p ∈ ps, c ∉ p) →
    joinWith c ps = joinWith c qs → ps = qs
  | [], [], _, _, _ => rfl
  | [p], [q], _, _, h => congrArg (fun l => [l]) h
  | p :: p' :: ps, q :: q' :: qs, hlength, hfree, h => by
      have htails : (p' :: ps).length = (q' :: qs).length := Nat.succ.inj hlength
      have hrest : ∀ r ∈ p' :: ps, c ∉ r := fun r hr => hfree r (List.mem_cons_of_mem p hr)
      rcases append_cons_cases (hfree p List.mem_cons_self) h.symm with ⟨rfl, hjoin⟩ | ⟨t, -, hjoin⟩
      · have htail : p' :: ps = q' :: qs := joinWith_inj htails hrest hjoin.symm
        rw [htail]
      · -- the other join would have a separator more
        have hzero : ((p' :: ps).map (List.count c)).sum = 0 := by
          refine List.sum_eq_zero fun n hn => ?_
          obtain ⟨r, hr, rfl⟩ := List.mem_map.mp hn
          exact List.count_eq_zero.mpr (hrest r hr)
        have hcount := congrArg (List.count c) hjoin
        rw [List.count_append, List.count_cons_self, count_joinWith, count_joinWith, hzero,
          htails] at hcount
        omega

end

def isSpace (c : Char) : Bool :=
  let n := c.toNat
  (9 ≤ n && n ≤ 13) || n == 0x20 || n == 0x85 || n == 0xA0 || n == 0x1680 ||
    (0x2000 ≤ n && n ≤ 0x200A) || n == 0x2028 || n == 0x2029 || n == 0x202F || n == 0x205F ||
    n == 0x3000

theorem isSpace_of_isDigit {c : Char} (h : c.isDigit) : isSpace c = false := by
  have hrange : 48 ≤ c.toNat ∧
      c.toNat ≤ 57 := by simpa [Char.isDigit, UInt32.le_iff_toNat_le] using h
  simp only [isSpace, Bool.or_eq_false_iff, Bool.and_eq_false_iff, decide_eq_false_iff_not,
    beq_eq_false_iff_ne]
  omega

def trimSpace (s : String) : String := String.ofList (trim isSpace s.toList)

example : trimSpace "\t 123 456 \n" = "123 456" := by decide +kernel

end Moorgate.Framework
