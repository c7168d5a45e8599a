import Mathlib.Data.List.Basic
import Mathlib.Tactic

/-!
# JSON texts and separators

The grammar of RFC 8259 over characters, and a scanner that knows only whether it is inside a
string. Outside of strings a JSON text has neither a backslash nor a bar, so a bar in it is inside
a string.

What follows such a bar is not a JSON text again: read from inside a string and from the
beginning, the two readings are never both outside, so they cannot both end there
(`not_scans_after_bar`).
-/

namespace Moorgate.Framework.Json

/-! ## The grammar -/

def isBlank (c : Char) : Bool := c == ' ' || c == '\t' || c == '\n' || c == '\r'

def Blanks (l : List Char) : Prop := ∀ c ∈ l, isBlank c

def Digits (l : List Char) : Prop := l ≠ [] ∧ ∀ c ∈ l, c.isDigit

def isHex (c : Char) : Bool := c.isDigit || ('a' ≤ c && c ≤ 'f') || ('A' ≤ c && c ≤ 'F')

/-- What stands between the quotes of a string. -/
inductive Characters : List Char → Prop where
  | nil : Characters []
  | plain {c : Char} {l : List Char} (hc : 0x20 ≤ c.toNat ∧ c ≠ '"' ∧ c ≠ '\\')
      (hl : Characters l) : Characters (c :: l)
  | escape {c : Char} {l : List Char} (hc : c ∈ ['"', '\\', '/', 'b', 'f', 'n', 'r', 't'])
      (hl : Characters l) : Characters ('\\' :: c :: l)
  | unicode {ds l : List Char} (hlength : ds.length = 4) (hds : ∀ c ∈ ds, isHex c)
      (hl : Characters l) : Characters ('\\' :: 'u' :: ds ++ l)

def Quoted (l : List Char) : Prop := ∃ body, Characters body ∧ l = '"' :: body ++ ['"']

/-- A number: the sign, the digits without a leading zero, the fraction and the exponent. -/
def Number (l : List Char) : Prop :=
  ∃ sign int frac exp : List Char, l = sign ++ int ++ frac ++ exp ∧ (sign = [] ∨ sign = ['-']) ∧
    Digits int ∧ (int.head? = some '0' → int = ['0']) ∧
    (frac = [] ∨ ∃ ds, Digits ds ∧ frac = '.' :: ds) ∧
    (exp = [] ∨ ∃ e s ds, (e = 'e' ∨ e = 'E') ∧ (s = [] ∨ s = ['+'] ∨ s = ['-']) ∧ Digits ds ∧
    exp = e :: s ++ ds)

inductive Part where
  | value
  | element -- a value with blanks around it
  | elements -- one element or more, with commas
  | members -- one member or more, with commas

inductive Grammar : Part → List Char → Prop where
  | null : Grammar .value ['n', 'u', 'l', 'l']
  | true : Grammar .value ['t', 'r', 'u', 'e']
  | false : Grammar .value ['f', 'a', 'l', 's', 'e']
  | number {l : List Char} (h : Number l) : Grammar .value l
  | string {l : List Char} (h : Quoted l) : Grammar .value l
  | emptyArray {l : List Char} (h : Blanks l) : Grammar .value ('[' :: l ++ [']'])
  | array {l : List Char} (h : Grammar .elements l) : Grammar .value ('[' :: l ++ [']'])
  | emptyObject {l : List Char} (h : Blanks l) : Grammar .value ('{' :: l ++ ['}'])
  | object {l : List Char} (h : Grammar .members l) : Grammar .value ('{' :: l ++ ['}'])
  | element {a v b : List Char} (ha : Blanks a) (hv : Grammar .value v) (hb : Blanks b) :
      Grammar .element (a ++ v ++ b)
  | last {l : List Char} (h : Grammar .element l) : Grammar .elements l
  | comma {l r : List Char} (hl : Grammar .element l) (hr : Grammar .elements r) :
      Grammar .elements (l ++ ',' :: r)
  | member {a s b l : List Char} (ha : Blanks a) (hs : Quoted s) (hb : Blanks b)
      (hl : Grammar .element l) : Grammar .members (a ++ s ++ b ++ ':' :: l)
  | members {l r : List Char} (hl : Grammar .members l) (hr : Grammar .members r) :
      Grammar .members (l ++ ',' :: r)

/-- A text that is one object. -/
def ObjectText (l : List Char) : Prop :=
  ∃ a o b, Blanks a ∧ Blanks b ∧ Grammar .value ('{' :: o ++ ['}']) ∧
    l = a ++ ('{' :: o ++ ['}']) ++ b

/-! ## The scanner -/

inductive Place where
  | outside | inside | escaped
deriving DecidableEq

/-- A step of the scanner; `none` for what no JSON text has at that place. -/
def scanChar : Place → Char → Option Place
  | .outside, c =>
    if c = '"' then some .inside else if c = '\\' ∨ c = '|' then none else some .outside
  | .inside, c =>
    if c = '"' then some .outside else if c = '\\' then some .escaped else some .inside
  | .escaped, c => if c = '|' then none else some .inside

def scan : Place → List Char → Option Place
  | p, [] => some p
  | p, c :: l => (scanChar p c).bind fun p' => scan p' l

section

variable {p q r : Place} {l l' : List Char} {c : Char}

theorem scan_append : scan p (l ++ l') = (scan p l).bind fun q => scan q l' := by
  induction l generalizing p with
  | nil => rfl
  | cons c l ih =>
    rw [List.cons_append, scan, scan, Option.bind_assoc]
    simp only [ih]

/-- The text leaves the scanner outside. -/
def Scans (l : List Char) : Prop := scan .outside l = some .outside

theorem Scans.append (hl : Scans l) (hl' : Scans l') : Scans (l ++ l') := by
  unfold Scans
  rw [scan_append, hl]
  exact hl'

theorem scans_nil : Scans [] := rfl

theorem Scans.cons (hc : c ≠ '"' ∧ c ≠ '\\' ∧ c ≠ '|') (hl : Scans l) : Scans (c :: l) := by
  unfold Scans
  rw [scan, scanChar, if_neg hc.1, if_neg (not_or.mpr hc.2)]
  exact hl

theorem scans_of_forall (h : ∀ c ∈ l, c ≠ '"' ∧ c ≠ '\\' ∧ c ≠ '|') : Scans l := by
  induction l with
  | nil => rfl
  | cons c l ih =>
    exact .cons (h c List.mem_cons_self) (ih fun d hd => h d (List.mem_cons_of_mem c hd))

theorem ne_of_class {f : Char → Bool} (hquote : f '"' = false) (hslash : f '\\' = false)
    (hbar : f '|' = false) (hc : f c) : c ≠ '"' ∧ c ≠ '\\' ∧ c ≠ '|' := by
  refine ⟨?_, ?_, ?_⟩ <;> (rintro rfl; simp_all)

theorem Blanks.scans (h : Blanks l) : Scans l :=
  scans_of_forall fun c hc => ne_of_class rfl rfl rfl (h c hc)

theorem Digits.scans (h : Digits l) : Scans l :=
  scans_of_forall fun c hc => ne_of_class rfl rfl rfl (h.2 c hc)

theorem Number.scans (h : Number l) : Scans l := by
  obtain ⟨sign, int, frac, exp, rfl, hsign, hint, -, hfrac, hexp⟩ := h
  have hsign : Scans sign := by rcases hsign with rfl | rfl <;> rfl
  have hfrac : Scans frac := by
    rcases hfrac with rfl | ⟨ds, hds, rfl⟩
    · rfl
    · exact .cons (by decide) hds.scans
  have hexp : Scans exp := by
    rcases hexp with rfl | ⟨e, s, ds, he, hs, hds, rfl⟩
    · rfl
    have hs : Scans s := by rcases hs with rfl | rfl | rfl <;> rfl
    rcases he with rfl | rfl
    all_goals exact .cons (by decide) (hs.append hds.scans)
  exact ((hsign.append hint.scans).append hfrac).append hexp

theorem scan_inside_of_forall (h : ∀ c ∈ l, c ≠ '"' ∧ c ≠ '\\') :
    scan .inside l = some .inside := by
  induction l with
  | nil => rfl
  | cons c l ih =>
    obtain ⟨hquote, hslash⟩ := h c List.mem_cons_self
    rw [scan, scanChar, if_neg hquote, if_neg hslash]
    exact ih fun d hd => h d (List.mem_cons_of_mem c hd)

theorem Characters.scan (h : Characters l) : scan .inside l = some .inside := by
  induction h with
  | nil => rfl
  | plain hc _ ih =>
    rw [Json.scan, scanChar, if_neg hc.2.1, if_neg hc.2.2]
    exact ih
  | @escape c l hc _ ih =>
    have hbar : c ≠ '|' := by
      rintro rfl
      exact absurd hc (by decide)
    rw [Json.scan, scanChar, if_neg (by decide), if_pos rfl, Option.bind_some, Json.scan, scanChar,
      if_neg hbar]
    exact ih
  | @unicode ds l _ hds _ ih =>
    have hplain : Json.scan .inside ds = some .inside := by
      refine scan_inside_of_forall fun c hc => ?_
      obtain ⟨hquote, hslash, -⟩ := ne_of_class rfl rfl rfl (hds c hc)
      exact ⟨hquote, hslash⟩
    rw [List.cons_append, Json.scan, scanChar, if_neg (by decide), if_pos rfl, Option.bind_some,
      List.cons_append, Json.scan, scanChar, if_neg (by decide), Option.bind_some,
      scan_append, hplain]
    exact ih

theorem Quoted.scans (h : Quoted l) : Scans l := by
  obtain ⟨body, hbody, rfl⟩ := h
  unfold Scans
  rw [List.cons_append, scan, scanChar, if_pos rfl, Option.bind_some, scan_append, hbody.scan]
  rfl

theorem scans_between {a b : Char} (ha : a ≠ '"' ∧ a ≠ '\\' ∧ a ≠ '|')
    (hb : b ≠ '"' ∧ b ≠ '\\' ∧ b ≠ '|') (hl : Scans l) : Scans (a :: l ++ [b]) :=
  .cons ha (hl.append (.cons hb scans_nil))

/-- Every part of a JSON text leaves the scanner outside. -/
theorem Grammar.scans {part : Part} (h : Grammar part l) : Scans l := by
  induction h with
  | null | true | false => rfl
  | number h | string h => exact h.scans
  | emptyArray h | emptyObject h => exact scans_between (by decide) (by decide) h.scans
  | array _ ih | object _ ih => exact scans_between (by decide) (by decide) ih
  | element ha _ hb ih => exact (ha.scans.append ih).append hb.scans
  | last _ ih => exact ih
  | comma _ _ ihl ihr | members _ _ ihl ihr => exact ihl.append (.cons (by decide) ihr)
  | member ha hs hb _ ih =>
    exact ((ha.scans.append hs.scans).append hb.scans).append (.cons (by decide) ih)

theorem ObjectText.scans (h : ObjectText l) : Scans l := by
  obtain ⟨a, o, b, ha, hb, ho, rfl⟩ := h
  exact (ha.scans.append ho.scans).append hb.scans

/-! ## What follows a bar -/

/-- Two readings of a text, one from outside and one from inside of a string, that both go through
are never at the same place. -/
theorem scan_ne {a b : Place} (hp : scan .outside l = some a) (hq : scan .inside l = some b) :
    a ≠ b := by
  induction l generalizing a b with
  | nil =>
    cases hp
    cases hq
    decide
  | cons c l ih =>
    simp only [scan, scanChar] at hp hq
    by_cases hquote : c = '"'
    · -- the two change places
      rw [if_pos hquote] at hp hq
      exact (ih hq hp).symm
    · rw [if_neg hquote] at hp hq
      by_cases hout : c = '\\' ∨ c = '|'
      · rw [if_pos hout] at hp
        cases hp
      · rw [if_neg hout] at hp
        rw [if_neg (not_or.mp hout).1] at hq
        exact ih hp hq

/-- What follows a bar in a JSON text is not a JSON text. -/
theorem not_scans_after_bar (h : Scans (l ++ '|' :: l')) : ¬ Scans l' := by
  intro hl'
  unfold Scans at h hl'
  rw [scan_append] at h
  obtain ⟨p, -, hbar⟩ := Option.bind_eq_some_iff.mp h
  cases p with
  | outside | escaped => cases hbar
  | inside => exact scan_ne hl' hbar rfl

end

end Moorgate.Framework.Json
