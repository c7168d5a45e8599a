import Mathlib.Data.List.Count
import Mathlib.Tactic

/-!
# Paths of URLs

The text of a path is the list of its bytes, each as the character with that
number. `unescape` and `escape` are those of Go's `net/url` in the mode of paths. A
parsed path keeps the text as it was sent when that is not the text `escape` gives;
routers match on the kept text.
-/

namespace Moorgate.Framework

def unhex (c : Char) : Option ℕ :=
  if '0' ≤ c ∧ c ≤ '9' then some (c.toNat - '0'.toNat)
  else if 'a' ≤ c ∧ c ≤ 'f' then some (c.toNat - 'a'.toNat + 10)
  else if 'A' ≤ c ∧ c ≤ 'F' then some (c.toNat - 'A'.toNat + 10)
  else none

/-- `none` when a percent sign is not followed by two hexadecimal digits. -/
def unescape : List Char → Option (List Char)
  | [] => some []
  | c :: rest =>
    if c = '%' then
      match rest with
      | hi :: lo :: rest =>
        match unhex hi, unhex lo with
        | some a, some b => (unescape rest).map (Char.ofNat (16 * a + b) :: ·)
        | _, _ => none
      | _ => none
    else (unescape rest).map (c :: ·)

def shouldEscape (c : Char) : Bool :=
  !(c.isAlphanum || decide (c ∈ ['-', '_', '.', '~', '$', '&', '+', ',', '/', ':', ';', '=', '@']))

def upperHex (n : ℕ) : Char :=
  if n < 10 then Char.ofNat ('0'.toNat + n) else Char.ofNat ('A'.toNat + (n - 10))

def escapeChar (c : Char) : List Char :=
  if shouldEscape c then ['%', upperHex (c.toNat / 16 % 16), upperHex (c.toNat % 16)] else [c]

def escape (text : List Char) : List Char := text.flatMap escapeChar

/-- `URL.Path` and `URL.RawPath`. -/
structure UrlPath where
  (path rawPath : List Char)
deriving DecidableEq

def setPath (text : List Char) : Option UrlPath :=
  (unescape text).map fun path => ⟨path, if escape path = text then [] else text⟩

/-- What is matched with the patterns of the routes. -/
def UrlPath.routePath (u : UrlPath) : List Char := if u.rawPath = [] then u.path else u.rawPath

example : (setPath "/a%20b".toList).map UrlPath.routePath = some "/a b".toList := by decide +kernel

example : setPath "/a%2Fb".toList = some ⟨"/a/b".toList, "/a%2Fb".toList⟩ := by decide +kernel

theorem unescape_cons_of_ne {c : Char} (h : c ≠ '%') (text : List Char) :
    unescape (c :: text) = (unescape text).map (c :: ·) := by
  conv_lhs => unfold unescape
  exact if_neg h

theorem unescape_append_of_plain {a b : List Char} (h : '%' ∉ a) :
    unescape (a ++ b) = (unescape b).map (a ++ ·) := by
  induction a with
  | nil =>
    exact (Option.map_id' (x := unescape b)).symm
  | cons c a ih =>
    have hc : c ≠ '%' := fun hc => h (hc ▸ List.mem_cons_self)
    have ha : '%' ∉ a := fun ha => h (List.mem_cons_of_mem c ha)
    rw [List.cons_append, unescape_cons_of_ne hc, ih ha, Option.map_map]
    rfl

variable (text : List Char)

private theorem upperHex_lt : ∀ n < 16, (upperHex n).toNat < 128 := by decide

theorem lt_of_shouldEscape_eq_false {c : Char} (h : shouldEscape c = false) : c.toNat < 128 := by
  unfold shouldEscape at h
  rw [Bool.not_eq_false', Bool.or_eq_true, decide_eq_true_eq] at h
  rcases h with halnum | hmem
  · replace halnum :
      ((decide (65 ≤ c.val ∧ c.val ≤ 90) || (decide (97 ≤ c.val) && decide (c.val ≤ 122))) ||
        (decide (48 ≤ c.val) && decide (c.val ≤ 57))) := halnum
    simp only [Bool.or_eq_true, Bool.and_eq_true, decide_eq_true_eq] at halnum
    rcases halnum with (⟨-, hc⟩ | ⟨-, hc⟩) | ⟨-, hc⟩ <;>
      · have := UInt32.le_iff_toNat_le.mp hc
        simp at this
        omega
  · revert hmem
    simp only [List.mem_cons, List.not_mem_nil, or_false]
    rintro (rfl | rfl | rfl | rfl | rfl | rfl | rfl | rfl | rfl | rfl | rfl | rfl | rfl) <;> decide

theorem ascii_escape : ∀ c ∈ escape text, c.toNat < 128 := by
  intro c hc
  obtain ⟨d, -, hd⟩ := List.mem_flatMap.mp hc
  unfold escapeChar at hd
  split at hd
  · have hhi := upperHex_lt (d.toNat / 16 % 16) (Nat.mod_lt _ (by decide))
    have hlo := upperHex_lt (d.toNat % 16) (Nat.mod_lt _ (by decide))
    simp only [List.mem_cons, List.not_mem_nil, or_false] at hd
    rcases hd with rfl | rfl | rfl
    · decide
    · exact hhi
    · exact hlo
  · rename_i hplain
    rw [List.mem_singleton] at hd
    rw [hd]
    exact lt_of_shouldEscape_eq_false (Bool.eq_false_iff.mpr hplain)

theorem length_le_length_escape : text.length ≤ (escape text).length := by
  induction text with
  | nil => exact le_rfl
  | cons c text ih =>
    have hpos : 0 < (escapeChar c).length := by
      unfold escapeChar
      split <;> simp
    have hcons : escape (c :: text) = escapeChar c ++ escape text := rfl
    rw [hcons, List.length_append, List.length_cons]
    omega

/-- Text that has nothing to unescape is the path and what is matched. -/
theorem setPath_self {text : List Char} (h : unescape text = some text) :
    ∃ url, setPath text = some url ∧ url.path = text ∧ url.routePath = text := by
  refine ⟨_, by rw [setPath, h, Option.map_some], rfl, ?_⟩
  unfold UrlPath.routePath
  by_cases hescape : escape text = text
  · rw [if_pos hescape, if_pos rfl]
  · rw [if_neg hescape]
    split <;> rfl

theorem setPath_eq_some {text : List Char} {url : UrlPath} (h : setPath text = some url) :
    unescape text = some url.path ∧
      ((escape url.path = text ∧ url.routePath = url.path) ∨
        (escape url.path ≠ text ∧ url.routePath = text)) := by
  obtain ⟨path, hpath, rfl⟩ := Option.map_eq_some_iff.mp h
  refine ⟨hpath, ?_⟩
  unfold UrlPath.routePath
  by_cases hescape : escape path = text
  · exact .inl ⟨hescape, by simp [hescape]⟩
  refine .inr ⟨hescape, ?_⟩
  simp only [if_neg hescape]
  split
  · rename_i hnil
    subst hnil
    cases hpath
    rfl
  · rfl

end Moorgate.Framework
