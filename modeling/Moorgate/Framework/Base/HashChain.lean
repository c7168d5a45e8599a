import Mathlib.Data.List.Basic
import Mathlib.Data.List.Infix
import Mathlib.Tactic

/-!
# Linked records

A list of records, each carrying a tag, such that record `n + 1` is acceptable to the tag of record
`n` (`ok tag record`) and the first one to a fixed root. Extending a chain at its tip keeps it
linked, and so does cutting it back to a prefix. Cutting anywhere else is where chains break.
-/

namespace Moorgate.Framework

variable {ρ τ : Type*}

/-- The records are linked from the tag `p` on. -/
def Linked (ok : τ → ρ → Prop) (tag : ρ → τ) : τ → List ρ → Prop
  | _, [] => True
  | p, r :: rs => ok p r ∧ Linked ok tag (tag r) rs

def tip (tag : ρ → τ) (p : τ) (rs : List ρ) : τ := (rs.getLast?.map tag).getD p

variable {ok : τ → ρ → Prop} {tag : ρ → τ} {p : τ} {r : ρ} {rs xs ys : List ρ}

@[simp] theorem tip_cons : tip tag p (r :: rs) = tip tag (tag r) rs := by
  cases rs with
  | nil => rfl
  | cons y ys => simp [tip, List.getLast?_cons]

@[simp] theorem linked_nil : Linked ok tag p [] := trivial

@[simp] theorem linked_cons : Linked ok tag p (r :: rs) ↔ ok p r ∧ Linked ok tag (tag r) rs :=
  Iff.rfl

@[simp] theorem linked_append :
    Linked ok tag p (xs ++ ys) ↔ Linked ok tag p xs ∧ Linked ok tag (tip tag p xs) ys := by
  induction xs generalizing p with
  | nil => exact (iff_of_eq (true_and _)).symm
  | cons x xs ih => simp [ih, and_assoc]

theorem Linked.snoc (h : Linked ok tag p rs) (hr : ok (tip tag p rs) r) :
    Linked ok tag p (rs ++ [r]) :=
  linked_append.mpr ⟨h, hr, trivial⟩

theorem Linked.of_prefix (h : Linked ok tag p ys) (hxs : xs <+: ys) : Linked ok tag p xs := by
  obtain ⟨zs, rfl⟩ := hxs
  exact (linked_append.mp h).1

/-! ## Chains whose tags determine their predecessors

When an acceptable record names its predecessor (`prev`), and equal tags come
from equal predecessors, a chain that never returns to its root repeats no
tag. Then every record has one place only, and a cut that is not at the end
shows. -/

section

variable {prev : ρ → τ} (hprev : ∀ q r, ok q r → prev r = q)
include hprev

/-- The predecessors are the tags, shifted by one. -/
theorem Linked.map_prev (h : Linked ok tag p rs) :
    rs.map prev ++ [tip tag p rs] = p :: rs.map tag := by
  induction rs generalizing p with
  | nil => rfl
  | cons r rs ih =>
    have := ih h.2
    simp [hprev _ _ h.1, this]

theorem Linked.nodup_tags (h : Linked ok tag p rs)
    (hinj : ∀ r ∈ rs, ∀ r' ∈ rs, tag r = tag r' → prev r = prev r')
    (hroot : ∀ r ∈ rs, tag r ≠ p) : (p :: rs.map tag).Nodup := by
  induction rs using List.reverseRecOn with
  | nil => simp
  | append_singleton rs r ih =>
    obtain ⟨hrs, hr, -⟩ := linked_append.mp h
    have hnd := ih hrs (fun a ha b hb => hinj a (by simp [ha]) b (by simp [hb]))
        (fun a ha => hroot a (by simp [ha]))
    -- the new tag is not an old one: its predecessor is the tip, and no old record's is
    have hfresh : tag r ∉ rs.map tag := by
      intro hmem
      obtain ⟨a, ha, hta⟩ := List.mem_map.mp hmem
      have hpa : prev a = prev r := hinj a (by simp [ha]) r (by simp) hta
      rw [hprev _ _ hr] at hpa
      rw [← hrs.map_prev hprev, List.nodup_append] at hnd
      exact hnd.2.2 _ (List.mem_map_of_mem ha) _ (List.mem_singleton.mpr rfl) hpa
    have hne : tag r ≠ p := hroot r (by simp)
    rw [List.map_append, ← List.cons_append, List.nodup_append]
    refine ⟨hnd, by simp, ?_⟩
    rintro t ht u hu rfl
    obtain rfl : t = tag r := by simpa using hu
    rcases List.mem_cons.mp ht with ht | ht
    · exact hne ht
    · exact hfresh ht

theorem Linked.nodup_prevs (h : Linked ok tag p rs) (hnd : (p :: rs.map tag).Nodup) :
    (rs.map prev).Nodup := by
  rw [← h.map_prev hprev] at hnd
  exact (List.nodup_append.mp hnd).1

/-- The record that names the tip of an initial part is the one that follows
it. -/
theorem Linked.head_eq (h : Linked ok tag p (xs ++ ys)) (hnd : (p :: (xs ++ ys).map tag).Nodup)
    (hr : r ∈ xs ++ ys) (htip : prev r = tip tag p xs) : ys.head? = some r := by
  have hprevs := h.nodup_prevs hprev hnd
  obtain ⟨hxs, hys⟩ := linked_append.mp h
  cases ys with
  | nil =>
    rw [List.append_nil] at hr hnd
    rw [← hxs.map_prev hprev, List.nodup_append] at hnd
    exact absurd htip (hnd.2.2 _ (List.mem_map_of_mem hr) _ (List.mem_singleton.mpr rfl))
  | cons y ys =>
    have hy : prev y = tip tag p xs := hprev _ _ hys.1
    have : r = y := List.inj_on_of_nodup_map hprevs hr (by simp) (htip.trans hy.symm)
    rw [this]
    rfl

end

end Moorgate.Framework
