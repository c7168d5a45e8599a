import Mathlib.Data.List.Nodup
import Mathlib.Tactic

/-!
# Tables with a primary key

A table is a list of rows no two of which share their key. The operations are the four statements a
program issues: `select`, `update … where`, `insert`, which is refused when the key is taken, and
`delete … where`. An update carries the proof that it leaves the key column alone. Proofs about a
program use the `lookup_…` and `mem_…` lemmas and never look at the list.
-/

namespace Moorgate.Framework

structure Table {ρ κ : Type*} (key : ρ → κ) where
  rows : List ρ
  nodup : (rows.map key).Nodup

namespace Table

variable {ρ κ : Type*} {key : ρ → κ}

def empty : Table key := ⟨[], List.nodup_nil⟩

def single (r : ρ) : Table key := ⟨[r], List.nodup_singleton _⟩

variable {r : ρ}

@[simp] theorem not_mem_empty : r ∉ (empty : Table key).rows := List.not_mem_nil

def select (t : Table key) (p : ρ → Bool) : List ρ := t.rows.filter p

/-- Applies `f` to the rows that satisfy a condition. -/
def update (t : Table key) (p : ρ → Bool) (f : ρ → ρ) (hf : ∀ r, key (f r) = key r) :
    Table key where
  rows := t.rows.map fun r => if p r then f r else r
  nodup := by
    have hkeys : key ∘ (fun r => if p r then f r else r) = key := by
      funext r
      by_cases hp : p r <;> simp [hp, hf]
    rw [List.map_map, hkeys]
    exact t.nodup

def delete (t : Table key) (p : ρ → Bool) : Table key where
  rows := t.rows.filter fun r => !p r
  nodup := t.nodup.sublist (List.filter_sublist.map key)

variable {t : Table key} {p : ρ → Bool}

@[simp] theorem mem_select : r ∈ t.select p ↔ r ∈ t.rows ∧ p r := List.mem_filter

variable {f : ρ → ρ}

@[simp] theorem mem_update {hf : ∀ r, key (f r) = key r} :
    r ∈ (t.update p f hf).rows ↔ ∃ q ∈ t.rows, (if p q then f q else q) = r :=
  List.mem_map

theorem mem_update_cases {hf : ∀ r, key (f r) = key r} (h : r ∈ (t.update p f hf).rows) :
    (r ∈ t.rows ∧ p r = false) ∨ ∃ q ∈ t.rows, p q ∧ f q = r := by
  obtain ⟨q, hq, rfl⟩ := mem_update.mp h
  by_cases hp : p q
  · exact .inr ⟨q, hq, hp, (if_pos hp).symm⟩
  · rw [if_neg hp]
    exact .inl ⟨hq, Bool.eq_false_iff.mpr hp⟩

theorem mem_update_of_neg {hf : ∀ r, key (f r) = key r} (hr : r ∈ t.rows) (hp : p r = false) :
    r ∈ (t.update p f hf).rows :=
  mem_update.mpr ⟨r, hr, if_neg (Bool.eq_false_iff.mp hp)⟩

theorem mem_update_of_pos {hf : ∀ r, key (f r) = key r} (hr : r ∈ t.rows) (hp : p r) :
    f r ∈ (t.update p f hf).rows :=
  mem_update.mpr ⟨r, hr, if_pos hp⟩

@[simp] theorem mem_delete : r ∈ (t.delete p).rows ↔ r ∈ t.rows ∧ p r = false := by
  unfold delete
  simp

theorem map_key_update (t : Table key) (p : ρ → Bool) (f : ρ → ρ) (hf : ∀ r, key (f r) = key r) :
    (t.update p f hf).rows.map key = t.rows.map key := by
  unfold update
  rw [List.map_map]
  refine List.map_congr_left fun r _ => ?_
  show key (if p r then f r else r) = key r
  split
  · exact hf r
  · rfl

variable {q : ρ}

theorem eq_of_key (hr : r ∈ t.rows) (hq : q ∈ t.rows) (h : key r = key q) : r = q :=
  List.inj_on_of_nodup_map t.nodup hr hq h

variable [DecidableEq κ]

/-- The row with a given key. -/
def lookup (t : Table key) (k : κ) : Option ρ := t.rows.find? fun r => key r = k

/-- Refused when a row with the new row's key is there. -/
def insert (t : Table key) (r : ρ) : Option (Table key) :=
  if h : key r ∈ t.rows.map key then none
  else some ⟨t.rows ++ [r], by
    rw [List.map_append]
    refine t.nodup.append (List.nodup_singleton _) ?_
    intro k hk hr
    rw [List.map_singleton, List.mem_singleton] at hr
    exact h (hr ▸ hk)⟩

theorem lookup_eq_some {k : κ} : t.lookup k = some r ↔ r ∈ t.rows ∧ key r = k := by
  constructor
  · intro h
    exact ⟨List.mem_of_find?_eq_some h, by simpa using List.find?_some h⟩
  · rintro ⟨hr, rfl⟩
    unfold lookup
    cases hfind : t.rows.find? fun q => key q = key r with
    | none => simpa using List.find?_eq_none.mp hfind r hr
    | some q =>
      have hq : key q = key r := by simpa using List.find?_some hfind
      rw [eq_of_key (List.mem_of_find?_eq_some hfind) hr hq]

theorem lookup_eq_none {k : κ} : t.lookup k = none ↔ ∀ r ∈ t.rows, key r ≠ k := by
  unfold lookup
  simp

@[simp] theorem lookup_update (t : Table key) (p : ρ → Bool) (f : ρ → ρ)
    (hf : ∀ r, key (f r) = key r) (k : κ) :
    (t.update p f hf).lookup k = (t.lookup k).map fun r => if p r then f r else r := by
  cases h : t.lookup k with
  | none =>
    rw [Option.map_none, lookup_eq_none]
    intro r hr
    obtain ⟨q, hq, rfl⟩ := mem_update.mp hr
    have hne := lookup_eq_none.mp h q hq
    by_cases hp : p q <;> simpa [hp, hf] using hne
  | some r =>
    obtain ⟨hr, rfl⟩ := lookup_eq_some.mp h
    rw [Option.map_some, lookup_eq_some]
    refine ⟨mem_update.mpr ⟨r, hr, rfl⟩, ?_⟩
    by_cases hp : p r <;> simp [hp, hf]

variable {t' : Table key}

theorem rows_insert (h : t.insert r = some t') : t'.rows = t.rows ++ [r] := by
  unfold insert at h
  split at h
  · cases h
  · cases h
    rfl

theorem mem_insert (h : t.insert r = some t') : q ∈ t'.rows ↔ q ∈ t.rows ∨ q = r := by
  rw [rows_insert h, List.mem_append, List.mem_singleton]

theorem forall_insert {P : ρ → Prop} (h : t.insert r = some t') (hold : ∀ q ∈ t.rows, P q)
    (hr : P r) : ∀ q ∈ t'.rows, P q := by
  intro q hq
  rcases (mem_insert h).mp hq with hq | rfl
  · exact hold q hq
  · exact hr

theorem key_ne_of_insert (h : t.insert r = some t') (hq : q ∈ t.rows) : key q ≠ key r := by
  unfold insert at h
  split at h
  · cases h
  · rename_i hnot
    intro hkey
    exact hnot (List.mem_map.mpr ⟨q, hq, hkey⟩)

theorem insert_eq_none (h : t.insert r = none) : ∃ q ∈ t.rows, key q = key r := by
  unfold insert at h
  split at h
  · next hmem => exact List.mem_map.mp hmem
  · cases h

/-- Puts a row in the place of the one with its key, if there is one. -/
def upsert (t : Table key) (r : ρ) : Table key where
  rows := (t.rows.filter fun q => decide (key q ≠ key r)) ++ [r]
  nodup := by
    rw [List.map_append]
    refine (t.nodup.sublist (List.filter_sublist.map key)).append (List.nodup_singleton _) ?_
    intro k hk hr
    obtain ⟨q, hq, rfl⟩ := List.mem_map.mp hk
    rw [List.map_singleton, List.mem_singleton] at hr
    simp [hr] at hq

@[simp] theorem mem_upsert : q ∈ (t.upsert r).rows ↔ (q ∈ t.rows ∧ key q ≠ key r) ∨ q = r := by
  unfold upsert
  simp

@[simp] theorem lookup_upsert (t : Table key) (r : ρ) (k : κ) :
    (t.upsert r).lookup k = if key r = k then some r else t.lookup k := by
  by_cases hk : key r = k
  · rw [if_pos hk, lookup_eq_some]
    exact ⟨mem_upsert.mpr (.inr rfl), hk⟩
  · rw [if_neg hk]
    cases h : t.lookup k with
    | none =>
      rw [lookup_eq_none] at h ⊢
      intro q hq
      rcases mem_upsert.mp hq with ⟨hq, -⟩ | rfl
      · exact h q hq
      · exact hk
    | some q =>
      obtain ⟨hq, rfl⟩ := lookup_eq_some.mp h
      exact lookup_eq_some.mpr ⟨mem_upsert.mpr (.inl ⟨hq, Ne.symm hk⟩), rfl⟩

/-- `insert … on conflict do nothing`. -/
def insertNew (t : Table key) (r : ρ) : Table key := (t.insert r).getD t

theorem mem_insertNew_of_mem (h : q ∈ t.rows) : q ∈ (t.insertNew r).rows := by
  unfold insertNew
  cases hins : t.insert r with
  | none => exact h
  | some t' => exact (mem_insert hins).mpr (.inl h)

theorem mem_insertNew (h : q ∈ (t.insertNew r).rows) : q ∈ t.rows ∨ q = r := by
  unfold insertNew at h
  cases hins : t.insert r with
  | none =>
    rw [hins] at h
    exact .inl h
  | some t' =>
    rw [hins] at h
    exact (mem_insert hins).mp h

/-- Afterwards there is a row with the key, the new one or one that was there. -/
theorem exists_key_insertNew (t : Table key) (r : ρ) :
    ∃ q ∈ (t.insertNew r).rows, key q = key r := by
  unfold insertNew
  cases hins : t.insert r with
  | none => exact insert_eq_none hins
  | some t' => exact ⟨r, (mem_insert hins).mpr (.inr rfl), rfl⟩

@[simp] theorem lookup_insertNew (t : Table key) (r : ρ) (k : κ) :
    (t.insertNew r).lookup k = if key r = k ∧ t.lookup k = none then some r else t.lookup k := by
  cases h : t.lookup k with
  | some q =>
    rw [if_neg (by simp), lookup_eq_some]
    obtain ⟨hq, hkey⟩ := lookup_eq_some.mp h
    exact ⟨mem_insertNew_of_mem hq, hkey⟩
  | none =>
    have hnew := lookup_eq_none.mp h
    by_cases hk : key r = k
    · rw [if_pos ⟨hk, rfl⟩, lookup_eq_some]
      obtain ⟨q, hq, hkey⟩ := exists_key_insertNew t r
      rcases mem_insertNew hq with hold | rfl
      · exact absurd (hkey.trans hk) (hnew q hold)
      · exact ⟨hq, hk⟩
    · rw [if_neg fun hand => hk hand.1, lookup_eq_none]
      intro q hq
      rcases mem_insertNew hq with hold | rfl
      · exact hnew q hold
      · exact hk

@[simp] theorem lookup_delete (t : Table key) (p : ρ → Bool) (k : κ) :
    (t.delete p).lookup k = (t.lookup k).filter fun r => !p r := by
  cases h : t.lookup k with
  | none =>
    rw [Option.filter_none, lookup_eq_none]
    intro r hr
    exact lookup_eq_none.mp h r (mem_delete.mp hr).1
  | some r =>
    obtain ⟨hr, rfl⟩ := lookup_eq_some.mp h
    rw [Option.filter_some]
    split
    · next hp => exact lookup_eq_some.mpr ⟨mem_delete.mpr ⟨hr, by simpa using hp⟩, rfl⟩
    rename_i hp
    rw [lookup_eq_none]
    intro q hq hkey
    obtain ⟨hmem, hq⟩ := mem_delete.mp hq
    rw [eq_of_key hmem hr hkey] at hq
    simp [hq] at hp

end Table

/-! ## Text that stands for a missing value -/

def nullIf (s : String) : Option String := if s = "" then none else some s

/-- `NULLIF(s, '')::type`; the outer `none` is a failed cast. -/
def castOrNull {α : Type*} (cast : String → Option α) (s : String) : Option (Option α) :=
  match nullIf s with
  | none => some none
  | some text => (cast text).map some

end Moorgate.Framework
