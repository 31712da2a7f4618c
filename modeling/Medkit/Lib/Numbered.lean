import Mathlib

/-! Numbered rows. Rows are numbered in the order of insertion and carry a time
of their own; age is decided by the time, and among equal times by the number. -/
namespace Lib

variable {ρ : Type}

def Ascending (rows : List (Nat × ρ)) : Prop := rows.Pairwise fun a b => a.1 < b.1

namespace Ascending

theorem nil : Ascending ([] : List (Nat × ρ)) := List.Pairwise.nil

variable {rows : List (Nat × ρ)}

theorem filter (h : Ascending rows) (p : Nat × ρ → Bool) : Ascending (rows.filter p) :=
  List.Pairwise.filter p h

theorem snoc (h : Ascending rows) {row : Nat × ρ} (hlast : ∀ other ∈ rows, other.1 < row.1) :
    Ascending (rows ++ [row]) := by
  apply List.pairwise_append.mpr
  refine ⟨h, List.pairwise_singleton _ _, ?_⟩
  intro other hother last hmem
  rw [List.mem_singleton.mp hmem]
  exact hlast other hother

theorem le_of_mem_nil : ∀ row ∈ ([] : List (Nat × ρ)), row.1 ≤ 0 := by simp

end Ascending

/-! ## Age -/

def Older (time : ρ → Int) (a b : Nat × ρ) : Prop :=
  time a.2 < time b.2 ∨ time a.2 = time b.2 ∧ a.1 < b.1
deriving Decidable

def oldestFirst (time : ρ → Int) (rows : List (Nat × ρ)) : List (Nat × ρ) :=
  rows.insertionSort fun a b => ¬ Older time b a

def newestFirst (time : ρ → Int) (rows : List (Nat × ρ)) : List (Nat × ρ) :=
  rows.insertionSort fun a b => ¬ Older time a b

theorem oldestFirst_perm {time : ρ → Int} {rows : List (Nat × ρ)} :
    (oldestFirst time rows).Perm rows := List.perm_insertionSort _ rows

/-! ## Replacing or appending -/

/-- Replace the first row that `same` finds, keeping its number, or append under
a new one. -/
def upsertRow (same : ρ → Bool) (number : Nat) (row : ρ) : List (Nat × ρ) → List (Nat × ρ)
  | [] => [(number, row)]
  | other :: rows =>
      if same other.2 then (other.1, row) :: rows
      else other :: upsertRow same number row rows

section Upsert

variable {same : ρ → Bool} {number : Nat} {row : ρ} {rows : List (Nat × ρ)}

theorem mem_upsertRow {a : Nat × ρ} (h : a ∈ upsertRow same number row rows) :
    a ∈ rows ∨ a.2 = row ∧ ((∃ old ∈ rows, same old.2 ∧ old.1 = a.1) ∨
      a.1 = number ∧ ∀ old ∈ rows, ¬ same old.2) := by
  induction rows with
  | nil =>
    rw [List.mem_singleton.mp h]
    simp
  | cons other rows ih =>
    unfold upsertRow at h
    split at h
    · rename_i hsame
      rcases List.mem_cons.mp h with rfl | h
      · exact .inr ⟨rfl, .inl ⟨other, List.mem_cons_self, hsame, rfl⟩⟩
      · exact .inl (List.mem_cons_of_mem _ h)
    · rcases List.mem_cons.mp h with rfl | h
      · exact .inl List.mem_cons_self
      · have := ih h
        grind

theorem upsertRow_of_none (h : ∀ old ∈ rows, ¬ same old.2) :
    upsertRow same number row rows = rows ++ [(number, row)] := by
  induction rows with
  | nil => rfl
  | cons other rows ih =>
    unfold upsertRow
    rw [if_neg (h other List.mem_cons_self), ih fun old hold => h old (List.mem_cons_of_mem _ hold)]
    rfl

theorem map_number_upsertRow (number : Nat) (row : ρ) (h : ∃ old ∈ rows, same old.2) :
    (upsertRow same number row rows).map (·.1) = rows.map (·.1) := by
  induction rows with
  | nil => simp at h
  | cons other rows ih =>
    unfold upsertRow
    split
    · rfl
    · rename_i hsame
      have : ∃ old ∈ rows, same old.2 := by grind
      rw [List.map_cons, ih this, List.map_cons]

theorem Ascending.upsertRow (hrows : Ascending rows) (hnumber : ∀ old ∈ rows, old.1 < number) :
    Ascending (upsertRow same number row rows) := by
  by_cases h : ∃ old ∈ rows, same old.2
  · have hmap : (rows.map (·.1)).Pairwise (· < ·) := List.pairwise_map.mpr hrows
    rw [← map_number_upsertRow number row h] at hmap
    exact List.pairwise_map.mp hmap
  · push Not at h
    rw [upsertRow_of_none fun old hold => h old hold]
    exact hrows.snoc hnumber

end Upsert

/-! ## Rows with a counter -/

structure Numbered (ρ : Type) where
  rows : List (Nat × ρ) := []
  last : Nat := 0
  ascending : Ascending rows := by exact Lib.Ascending.nil
  le_last : ∀ row ∈ rows, row.1 ≤ last := by exact Lib.Ascending.le_of_mem_nil

namespace Numbered

/-- The counter moves only when a row is appended. -/
def upsert (s : Numbered ρ) (same : ρ → Bool) (row : ρ) : Numbered ρ where
  rows := upsertRow same (s.last + 1) row s.rows
  last := if s.rows.any fun old => same old.2 then s.last else s.last + 1
  ascending := s.ascending.upsertRow fun old hold => Nat.lt_succ_of_le (s.le_last old hold)
  le_last := by
    intro a ha
    rcases mem_upsertRow ha with hold | ⟨-, ⟨old, hold, -, hnumber⟩ | ⟨hnumber, hnone⟩⟩
    · have := s.le_last a hold
      split <;> omega
    · have := s.le_last old hold
      split <;> omega
    · rw [if_neg (by simpa using hnone)]
      omega

def remove (s : Numbered ρ) (drop : Nat × ρ → Bool) : Numbered ρ where
  rows := s.rows.filter fun row => !drop row
  last := s.last
  ascending := s.ascending.filter _
  le_last := fun row hrow => s.le_last row (List.mem_filter.mp hrow).1

end Numbered

end Lib
