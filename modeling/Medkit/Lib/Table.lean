import Medkit.Lib.Numbered
import Medkit.Lib.OrderedMap

/-! Tables with an automatic integer key, as a relational store keeps them. Rows
are enumerated by key; an inserted row gets a key larger than any key used
before, so the enumeration is the order of insertion. -/
namespace Lib

open Std

structure Table (ρ : Type) where
  rows : OMap Nat ρ := ∅
  /-- the largest key ever handed out -/
  sequence : Nat := 0
  key_le : ∀ id row, rows[id]? = some row → id ≤ sequence := by exact Lib.OMap.le_of_empty

namespace Table

variable {ρ κ : Type}

def insert (t : Table ρ) (row : ρ) : Table ρ where
  rows := t.rows.insert (t.sequence + 1) row
  sequence := t.sequence + 1
  key_le := by
    intro id row' h
    rw [ExtTreeMap.getElem?_insert] at h
    split at h
    · rename_i heq
      exact (LawfulEqOrd.eq_of_compare heq).ge
    · exact Nat.le_succ_of_le (t.key_le id row' h)

/-- `INSERT … ON CONFLICT DO UPDATE`, where `same` finds the row in conflict. That
row keeps its key, and a key is used up all the same. -/
def upsert (t : Table ρ) (same : ρ → Bool) (row : ρ) : Table ρ :=
  match t.rows.toList.find? fun entry => same entry.2 with
  | some old =>
      { rows := t.rows.map fun id other => if id = old.1 then row else other
        sequence := t.sequence + 1
        key_le := by
          intro id row' h
          rw [ExtTreeMap.getElem?_map, Option.map_eq_some_iff] at h
          obtain ⟨other, hother, -⟩ := h
          exact Nat.le_succ_of_le (t.key_le id other hother) }
  | none => t.insert row

/-- `DELETE … WHERE drop`. -/
def delete (t : Table ρ) (drop : Nat → ρ → Bool) : Table ρ where
  rows := t.rows.keep fun id row => !drop id row
  sequence := t.sequence
  key_le := by
    intro id row h
    rw [OMap.getElem?_keep] at h
    exact t.key_le id row (Option.filter_eq_some_iff.mp h).1

/-- `SELECT … WHERE keep ORDER BY id`. -/
def select (t : Table ρ) (keep : ρ → Bool) : List (Nat × ρ) :=
  t.rows.toList.filter fun entry => keep entry.2

/-- `SELECT id … WHERE keep ORDER BY id DESC LIMIT n`. -/
def newestIds (t : Table ρ) (keep : ρ → Bool) (n : Nat) : List Nat :=
  ((t.select keep).reverse.take n).map (·.1)

def countMatching (t : Table ρ) (drop : Nat → ρ → Bool) : Nat :=
  (t.rows.toList.filter fun entry => drop entry.1 entry.2).length

/-- `ROW_NUMBER() OVER (PARTITION BY key ORDER BY id DESC)` of a row. -/
def rowNumber [DecidableEq κ] (t : Table ρ) (key : ρ → κ) (id : Nat) (row : ρ) : Nat :=
  (t.rows.toList.filter fun entry => key entry.2 = key row && id < entry.1).length + 1

theorem sorted_toList (t : Table ρ) : t.rows.toList.Pairwise (fun a b => a.1 < b.1) := by
  refine (ExtTreeMap.ordered_keys_toList (t := t.rows)).imp ?_
  intro a b h
  exact Nat.compare_eq_lt.mp h

theorem sorted_select (t : Table ρ) (keep : ρ → Bool) :
    (t.select keep).Pairwise (fun a b => a.1 < b.1) :=
  t.sorted_toList.filter _

theorem toList_insert (t : Table ρ) (row : ρ) :
    (t.insert row).rows.toList = t.rows.toList ++ [(t.sequence + 1, row)] := by
  refine OMap.toList_insert_of_lt row fun entry hentry => ?_
  have hle := t.key_le entry.1 entry.2 (ExtTreeMap.mem_toList_iff_getElem?_eq_some.mp hentry)
  exact Nat.compare_eq_lt.mpr (by omega)

theorem toList_delete (t : Table ρ) (drop : Nat → ρ → Bool) :
    (t.delete drop).rows.toList = t.rows.toList.filter fun entry => !drop entry.1 entry.2 := by
  unfold delete
  dsimp only
  rw [OMap.toList_keep]

theorem mem_of_mem_delete {t : Table ρ} {drop : Nat → ρ → Bool} {entry : Nat × ρ}
    (h : entry ∈ (t.delete drop).rows.toList) : entry ∈ t.rows.toList := by
  rw [toList_delete] at h
  exact (List.mem_filter.mp h).1

theorem select_insert (t : Table ρ) (row : ρ) (keep : ρ → Bool) : (t.insert row).select keep =
      t.select keep ++ if keep row then [(t.sequence + 1, row)] else [] := by
  unfold select
  rw [toList_insert, List.filter_append]
  by_cases h : keep row <;> simp [h]

theorem select_delete (t : Table ρ) (drop : Nat → ρ → Bool) (keep : ρ → Bool) :
    (t.delete drop).select keep = (t.select keep).filter fun entry => !drop entry.1 entry.2 := by
  unfold select
  rw [toList_delete, List.filter_filter, List.filter_filter]
  simp only [Bool.and_comm]

/-! ## Evicting all but the newest rows -/

section Eviction

variable {l : List (Nat × ρ)}

private theorem filter_newest (hl : l.Pairwise (fun a b => a.1 < b.1)) (n : Nat) :
    (l.filter fun entry => ((l.reverse.take n).map (·.1)).contains entry.1) =
      l.drop (l.length - n) := by
  have hnewest : l.reverse.take n = (l.drop (l.length - n)).reverse := by
    rw [List.take_reverse]
  generalize hk : l.length - n = k at *
  have hparts : l.take k ++ l.drop k = l := List.take_append_drop k l
  have hold : ∀ entry ∈ l.take k, ¬ ((l.reverse.take n).map (·.1)).contains entry.1 := by
    intro entry hentry hin
    rw [hnewest, List.contains_iff_mem, List.mem_map] at hin
    obtain ⟨other, hother, heq⟩ := hin
    rw [← hparts, List.pairwise_append] at hl
    have := hl.2.2 entry hentry other (List.mem_reverse.mp hother)
    omega
  have hnew : ∀ entry ∈ l.drop k, ((l.reverse.take n).map (·.1)).contains entry.1 := by
    intro entry hentry
    rw [hnewest, List.contains_iff_mem, List.mem_map]
    exact ⟨entry, List.mem_reverse.mpr hentry, rfl⟩
  conv_lhs => arg 2; rw [← hparts]
  rw [List.filter_append, List.filter_eq_nil_iff.mpr hold, List.filter_eq_self.mpr hnew,
    List.nil_append]

/-- Numbering from the newest row down, the rows numbered beyond `n` are the
oldest ones. -/
private theorem filter_rank (hl : l.Pairwise (fun a b => a.1 < b.1)) (n : Nat) :
    (l.filter fun entry => decide ((l.filter fun other => entry.1 < other.1).length + 1 ≤ n)) =
      l.drop (l.length - n) := by
  induction l with
  | nil => simp
  | cons a l ih =>
    obtain ⟨ha, hl⟩ := List.pairwise_cons.mp hl
    have hhead : ((a :: l).filter fun other => decide (a.1 < other.1)) = l := by
      rw [List.filter_cons_of_neg (by simp), List.filter_eq_self]
      simpa using fun id row h => ha (id, row) h
    have htail : ∀ entry ∈ l, ((a :: l).filter fun other => decide (entry.1 < other.1)) =
        l.filter fun other => decide (entry.1 < other.1) := by
      intro entry hentry
      have := ha entry hentry
      rw [List.filter_cons_of_neg (by simp; omega)]
    have hrest : (l.filter fun entry =>
          decide (((a :: l).filter fun other => entry.1 < other.1).length + 1 ≤ n)) =
        l.drop (l.length - n) := by
      rw [← ih hl]
      refine List.filter_congr fun entry hentry => ?_
      rw [htail entry hentry]
    rw [List.filter_cons, hhead, hrest]
    by_cases hn : l.length + 1 ≤ n
    · simp [hn, show l.length - n = 0 by omega, show l.length + 1 - n = 0 by omega]
    · simp [hn, show l.length + 1 - n = l.length - n + 1 by omega]

theorem select_delete_oldest (t : Table ρ) (keep : ρ → Bool) (n : Nat) :
    (t.delete fun id row => keep row && !(t.newestIds keep n).contains id).select keep =
      (t.select keep).drop ((t.select keep).length - n) := by
  rw [select_delete, ← filter_newest (t.sorted_select keep) n]
  refine List.filter_congr fun entry hentry => ?_
  have hkeep : keep entry.2 = true := by simpa using (List.mem_filter.mp hentry).2
  simp [hkeep, newestIds]

theorem select_delete_other (t : Table ρ) (keep : ρ → Bool) {other : ρ → Bool}
    {drop : Nat → ρ → Bool} (hdrop : ∀ id row, drop id row → keep row)
    (hother : ∀ row, other row → ¬ keep row) : (t.delete drop).select other = t.select other := by
  rw [select_delete, List.filter_eq_self]
  intro entry hentry
  have hrow : other entry.2 = true := by simpa using (List.mem_filter.mp hentry).2
  by_contra h
  exact hother entry.2 hrow (hdrop entry.1 entry.2 (by simpa using h))

variable [DecidableEq κ]

theorem rowNumber_eq (t : Table ρ) (key : ρ → κ) (id : Nat) (row : ρ) :
    t.rowNumber key id row =
      ((t.select fun other => key other = key row).filter fun entry => id < entry.1).length + 1 := by
  unfold rowNumber select
  rw [List.filter_filter]
  simp only [Bool.and_comm]

theorem select_delete_rowNumber (t : Table ρ) (key : ρ → κ) (n : Nat) (k : κ) :
    (t.delete fun id row => decide (t.rowNumber key id row > n)).select (fun row => key row = k) =
      (t.select fun row => key row = k).drop ((t.select fun row => key row = k).length - n) := by
  rw [select_delete, ← filter_rank (t.sorted_select _) n]
  refine List.filter_congr fun entry hentry => ?_
  have hkey : key entry.2 = k := by simpa using (List.mem_filter.mp hentry).2
  rw [rowNumber_eq, hkey, ← decide_not, decide_eq_decide]
  omega

private theorem length_eq_sum_groups {α : Type} (f : α → κ) {keys : List κ} (hnodup : keys.Nodup)
    (l : List α) (hcover : ∀ a ∈ l, f a ∈ keys) :
    l.length = (keys.map fun k => (l.filter fun a => f a = k).length).sum := by
  induction l with
  | nil => simp
  | cons a l ih =>
    have hone : (keys.map fun k => if f a = k then 1 else 0).sum = 1 := by
      rw [← List.sum_toFinset _ hnodup]
      simp [hcover a (by simp)]
    have hsplit (k : κ) : ((a :: l).filter fun a => f a = k).length =
        (l.filter fun a => f a = k).length + if f a = k then 1 else 0 := by
      by_cases h : f a = k <;> simp [h]
    simp only [hsplit, List.sum_map_add, hone, List.length_cons]
    rw [← ih fun b hb => hcover b (List.mem_cons_of_mem a hb)]

theorem countMatching_eq_sum (t : Table ρ) (drop : Nat → ρ → Bool) (key : ρ → κ) {keys : List κ}
    (hnodup : keys.Nodup) (hcover : ∀ entry ∈ t.rows.toList, key entry.2 ∈ keys) :
    t.countMatching drop = (keys.map fun k =>
      (t.select fun row => key row = k).length -
        ((t.delete drop).select fun row => key row = k).length).sum := by
  unfold countMatching
  rw [length_eq_sum_groups (fun entry => key entry.2) hnodup _
    fun entry hentry => hcover entry (List.mem_filter.mp hentry).1]
  refine congrArg List.sum (List.map_congr_left fun k _ => ?_)
  have htotal := List.length_eq_length_filter_add (l := t.select fun row => key row = k)
    (fun entry => drop entry.1 entry.2)
  rw [select_delete]
  have hswap : ((t.rows.toList.filter fun entry => drop entry.1 entry.2).filter
        fun entry => key entry.2 = k) =
      (t.select fun row => key row = k).filter fun entry => drop entry.1 entry.2 := by
    unfold select
    rw [List.filter_filter, List.filter_filter]
    simp only [Bool.and_comm]
  rw [hswap]
  omega

end Eviction

end Table

end Lib
