import Mathlib

/-! The edit distance of two lists: the least number of insertions, deletions and substitutions that
make one of the other. Rows of the table of distances between prefixes follow from one another. -/
namespace Lib

variable {α : Type} {m n : Nat} {a b c d : List α} {x y : α}

/-- The second list is made of the first by this many edits, from left to right. -/
inductive Edits : Nat → List α → List α → Prop
  | nil : Edits 0 [] []
  | keep (x : α) {n : Nat} {a b : List α} : Edits n a b → Edits n (x :: a) (x :: b)
  | substitute (x y : α) {n : Nat} {a b : List α} : Edits n a b → Edits (n + 1) (x :: a) (y :: b)
  | insert (y : α) {n : Nat} {a b : List α} : Edits n a b → Edits (n + 1) a (y :: b)
  | delete (x : α) {n : Nat} {a b : List α} : Edits n a b → Edits (n + 1) (x :: a) b

namespace Edits

theorem append (h : Edits m a b) (h' : Edits n c d) : Edits (m + n) (a ++ c) (b ++ d) := by
  induction h with
  | nil => simpa using h'
  | keep x _ ih => exact ih.keep x
  | substitute x y _ ih => exact Nat.succ_add _ _ ▸ ih.substitute x y
  | insert y _ ih => exact Nat.succ_add _ _ ▸ ih.insert y
  | delete x _ ih => exact Nat.succ_add _ _ ▸ ih.delete x

theorem reverse (h : Edits n a b) : Edits n a.reverse b.reverse := by
  induction h with
  | nil => exact .nil
  | keep x _ ih => simpa using ih.append (nil.keep x)
  | substitute x y _ ih => simpa using ih.append (nil.substitute x y)
  | insert y _ ih => simpa using ih.append (nil.insert y)
  | delete x _ ih => simpa using ih.append (nil.delete x)

theorem symm (h : Edits n a b) : Edits n b a := by
  induction h with
  | nil => exact .nil
  | keep x _ ih => exact ih.keep x
  | substitute x y _ ih => exact ih.substitute y x
  | insert y _ ih => exact ih.delete y
  | delete x _ ih => exact ih.insert x

theorem eq_of_zero (h : Edits 0 a b) : a = b := by
  generalize hn : 0 = n at h
  induction h with
  | nil => rfl
  | keep x _ ih => rw [ih hn]
  | substitute | insert | delete => cases hn

end Edits

def EditDistance (a b : List α) (n : Nat) : Prop := IsLeast {n | Edits n a b} n

namespace EditDistance

theorem nil_left (b : List α) : EditDistance [] b b.length := by
  induction b with
  | nil => exact ⟨.nil, fun _ _ => Nat.zero_le _⟩
  | cons y b ih =>
    refine ⟨ih.1.insert y, fun n h => ?_⟩
    cases h with
    | insert _ h => exact Nat.succ_le_succ (ih.2 h)

theorem symm (h : EditDistance a b n) : EditDistance b a n :=
  ⟨h.1.symm, fun _ h' => h.2 (Edits.symm h')⟩

theorem nil_right (a : List α) : EditDistance a [] a.length := (nil_left a).symm

theorem of_reverse (h : EditDistance a.reverse b.reverse n) : EditDistance a b n := by
  refine ⟨?_, fun m h' => h.2 (Edits.reverse h')⟩
  simpa using Edits.reverse h.1

theorem cons_cons [DecidableEq α] {up left diagonal : Nat} (hup : EditDistance a (y :: b) up)
    (hleft : EditDistance (x :: a) b left) (hdiagonal : EditDistance a b diagonal) :
    EditDistance (x :: a) (y :: b)
      (min (up + 1) (min (left + 1) (diagonal + if x = y then 0 else 1))) := by
  constructor
  · have hsub : Edits (diagonal + if x = y then 0 else 1) (x :: a) (y :: b) := by
      split
      · next heq => exact heq ▸ Edits.keep x hdiagonal.1
      · exact Edits.substitute x y hdiagonal.1
    rcases min_choice (up + 1) (min (left + 1) (diagonal + if x = y then 0 else 1)) with h | h
    · rw [h]
      exact Edits.delete x hup.1
    · rw [h]
      rcases min_choice (left + 1) (diagonal + if x = y then 0 else 1) with h | h
      · rw [h]
        exact Edits.insert y hleft.1
      · rw [h]
        exact hsub
  · intro n h
    cases h with
    | keep _ h =>
      have := hdiagonal.2 h
      simp
      omega
    | substitute _ _ h =>
      have := hdiagonal.2 h
      split <;> omega
    | insert _ h =>
      have := hleft.2 h
      omega
    | delete _ h =>
      have := hup.2 h
      omega

end EditDistance

/-- The distances of a list to the lists that arise by putting the given elements, one after the
other, in front of another one. -/
inductive DistanceRow (a : List α) : List α → List α → List Nat → Prop
  | last {b : List α} {n : Nat} : EditDistance a b n → DistanceRow a b [] [n]
  | cell {b ys : List α} {y : α} {n : Nat} {row : List Nat} : EditDistance a b n →
      DistanceRow a (y :: b) ys row → DistanceRow a b (y :: ys) (n :: row)

namespace DistanceRow

variable {ys : List α} {row : List Nat}

theorem first (h : DistanceRow a b ys (n :: row)) : EditDistance a b n := by
  cases h with
  | last h => exact h
  | cell h _ => exact h

theorem getLast (h : DistanceRow a b ys row) :
    EditDistance a (ys.reverse ++ b) (row.getLastD 0) := by
  induction h with
  | last h => exact h
  | @cell b ys y n row _ hrest ih =>
    have hlast : (n :: row).getLastD 0 = row.getLastD 0 := by
      cases hrest <;> rfl
    rw [hlast, List.reverse_cons, List.append_assoc]
    exact ih

theorem nil_left (b ys : List α) :
    DistanceRow [] b ys (List.range' b.length (ys.length + 1)) := by
  induction ys generalizing b with
  | nil => exact .last (EditDistance.nil_left b)
  | cons y ys ih => exact .cell (EditDistance.nil_left b) (ih (y :: b))

end DistanceRow

end Lib
