import Mathlib

/-! Graphs in which every node has at most one successor. A walk from a node ends, runs
into nodes that are already settled, or closes a cycle; the last part of the walk is then
exactly the cycle. -/
namespace Lib

open Relation

variable {α : Type} {r : α → α → Prop}

def OnCycle (r : α → α → Prop) (x : α) : Prop := TransGen r x x

theorem OnCycle.mono {r' : α → α → Prop} (h : ∀ x y, r x y → r' x y) {x : α}
    (hx : OnCycle r x) : OnCycle r' x := TransGen.mono h _ _ hx

theorem mem_of_reaches {S : α → Prop} (hclosed : ∀ x y, S x → r x y → S y) {x y : α} (hx : S x)
    (h : ReflTransGen r x y) : S y := by
  induction h with
  | refl => exact hx
  | tail _ hstep ih => exact hclosed _ _ ih hstep

/-- From every node that a node of a cycle reaches there is a way back. -/
theorem OnCycle.back (hr : Relator.RightUnique r) {x y : α} (hx : OnCycle r x)
    (h : ReflTransGen r x y) : TransGen r y x := by
  induction h with
  | refl => exact hx
  | tail _ hstep ih =>
    obtain ⟨b, hb, hreach⟩ := TransGen.head'_iff.mp ih
    obtain rfl := hr hstep hb
    rcases ReflTransGen.cases_head hreach with rfl | ⟨c, hc, hreach'⟩
    · exact hx
    · exact TransGen.head' hc hreach'

theorem OnCycle.of_reaches (hr : Relator.RightUnique r) {x y : α} (hx : OnCycle r x)
    (h : ReflTransGen r x y) : OnCycle r y := (hx.back hr h).trans_left h

/-! ## Walks -/

theorem reaches_of_isChain {l : List α} {x y : α} (h : (x :: l).IsChain r) (hy : y ∈ x :: l) :
    ReflTransGen r x y := by
  induction l generalizing x with
  | nil =>
    obtain rfl := List.mem_singleton.mp hy
    exact .refl
  | cons a l ih =>
    rcases List.mem_cons.mp hy with rfl | hy
    · exact .refl
    · obtain ⟨hstep, hrest⟩ := List.isChain_cons_cons.mp h
      exact ReflTransGen.head hstep (ih hrest hy)

/-- The successor of a node of a walk is on the walk, unless the node is the last one. -/
theorem mem_of_isChain (hr : Relator.RightUnique r) {l : List α} {x y z : α}
    (h : (l ++ [z]).IsChain r) (hx : x ∈ l ++ [z]) (hstep : r x y) : x = z ∨ y ∈ l ++ [z] := by
  induction l with
  | nil => exact .inl (List.mem_singleton.mp hx)
  | cons a l ih =>
    cases l with
    | nil =>
      rcases List.mem_cons.mp hx with rfl | hx
      · have hnext : r x z := (List.isChain_cons_cons.mp h).1
        obtain rfl := hr hstep hnext
        exact .inr (by simp)
      · exact .inl (List.mem_singleton.mp hx)
    | cons b l =>
      obtain ⟨hnext, hrest⟩ := List.isChain_cons_cons.mp h
      rcases List.mem_cons.mp hx with rfl | hx
      · obtain rfl := hr hstep hnext
        exact .inr (by simp)
      · exact (ih hrest hx).imp_right (List.mem_cons_of_mem a)

/-- A walk that ends at a node without a successor, or runs into a closed set that it has
avoided so far, meets no cycle. -/
theorem not_onCycle_of_walk (hr : Relator.RightUnique r) {S : α → Prop}
    (hclosed : ∀ x y, S x → r x y → S y) {l : List α} {z : α} (hchain : (l ++ [z]).IsChain r)
    (havoid : ∀ x ∈ l ++ [z], ¬ S x) (hend : ∀ y, r z y → S y) {x : α} (hx : x ∈ l ++ [z]) :
    ¬ OnCycle r x := by
  intro hcycle
  obtain ⟨before, after, hl⟩ := List.append_of_mem hx
  have hafter : (x :: after).IsChain r := (List.isChain_append.mp (hl ▸ hchain)).2.1
  have hz : z ∈ x :: after := by
    have hlast : (before ++ x :: after).getLast? = some z := by rw [← hl]; simp
    rw [List.getLast?_append] at hlast
    have hsome : (x :: after).getLast? = some z := by
      simpa [List.getLast?_cons] using hlast
    exact List.mem_of_getLast? hsome
  obtain ⟨y, hy, hback⟩ := TransGen.head'_iff.mp (hcycle.back hr (reaches_of_isChain hafter hz))
  exact havoid x hx (mem_of_reaches hclosed (hend y hy) hback)

/-- If the last node of a walk leads back to the node `y` of the walk, the nodes from `y`
on form the only cycle that the walk meets. -/
theorem onCycle_iff_of_walk (hr : Relator.RightUnique r) {before after : List α} {y z : α}
    (hchain : (before ++ y :: after).IsChain r)
    (hlast : (y :: after).getLast? = some z) (hloop : r z y) {x : α}
    (hx : x ∈ before ++ y :: after) : OnCycle r x ↔ x ∈ y :: after := by
  have hcycle : (y :: after).IsChain r := (List.isChain_append.mp hchain).2.1
  have hz : z ∈ y :: after := List.mem_of_getLast? hlast
  have hy : OnCycle r y := TransGen.tail' (reaches_of_isChain hcycle hz) hloop
  constructor
  · intro hon
    by_contra hnot
    have hbefore : x ∈ before := (List.mem_append.mp hx).resolve_right hnot
    -- `x` reaches `y`, so `y` reaches `x`, but the nodes from `y` on are closed
    obtain ⟨l, hl⟩ : ∃ l, y :: after = l ++ [z] := by
      obtain ⟨l, hl⟩ := List.getLast?_eq_some_iff.mp hlast
      exact ⟨l, hl⟩
    have hclosed : ∀ a b, a ∈ y :: after → r a b → b ∈ y :: after := by
      intro a b ha hstep
      rw [hl] at hcycle ha ⊢
      rcases mem_of_isChain hr hcycle ha hstep with rfl | hb
      · rw [← hl, hr hstep hloop]
        exact List.mem_cons_self
      · exact hb
    obtain ⟨front, rest, rfl⟩ := List.append_of_mem hbefore
    have hwalk : (x :: (rest ++ y :: after)).IsChain r := by
      have := hchain
      rw [List.append_assoc] at this
      exact (List.isChain_append.mp this).2.1
    have hxy : ReflTransGen r x y := reaches_of_isChain hwalk (by simp)
    exact hnot (mem_of_reaches hclosed List.mem_cons_self (hon.back hr hxy).to_reflTransGen)
  · intro hmem
    exact hy.of_reaches hr (reaches_of_isChain hcycle hmem)

end Lib
