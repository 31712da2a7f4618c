import Medkit.Lib.Explored
import Medkit.Lib.OrderedMap

/-! Closures computed with a worklist: a stack of items to visit and the set of those visited. -/
namespace Lib

open Relation

variable {ρ σ : Type} [Ord ρ] [Std.TransOrd ρ]

/-- A turn visits an item, which changes the result, and finds other items; the last one found is
visited first. -/
def worklist (turn : ρ → σ → σ × List ρ) : Nat → List ρ → OSet ρ → σ → Option σ
  | 0, _, _, _ => none
  | _ + 1, [], _, acc => some acc
  | fuel + 1, item :: frontier, seen, acc =>
      if item ∈ seen then worklist turn fuel frontier seen acc
      else worklist turn fuel ((turn item acc).2.reverse ++ frontier) (seen.insert item)
        (turn item acc).1

variable [Std.LawfulEqOrd ρ] {turn : ρ → σ → σ × List ρ} {expand : ρ → List ρ}

/-- What the items of a finite set that have not been seen can still add to the frontier. -/
def pendingItems (expand : ρ → List ρ) (items : Finset ρ) (seen : OSet ρ) : Nat :=
  ∑ item ∈ items with item ∉ seen, (expand item).length

theorem pendingItems_insert {items : Finset ρ} {seen : OSet ρ} {item : ρ} (hnew : item ∉ seen)
    (hitems : expand item ≠ [] → item ∈ items) :
    pendingItems expand items (seen.insert item) + (expand item).length =
      pendingItems expand items seen := by
  classical
  have hfilter : (items.filter fun other => other ∉ seen.insert item) =
      (items.filter fun other => other ∉ seen).erase item := by
    ext other
    simp only [Finset.mem_filter, Finset.mem_erase, OSet.mem_insert_iff]
    grind
  rw [pendingItems, hfilter, pendingItems]
  by_cases hmem : item ∈ items
  · exact Finset.sum_erase_add _ _ (Finset.mem_filter.mpr ⟨hmem, hnew⟩)
  · have hempty : (expand item).length = 0 := by
      rw [List.length_eq_zero_iff]
      exact not_not.mp fun hne => hmem (hitems hne)
    rw [hempty, Finset.erase_eq_of_notMem (fun h => hmem (Finset.mem_filter.mp h).1), Nat.add_zero]

theorem worklist_explores (hexpand : ∀ item acc, (turn item acc).2 = expand item)
    {items : Finset ρ} (hitems : ∀ item, expand item ≠ [] → item ∈ items) (roots : Set ρ)
    (fuel : Nat) (frontier : List ρ) (seen : OSet ρ) (acc : σ)
    (hfuel : frontier.length + pendingItems expand items seen < fuel)
    (hroots : ∀ item ∈ frontier, Reached (fun a b => b ∈ expand a) roots item) :
    ∃ order : List ρ,
      worklist turn fuel frontier seen acc =
        some (order.foldl (fun acc item => (turn item acc).1) acc) ∧
      Explored (fun a b => b ∈ expand a) roots {item | item ∈ seen}
        {item | item ∈ seen ∨ item ∈ order} ∧
      ∀ item ∈ frontier, item ∈ seen ∨ item ∈ order := by
  induction fuel generalizing frontier seen acc with
  | zero => omega
  | succ fuel ih =>
    cases frontier with
    | nil =>
      refine ⟨[], rfl, ?_, fun _ h => absurd h List.not_mem_nil⟩
      simp only [List.not_mem_nil, or_false]
      exact .refl _
    | cons item frontier =>
      obtain ⟨hitem, hroots⟩ := List.forall_mem_cons.mp hroots
      rw [List.length_cons] at hfuel
      by_cases hseen : item ∈ seen
      · obtain ⟨order, hrun, hexplored, hmem⟩ := ih frontier seen acc (by omega) hroots
        refine ⟨order, by rw [worklist, if_pos hseen, hrun], hexplored, ?_⟩
        exact List.forall_mem_cons.mpr ⟨.inl hseen, hmem⟩
      · have hpending := pendingItems_insert hseen (hitems item)
        obtain ⟨order, hrun, hexplored, hmem⟩ := ih ((expand item).reverse ++ frontier)
          (seen.insert item) (turn item acc).1
          (by rw [List.length_append, List.length_reverse]; omega) (by
            intro other hother
            rcases List.mem_append.mp hother with hfound | hother
            · exact hitem.tail (List.mem_reverse.mp hfound)
            · exact hroots other hother)
        have hset : {other | other ∈ seen.insert item ∨ other ∈ order} =
            {other | other ∈ seen ∨ other ∈ item :: order} := by
          ext other
          simp only [Set.mem_ofPred_eq, OSet.mem_insert_iff, List.mem_cons, or_assoc,
            or_left_comm]
        have hmem' : ∀ other ∈ (expand item).reverse ++ frontier,
            other ∈ {other | other ∈ seen ∨ other ∈ item :: order} := fun other hother =>
          hset ▸ hmem other hother
        refine ⟨item :: order, ?_, ?_, List.forall_mem_cons.mpr ⟨.inr List.mem_cons_self, ?_⟩⟩
        · rw [worklist, if_neg hseen, hexpand, hrun, List.foldl_cons]
        · rw [hset] at hexplored
          refine Explored.of_insert (n := item) ?_ hitem fun other hother =>
            hmem' other (List.mem_append_left _ (List.mem_reverse.mpr hother))
          convert hexplored using 1
          ext other
          simp only [Set.mem_insert_iff, Set.mem_ofPred_eq, OSet.mem_insert_iff]
        · exact fun other hother => hmem' other (List.mem_append_right _ hother)

/-- If only finitely many items lead to others, a worklist with enough fuel visits exactly the items
that those it starts from reach. -/
theorem worklist_spec (hexpand : ∀ item acc, (turn item acc).2 = expand item)
    (hfinite : {item | expand item ≠ []}.Finite) (frontier : List ρ) (acc : σ) :
    ∃ bound, ∀ fuel, bound ≤ fuel → ∃ order : List ρ,
      worklist turn fuel frontier ∅ acc =
        some (order.foldl (fun acc item => (turn item acc).1) acc) ∧
      ∀ item, item ∈ order ↔ Reached (fun a b => b ∈ expand a) {root | root ∈ frontier} item := by
  refine ⟨frontier.length + pendingItems expand hfinite.toFinset ∅ + 1, fun fuel hfuel => ?_⟩
  obtain ⟨order, hrun, hexplored, hmem⟩ := worklist_explores hexpand
    (fun _ => hfinite.mem_toFinset.mpr) {root | root ∈ frontier} fuel frontier ∅ acc hfuel
    (fun root hroot => ⟨root, hroot, .refl⟩)
  simp only [Std.ExtTreeSet.not_mem_empty, false_or] at hexplored hmem
  exact ⟨order, hrun, fun item => hexplored.mem_iff_reached hmem⟩

end Lib
