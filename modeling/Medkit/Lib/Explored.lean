import Mathlib

/-! Searches of a graph that remember what they have visited. A search may run while others are not
finished, so it answers only for the nodes it adds itself: each is reached from a root, and all the
successors of each are visited when the search ends. -/
namespace Lib

open Relation

variable {ν : Type} {step : ν → ν → Prop} {roots before mid after : Set ν} {n m : ν}

def Reached (step : ν → ν → Prop) (roots : Set ν) (n : ν) : Prop :=
  ∃ root ∈ roots, ReflTransGen step root n

theorem Reached.tail (h : Reached step roots n) (hstep : step n m) : Reached step roots m := by
  obtain ⟨root, hroot, hpath⟩ := h
  exact ⟨root, hroot, hpath.tail hstep⟩

structure Explored (step : ν → ν → Prop) (roots before after : Set ν) : Prop where
  subset : before ⊆ after
  reached : ∀ n ∈ after, n ∈ before ∨ Reached step roots n
  closed : ∀ n ∈ after, n ∈ before ∨ ∀ m, step n m → m ∈ after

namespace Explored

theorem refl (visited : Set ν) : Explored step roots visited visited :=
  ⟨subset_rfl, fun _ hn => .inl hn, fun _ hn => .inl hn⟩

theorem trans (h : Explored step roots before mid) (h' : Explored step roots mid after) :
    Explored step roots before after where
  subset := h.subset.trans h'.subset
  reached n hn := (h'.reached n hn).elim (h.reached n) .inr
  closed n hn := by
    rcases h'.closed n hn with hmid | hclosed
    · exact (h.closed n hmid).imp_right fun hclosed m hm => h'.subset (hclosed m hm)
    · exact .inr hclosed

theorem of_insert (h : Explored step roots (insert n before) after) (hn : Reached step roots n)
    (hclosed : ∀ m, step n m → m ∈ after) : Explored step roots before after where
  subset := (Set.subset_insert n before).trans h.subset
  reached x hx := by
    rcases h.reached x hx with (rfl | hbefore) | hreached
    · exact .inr hn
    · exact .inl hbefore
    · exact .inr hreached
  closed x hx := by
    rcases h.closed x hx with (rfl | hbefore) | hsucc
    · exact .inr hclosed
    · exact .inl hbefore
    · exact .inr hsucc

theorem mem_iff_reached (h : Explored step roots ∅ after) (hroots : roots ⊆ after) :
    n ∈ after ↔ Reached step roots n := by
  constructor
  · exact fun hn => (h.reached n hn).resolve_left (Set.notMem_empty n)
  · rintro ⟨root, hroot, hpath⟩
    induction hpath with
    | refl => exact hroots hroot
    | tail _ hstep ih => exact (h.closed _ ih).resolve_left (Set.notMem_empty _) _ hstep

end Explored

end Lib
