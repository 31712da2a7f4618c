import Mathlib

/-! The first least element of a list among those that qualify: the element of least
rank, and the earliest of that rank. A fold that keeps its candidate unless a strictly
smaller one arrives computes it. -/
namespace Lib

variable {α β : Type} [LinearOrder β]

/-- `a` qualifies, no qualifying element has a smaller rank, and none before it has the
same one. -/
def FirstLeast (rank : α → β) (qualifies : α → Prop) (l : List α) (a : α) : Prop :=
  ∃ earlier later, l = earlier ++ a :: later ∧ qualifies a ∧
    (∀ x ∈ earlier, qualifies x → rank a < rank x) ∧ ∀ x ∈ later, qualifies x → rank a ≤ rank x

namespace FirstLeast

variable {rank : α → β} {qualifies : α → Prop} {l l' : List α} {a b : α}

section

variable (h : FirstLeast rank qualifies l a)

include h

theorem mem : a ∈ l := by
  obtain ⟨earlier, later, rfl, -⟩ := h
  exact List.mem_append_right _ List.mem_cons_self

theorem holds : qualifies a := by
  obtain ⟨earlier, later, -, ha, -⟩ := h
  exact ha

theorem le {x : α} (hx : x ∈ l) (hq : qualifies x) : rank a ≤ rank x := by
  obtain ⟨earlier, later, rfl, -, hearlier, hlater⟩ := h
  rcases List.mem_append.mp hx with hx | hx
  · exact (hearlier x hx hq).le
  · rcases List.mem_cons.mp hx with rfl | hx
    · exact le_rfl
    · exact hlater x hx hq

theorem concat_keep (hb : qualifies b → rank a ≤ rank b) :
    FirstLeast rank qualifies (l ++ [b]) a := by
  obtain ⟨earlier, later, rfl, ha, hearlier, hlater⟩ := h
  refine ⟨earlier, later ++ [b], by simp, ha, hearlier, ?_⟩
  intro x hx hq
  rcases List.mem_append.mp hx with hx | hx
  · exact hlater x hx hq
  · obtain rfl := List.mem_singleton.mp hx
    exact hb hq

end

theorem concat_take (hb : qualifies b) (hless : ∀ x ∈ l, qualifies x → rank b < rank x) :
    FirstLeast rank qualifies (l ++ [b]) b :=
  ⟨l, [], rfl, hb, hless, fun _ hx => absurd hx List.not_mem_nil⟩

theorem eq_of_perm (h : FirstLeast rank qualifies l a) (h' : FirstLeast rank qualifies l' b)
    (hperm : l'.Perm l) (hranks : (l.map rank).Nodup) : a = b := by
  have hb : b ∈ l := hperm.mem_iff.mp h'.mem
  have ha : a ∈ l' := hperm.mem_iff.mpr h.mem
  apply List.inj_on_of_nodup_map hranks h.mem hb
  exact le_antisymm (h.le hb h'.holds) (h'.le ha h.holds)

end FirstLeast

end Lib
