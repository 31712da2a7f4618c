import Mathlib

/-! A cell that candidates of different priority are written to one after the other. A
candidate of higher priority than all before overwrites the cell, any other one only
fills a gap, and an empty candidate changes no value. -/
namespace Lib

variable {ν β : Type} [LinearOrder β] (empty : ν)

/-- The earliest value of highest priority, with what stands before and behind it. -/
structure Leads (earlier : List (β × ν)) (c : β × ν) (later : List (β × ν)) : Prop where
  value : c.2 ≠ empty
  above : ∀ x ∈ earlier, x.2 ≠ empty → x.1 < c.1
  atLeast : ∀ x ∈ later, x.2 ≠ empty → x.1 ≤ c.1

/-- A value gets into the cell behind the earlier candidates: it is the first one, or its
priority is above all of theirs, those of empty candidates included. -/
def Enters (earlier : List (β × ν)) (c : β × ν) : Prop :=
  c.2 ≠ empty ∧ ((∀ x ∈ earlier, x.2 = empty) ∨ ∀ x ∈ earlier, x.1 < c.1)

variable [DecidableEq ν]

/-- The cell holds its value and the highest priority so far, empty candidates included. -/
def fillCell (cell : ν × β) (candidate : β × ν) : ν × β :=
  (if cell.2 < candidate.1 then if candidate.2 ≠ empty then candidate.2 else cell.1
    else if cell.1 = empty then candidate.2 else cell.1,
    max cell.2 candidate.1)

def fillAll (first : β × ν) (rest : List (β × ν)) : ν × β :=
  rest.foldl (fillCell empty) (first.2, first.1)

variable {empty}

theorem fillAll_concat (first : β × ν) (rest : List (β × ν)) (c : β × ν) :
    fillAll empty first (rest ++ [c]) = fillCell empty (fillAll empty first rest) c := by
  simp [fillAll]

theorem fillAll_priority (empty : ν) (first : β × ν) (rest : List (β × ν)) :
    (∀ c ∈ first :: rest, c.1 ≤ (fillAll empty first rest).2) ∧
    ∃ c ∈ first :: rest, c.1 = (fillAll empty first rest).2 := by
  induction rest using List.reverseRecOn with
  | nil =>
    refine ⟨?_, first, List.mem_cons_self, rfl⟩
    intro c hc
    rw [List.mem_singleton.mp hc]
    exact le_rfl
  | append_singleton rest last ih =>
    obtain ⟨hle, c, hc, heq⟩ := ih
    rw [fillAll_concat, ← List.cons_append]
    constructor
    · intro d hd
      rcases List.mem_append.mp hd with hd | hd
      · exact (hle d hd).trans (le_max_left _ _)
      · rw [List.mem_singleton.mp hd]
        exact le_max_right _ _
    · rcases le_total (fillAll empty first rest).2 last.1 with h | h
      · exact ⟨last, by simp, (max_eq_right h).symm⟩
      · exact ⟨c, List.mem_append_left _ hc, heq.trans (max_eq_left h).symm⟩

theorem fillAll_eq_empty_iff (empty : ν) (first : β × ν) (rest : List (β × ν)) :
    (fillAll empty first rest).1 = empty ↔ ∀ c ∈ first :: rest, c.2 = empty := by
  induction rest using List.reverseRecOn with
  | nil => simp [fillAll]
  | append_singleton rest last ih =>
    rw [fillAll_concat, ← List.cons_append]
    simp only [List.forall_mem_append, ← ih, List.mem_singleton, forall_eq, fillCell]
    by_cases hlast : last.2 = empty
    · by_cases hcell : (fillAll empty first rest).1 = empty
      · simp [hlast, hcell]
      · simp [hlast, hcell]
    · by_cases hcell : (fillAll empty first rest).1 = empty
      · simp [hlast, hcell]
      · simp only [hcell, hlast, if_false, ne_eq, not_false_eq_true, if_true, and_self, iff_false]
        split
        · exact hlast
        · exact hcell

instance (earlier : List (β × ν)) (c : β × ν) : Decidable (Enters empty earlier c) :=
  inferInstanceAs (Decidable (_ ∧ (_ ∨ _)))

variable (empty) in
/-- The last candidate that got into the cell; the newest candidate comes first. -/
def lastEntered : List (β × ν) → Option (β × ν)
  | [] => none
  | c :: earlier => if Enters empty earlier.reverse c then some c else lastEntered earlier

theorem fillAll_eq_lastEntered (first : β × ν) (rest : List (β × ν)) :
    (fillAll empty first rest).1 =
      ((lastEntered empty (first :: rest).reverse).map Prod.snd).getD empty := by
  induction rest using List.reverseRecOn with
  | nil =>
    by_cases h : first.2 = empty <;> simp [fillAll, lastEntered, Enters, h]
  | append_singleton rest last ih =>
    obtain ⟨hle, top, htop, heq⟩ := fillAll_priority empty first rest
    have hempty := fillAll_eq_empty_iff empty first rest
    have hhighest : (fillAll empty first rest).2 < last.1 ↔ ∀ x ∈ first :: rest, x.1 < last.1 :=
      ⟨fun h x hx => (hle x hx).trans_lt h, fun h => heq ▸ h top htop⟩
    rw [← List.cons_append, List.reverse_concat, lastEntered, List.reverse_reverse,
      fillAll_concat, fillCell]
    have henters : Enters empty (first :: rest) last ↔ last.2 ≠ empty ∧
        ((fillAll empty first rest).1 = empty ∨ (fillAll empty first rest).2 < last.1) := by
      rw [hhighest, hempty, Enters]
    simp only [henters]
    generalize lastEntered empty (first :: rest).reverse = entered at ih
    by_cases hlast : last.2 = empty
    · by_cases hcell : (fillAll empty first rest).1 = empty <;> simp [hlast, hcell, ← ih]
    · by_cases hcell : (fillAll empty first rest).1 = empty
      · simp [hlast, hcell]
      · by_cases hhigher : (fillAll empty first rest).2 < last.1 <;>
          simp [hlast, hcell, hhigher, ← ih]

theorem exists_leads {l : List (β × ν)} (h : ∃ x ∈ l, x.2 ≠ empty) :
    ∃ earlier c later, l = earlier ++ c :: later ∧ Leads empty earlier c later := by
  induction l using List.reverseRecOn with
  | nil => simp at h
  | append_singleton l last ih =>
    by_cases hl : ∃ x ∈ l, x.2 ≠ empty
    · obtain ⟨earlier, c, later, rfl, hleads⟩ := ih hl
      by_cases hlast : last.2 ≠ empty ∧ c.1 < last.1
      · refine ⟨earlier ++ c :: later, last, [], rfl, hlast.1, ?_, nofun⟩
        intro x hx hvalue
        rcases List.mem_append.mp hx with hx | hx
        · exact (hleads.above x hx hvalue).trans hlast.2
        · rcases List.mem_cons.mp hx with rfl | hx
          · exact hlast.2
          · exact (hleads.atLeast x hx hvalue).trans_lt hlast.2
      · refine ⟨earlier, c, later ++ [last], by simp, hleads.value, hleads.above, ?_⟩
        intro x hx hvalue
        rcases List.mem_append.mp hx with hx | hx
        · exact hleads.atLeast x hx hvalue
        · obtain rfl := List.mem_singleton.mp hx
          exact not_lt.mp fun hlt => hlast ⟨hvalue, hlt⟩
    · have hnone : ∀ x ∈ l, x.2 = empty := fun x hx => by_contra fun hvalue => hl ⟨x, hx, hvalue⟩
      have hlast : last.2 ≠ empty := by
        obtain ⟨x, hx, hvalue⟩ := h
        rcases List.mem_append.mp hx with hx | hx
        · exact absurd (hnone x hx) hvalue
        · rwa [← List.mem_singleton.mp hx]
      exact ⟨l, last, [], rfl, hlast, fun x hx hvalue => absurd (hnone x hx) hvalue, nofun⟩

theorem lastEntered_of_leads {earlier later : List (β × ν)} {c : β × ν}
    (h : Leads empty earlier c later) :
    lastEntered empty (earlier ++ c :: later).reverse =
      if Enters empty earlier c then some c else lastEntered empty earlier.reverse := by
  induction later using List.reverseRecOn with
  | nil => rw [List.reverse_concat, lastEntered, List.reverse_reverse]
  | append_singleton later last ih =>
    rw [← List.cons_append, ← List.append_assoc, List.reverse_concat, lastEntered,
      List.reverse_reverse, if_neg]
    · exact ih ⟨h.value, h.above, fun x hx => h.atLeast x (List.mem_append_left _ hx)⟩
    · rintro ⟨hvalue, hfirst | habove⟩
      · exact h.value (hfirst c (by simp))
      · exact absurd (habove c (by simp)) (not_lt.mpr (h.atLeast last (by simp) hvalue))

/-- The cell holds the leading value exactly if that one gets in, or the last one before it
that got in is the same. -/
theorem fillAll_eq_leading_iff {first c : β × ν} {rest earlier later : List (β × ν)}
    (hsplit : first :: rest = earlier ++ c :: later) (h : Leads empty earlier c later) :
    (fillAll empty first rest).1 = c.2 ↔
      Enters empty earlier c ∨ (lastEntered empty earlier.reverse).map Prod.snd = some c.2 := by
  rw [fillAll_eq_lastEntered, hsplit, lastEntered_of_leads h]
  by_cases henters : Enters empty earlier c
  · simp [henters]
  · rw [if_neg henters, or_iff_right henters]
    cases (lastEntered empty earlier.reverse).map Prod.snd with
    | none => simpa using h.value.symm
    | some v => simp

end Lib
