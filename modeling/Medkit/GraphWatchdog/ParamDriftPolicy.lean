import Mathlib.Computability.Language
import Medkit.Lib.Bytes

/-! The patterns of parameters whose drift is ignored: a matcher that remembers the last star only,
and the language that a pattern stands for. -/
namespace Medkit.GraphWatchdog

open Lib

/-! ## The matcher -/

structure GlobState where
  p : Nat := 0
  t : Nat := 0
  star : Option Nat := none
  mark : Nat := 0

/-- One iteration; nothing stands for the return of false inside of the loop. -/
def globStep (pattern text : Str) (s : GlobState) : Option GlobState :=
  if pattern[s.p]? = some 42 then some { s with star := some s.p, p := s.p + 1, mark := s.t }
  else if s.p < pattern.length ∧ pattern[s.p]? = text[s.t]? then
    some { s with p := s.p + 1, t := s.t + 1 }
  else s.star.map fun star => { s with p := star + 1, t := s.mark + 1, mark := s.mark + 1 }

/-- The loop over the text and the skipping of the stars that are left. The number bounds the
iterations, and nothing is returned when it does not suffice. -/
def globLoop (pattern text : Str) : Nat → GlobState → Option Bool
  | iterations, s =>
      if s.t < text.length then
        match iterations with
        | 0 => none
        | iterations + 1 =>
            match globStep pattern text s with
            | none => some false
            | some next => globLoop pattern text iterations next
      else some ((pattern.drop s.p).dropWhile (· = 42)).isEmpty

def globMatch (iterations : Nat) (pattern text : Str) : Option Bool :=
  globLoop pattern text iterations {}

/-! ## The language of a pattern -/

/-- A star stands for any string and every other character for itself. -/
def globLanguage (pattern : Str) : Language Byte :=
  (pattern.map fun c => if c = 42 then ⊤ else {[c]}).prod

theorem mem_nil {text : Str} : text ∈ globLanguage [] ↔ text = [] := Iff.rfl

theorem mem_star {pattern text : Str} :
    text ∈ globLanguage (42 :: pattern) ↔ ∃ k, text.drop k ∈ globLanguage pattern := by
  unfold globLanguage
  rw [List.map_cons, List.prod_cons, if_pos rfl, Language.mem_mul]
  constructor
  · intro ⟨skipped, _, rest, hrest, joined⟩
    use skipped.length
    rw [← joined, List.drop_left]
    exact hrest
  · intro ⟨k, hk⟩
    exact ⟨text.take k, trivial, text.drop k, hk, List.take_append_drop k text⟩

theorem mem_literal {c : Byte} {pattern text : Str} (literal : c ≠ 42) :
    text ∈ globLanguage (c :: pattern) ↔
      ∃ rest, text = c :: rest ∧ rest ∈ globLanguage pattern := by
  unfold globLanguage
  rw [List.map_cons, List.prod_cons, if_neg literal, Language.mem_mul]
  constructor
  · intro ⟨_, rfl, rest, hrest, joined⟩
    exact ⟨rest, joined.symm, hrest⟩
  · intro ⟨rest, split, hrest⟩
    exact ⟨[c], rfl, rest, hrest, split.symm⟩

theorem mem_literals {literals pattern text : Str} (noStar : 42 ∉ literals) :
    text ∈ globLanguage (literals ++ pattern) ↔
      ∃ rest, text = literals ++ rest ∧ rest ∈ globLanguage pattern := by
  induction literals generalizing text with
  | nil => simp
  | cons c literals ih =>
    rw [List.mem_cons, not_or] at noStar
    rw [List.cons_append, mem_literal (Ne.symm noStar.1)]
    simp only [ih noStar.2]
    constructor
    · intro ⟨_, split, rest, tail, hrest⟩
      exact ⟨rest, by rw [split, tail, List.cons_append], hrest⟩
    · intro ⟨rest, split, hrest⟩
      exact ⟨literals ++ rest, split, rest, rfl, hrest⟩

theorem nil_mem {pattern : Str} : [] ∈ globLanguage pattern ↔ ∀ c ∈ pattern, c = 42 := by
  induction pattern with
  | nil => simp [mem_nil]
  | cons c pattern ih =>
    by_cases star : c = 42
    · simp [star, mem_star, ih]
    · simp [star, mem_literal]

/-! ## The loop -/

/-- The part of the pattern that is being matched from the mark on: behind the last star. -/
def GlobState.base (s : GlobState) : Nat := s.star.elim 0 (· + 1)

/-- From the mark on, the characters of the text are those of the pattern behind the last star. Only
the mark remains to be chosen, and without a star not even that: earlier stars need no second
choice, because whatever a later choice of theirs reaches can be skipped by the last one. -/
structure GlobState.Invariant (pattern text : Str) (s : GlobState) : Prop where
  p_le : s.p ≤ pattern.length
  base_le : s.base ≤ s.p
  t_le : s.t ≤ text.length
  mark_le : s.mark ≤ s.t
  matched : ∃ literals, 42 ∉ literals ∧ pattern.drop s.base = literals ++ pattern.drop s.p ∧
    text.drop s.mark = literals ++ text.drop s.t
  answer : text ∈ globLanguage pattern ↔ ∃ k, s.mark ≤ k ∧ (s.star = none → k = s.mark) ∧
    text.drop k ∈ globLanguage (pattern.drop s.base)

variable {pattern text : Str} {s next : GlobState}

section

variable (inv : s.Invariant pattern text)

include inv

theorem GlobState.Invariant.from_mark : text.drop s.mark ∈ globLanguage (pattern.drop s.base) ↔
      text.drop s.t ∈ globLanguage (pattern.drop s.p) := by
  obtain ⟨literals, noStar, hp, ht⟩ := inv.matched
  rw [hp, ht, mem_literals noStar]
  simp

theorem GlobState.Invariant.later {k : Nat} (hk : s.mark ≤ k)
    (h : text.drop k ∈ globLanguage (pattern.drop s.base)) :
    ∃ j, s.t ≤ j ∧ text.drop j ∈ globLanguage (pattern.drop s.p) := by
  obtain ⟨literals, noStar, hp, ht⟩ := inv.matched
  have lengths := congrArg List.length ht
  have := inv.t_le
  have := inv.mark_le
  simp only [List.length_drop, List.length_append] at lengths
  rw [hp, mem_literals noStar] at h
  obtain ⟨rest, split, hrest⟩ := h
  have tail : rest = text.drop (k + literals.length) := by
    rw [← List.drop_drop, split, List.drop_left]
  exact ⟨k + literals.length, by omega, tail ▸ hrest⟩

theorem GlobState.Invariant.star (star : pattern[s.p]? = some 42) :
    GlobState.Invariant pattern text { s with star := some s.p, p := s.p + 1, mark := s.t } := by
  obtain ⟨bound, hstar⟩ := List.getElem?_eq_some_iff.mp star
  have split : pattern.drop s.p = 42 :: pattern.drop (s.p + 1) := by
    rw [List.drop_eq_getElem_cons bound, hstar]
  refine ⟨bound, le_refl _, inv.t_le, le_refl _, ⟨[], List.not_mem_nil, rfl, rfl⟩, ?_⟩
  rw [inv.answer]
  constructor
  · intro ⟨k, hk, _, hmem⟩
    obtain ⟨j, hj, rest⟩ := inv.later hk hmem
    rw [split, mem_star] at rest
    obtain ⟨i, rest⟩ := rest
    rw [List.drop_drop] at rest
    exact ⟨j + i, Nat.le_add_right_of_le hj, fun h => absurd h (Option.some_ne_none _), rest⟩
  · intro ⟨k, hk, _, hmem⟩
    change s.t ≤ k at hk
    refine ⟨s.mark, le_refl _, fun _ => rfl, inv.from_mark.mpr ?_⟩
    rw [split, mem_star]
    use k - s.t
    rw [List.drop_drop, Nat.add_sub_cancel' hk]
    exact hmem

theorem GlobState.Invariant.literal (ht : s.t < text.length) (noStar : pattern[s.p]? ≠ some 42)
    (hp : s.p < pattern.length) (same : pattern[s.p]? = text[s.t]?) :
    GlobState.Invariant pattern text { s with p := s.p + 1, t := s.t + 1 } := by
  obtain ⟨literals, hliterals, patternSplit, textSplit⟩ := inv.matched
  rw [List.getElem?_eq_getElem hp, List.getElem?_eq_getElem ht, Option.some_inj] at same
  rw [List.getElem?_eq_getElem hp, ne_eq, Option.some_inj] at noStar
  have := inv.base_le
  have := inv.mark_le
  refine ⟨hp, Nat.le_succ_of_le inv.base_le, ht, Nat.le_succ_of_le inv.mark_le,
    ⟨literals ++ [pattern[s.p]], ?_, ?_, ?_⟩, inv.answer⟩
  · simp [hliterals, Ne.symm noStar]
  · change pattern.drop s.base = _
    rw [patternSplit, List.drop_eq_getElem_cons hp, List.append_assoc, List.singleton_append]
  · rw [textSplit, List.drop_eq_getElem_cons ht, same, List.append_assoc, List.singleton_append]

end

theorem not_mem_of_mismatch (ht : s.t < text.length) (noStar : pattern[s.p]? ≠ some 42)
    (mismatch : ¬(s.p < pattern.length ∧ pattern[s.p]? = text[s.t]?)) :
    text.drop s.t ∉ globLanguage (pattern.drop s.p) := by
  rw [List.drop_eq_getElem_cons ht]
  by_cases hp : s.p < pattern.length
  · rw [List.getElem?_eq_getElem hp, ne_eq, Option.some_inj] at noStar
    rw [List.drop_eq_getElem_cons hp, mem_literal noStar]
    intro ⟨rest, split, _⟩
    injection split with head
    exact mismatch ⟨hp, by rw [List.getElem?_eq_getElem hp, List.getElem?_eq_getElem ht, head]⟩
  · rw [List.drop_eq_nil_of_le (Nat.le_of_not_lt hp), mem_nil]
    exact List.cons_ne_nil _ _

theorem GlobState.Invariant.backtrack (inv : s.Invariant pattern text) (ht : s.t < text.length)
    (mismatch : text.drop s.t ∉ globLanguage (pattern.drop s.p)) {star : Nat}
    (hstar : s.star = some star) :
    GlobState.Invariant pattern text
      { s with p := star + 1, t := s.mark + 1, mark := s.mark + 1 } := by
  have base : s.base = star + 1 := by rw [GlobState.base, hstar]; rfl
  have hp : star + 1 ≤ pattern.length := base ▸ inv.base_le.trans inv.p_le
  have hmark : s.mark + 1 ≤ text.length := Nat.lt_of_le_of_lt inv.mark_le ht
  -- with a star any later mark may be chosen
  have chosen {k mark : Nat} (h : s.star = none) : k = mark := by
    rw [hstar] at h
    cases h
  refine ⟨hp, le_of_eq base, hmark, le_refl _, ⟨[], List.not_mem_nil, ?_, rfl⟩, ?_⟩
  · rw [List.nil_append, ← base]
    rfl
  rw [inv.answer]
  constructor
  · intro ⟨k, hk, _, hmem⟩
    have moved : s.mark ≠ k := by
      intro same
      rw [← same] at hmem
      exact mismatch (inv.from_mark.mp hmem)
    exact ⟨k, Nat.lt_of_le_of_ne hk moved, chosen, hmem⟩
  · intro ⟨k, hk, _, hmem⟩
    exact ⟨k, Nat.le_of_succ_le hk, chosen, hmem⟩

theorem globStep_none (inv : s.Invariant pattern text) (ht : s.t < text.length)
    (h : globStep pattern text s = none) : text ∉ globLanguage pattern := by
  unfold globStep at h
  split_ifs at h with star same
  rw [Option.map_eq_none_iff] at h
  rw [inv.answer]
  intro ⟨k, _, mark, hmem⟩
  rw [mark h] at hmem
  exact not_mem_of_mismatch ht star same (inv.from_mark.mp hmem)

/-- The number of iterations that can be left: an iteration moves the mark, or it moves in the
pattern. -/
def GlobState.potential (pattern text : Str) (s : GlobState) : Nat :=
  (text.length - s.mark) * (pattern.length + 1) + (pattern.length - s.p)

theorem GlobState.potential_lt_of_p (mark : s.mark ≤ next.mark) (hp : s.p < pattern.length)
    (moved : s.p < next.p) : next.potential pattern text < s.potential pattern text := by
  unfold potential
  have := Nat.mul_le_mul_right (pattern.length + 1) (Nat.sub_le_sub_left mark text.length)
  omega

theorem GlobState.potential_lt_of_mark (mark : next.mark = s.mark + 1) (ht : s.mark < text.length) :
    next.potential pattern text < s.potential pattern text := by
  unfold potential
  obtain ⟨left, hleft⟩ := Nat.exists_eq_add_of_lt ht
  rw [mark, show text.length - (s.mark + 1) = left by omega,
    show text.length - s.mark = left + 1 by omega, Nat.succ_mul]
  omega

theorem globStep_some (inv : s.Invariant pattern text) (ht : s.t < text.length)
    (h : globStep pattern text s = some next) :
    next.Invariant pattern text ∧ next.potential pattern text < s.potential pattern text := by
  unfold globStep at h
  split_ifs at h with star same
  · injection h with h
    subst h
    have bound := (List.getElem?_eq_some_iff.mp star).1
    exact ⟨inv.star star, GlobState.potential_lt_of_p inv.mark_le bound (Nat.lt_succ_self _)⟩
  · injection h with h
    subst h
    exact ⟨inv.literal ht star same.1 same.2,
      GlobState.potential_lt_of_p (le_refl _) same.1 (Nat.lt_succ_self _)⟩
  · obtain ⟨last, hlast, h⟩ := Option.map_eq_some_iff.mp h
    subst h
    exact ⟨inv.backtrack ht (not_mem_of_mismatch ht star same) hlast,
      GlobState.potential_lt_of_mark rfl (Nat.lt_of_le_of_lt inv.mark_le ht)⟩

theorem GlobState.Invariant.used_up (inv : s.Invariant pattern text) (ht : ¬s.t < text.length) :
    ((pattern.drop s.p).dropWhile (· = 42)).isEmpty = true ↔ text ∈ globLanguage pattern := by
  have rest {j : Nat} (hj : s.t ≤ j) : text.drop j = [] := by
    rw [List.drop_eq_nil_iff]
    omega
  rw [List.isEmpty_iff, List.dropWhile_eq_nil_iff, inv.answer]
  simp only [decide_eq_true_eq]
  rw [← nil_mem]
  constructor
  · intro stars
    refine ⟨s.mark, le_refl _, fun _ => rfl, inv.from_mark.mpr ?_⟩
    rw [rest (le_refl _)]
    exact stars
  · intro ⟨k, hk, _, hmem⟩
    obtain ⟨j, hj, hmem⟩ := inv.later hk hmem
    rw [rest hj] at hmem
    exact hmem

theorem globLoop_correct (inv : s.Invariant pattern text) {iterations : Nat}
    (enough : s.potential pattern text ≤ iterations) :
    ∃ answer, globLoop pattern text iterations s = some answer ∧
      (answer = true ↔ text ∈ globLanguage pattern) := by
  induction iterations generalizing s with
  | zero =>
    have ht : ¬s.t < text.length := fun ht => by
      have left := Nat.sub_pos_of_lt (Nat.lt_of_le_of_lt inv.mark_le ht)
      have : 0 < _ * (pattern.length + 1) := Nat.mul_pos left (Nat.succ_pos _)
      unfold GlobState.potential at enough
      omega
    rw [globLoop, if_neg ht]
    exact ⟨_, rfl, inv.used_up ht⟩
  | succ iterations ih =>
    unfold globLoop
    by_cases ht : s.t < text.length
    · simp only [if_pos ht]
      cases h : globStep pattern text s with
      | none =>
        use false
        simp [globStep_none inv ht h]
      | some next =>
        obtain ⟨kept, less⟩ := globStep_some inv ht h
        exact ih kept (by omega)
    · rw [if_neg ht]
      exact ⟨_, rfl, inv.used_up ht⟩

/-- The matcher ends within the product of the lengths, each with one more, and accepts the texts of
the pattern's language and no others. -/
theorem glob_match_language (pattern text : Str) (more : Nat) :
    ∃ answer, globMatch ((pattern.length + 1) * (text.length + 1) + more) pattern text =
        some answer ∧ (answer = true ↔ text ∈ globLanguage pattern) := by
  apply globLoop_correct
  · refine ⟨Nat.zero_le _, le_refl _, Nat.zero_le _, le_refl _,
      ⟨[], List.not_mem_nil, rfl, rfl⟩, ?_⟩
    constructor
    · exact fun h => ⟨0, le_refl _, fun _ => rfl, h⟩
    · intro ⟨k, _, start, h⟩
      rw [start rfl] at h
      exact h
  · simp only [GlobState.potential, Nat.sub_zero, Nat.add_one_mul, Nat.mul_add_one]
    rw [Nat.mul_comm]
    omega

end Medkit.GraphWatchdog
