import Medkit.Lib.Bytes

/-! The first occurrence of a string in another one. -/
namespace Lib

def findSub (needle : Str) : Str → Option Nat
  | [] => if needle = [] then some 0 else none
  | b :: rest =>
      if needle.isPrefixOf (b :: rest) then some 0 else (findSub needle rest).map (· + 1)

variable {needle : Str}

theorem findSub_spec {s : Str} {n : Nat} (h : findSub needle s = some n) :
    ∃ front back, s = front ++ (needle ++ back) ∧ front.length = n := by
  induction s generalizing n with
  | nil =>
    rw [findSub] at h
    split at h
    · next hneedle => exact ⟨[], [], by simp [hneedle], by simpa using h⟩
    · cases h
  | cons b rest ih =>
    rw [findSub] at h
    split at h
    · rename_i hstart
      obtain ⟨back, hback⟩ := List.isPrefixOf_iff_prefix.mp hstart
      exact ⟨[], back, hback.symm, by simpa using h⟩
    · obtain ⟨k, hk, rfl⟩ := Option.map_eq_some_iff.mp h
      obtain ⟨front, back, rfl, rfl⟩ := ih hk
      exact ⟨b :: front, back, rfl, rfl⟩

theorem findSub_of_first {front back : Str}
    (hfirst : ∀ front' back', front ++ (needle ++ back) = front' ++ (needle ++ back') →
      front.length ≤ front'.length) :
    findSub needle (front ++ (needle ++ back)) = some front.length := by
  induction front with
  | nil =>
    have hstart : needle.isPrefixOf (needle ++ back) :=
      List.isPrefixOf_iff_prefix.mpr (List.prefix_append _ _)
    cases hs : needle ++ back with
    | nil =>
      obtain ⟨rfl, rfl⟩ := List.append_eq_nil_iff.mp hs
      simp [findSub]
    | cons b rest =>
      rw [hs] at hstart
      simp [findSub, hstart]
  | cons b front ih =>
    have hstart : ¬ needle.isPrefixOf (b :: (front ++ (needle ++ back))) := by
      intro hstart
      obtain ⟨back', hback⟩ := List.isPrefixOf_iff_prefix.mp hstart
      have hle := hfirst [] back' (by simpa using hback.symm)
      simp at hle
    rw [List.cons_append, findSub, if_neg hstart, ih]
    · rfl
    · intro front' back' heq
      have hle := hfirst (b :: front') back' (by simpa using heq)
      simpa using hle

/-- Behind a text without some byte of the needle, the needle is found where it stands. -/
theorem findSub_of_byte {front : Str} (back : Str) {inner : Fin 256} (hinner : inner ∈ needle)
    (hfront : inner ∉ front) : findSub needle (front ++ (needle ++ back)) = some front.length := by
  apply findSub_of_first
  intro front' back' heq
  -- the first place of the byte is the same in both readings
  have hplace := congrArg (List.idxOf inner) heq
  rw [List.idxOf_append_of_notMem hfront, List.idxOf_append_of_mem hinner] at hplace
  by_cases hmem : inner ∈ front'
  · rw [List.idxOf_append_of_mem hmem] at hplace
    have := List.idxOf_lt_length_of_mem hmem
    omega
  · rw [List.idxOf_append_of_notMem hmem, List.idxOf_append_of_mem hinner] at hplace
    omega

end Lib
