import Mathlib

/-! Ordered finite maps and sets. Both are the extensional search trees of the
standard library; the lemmas here say which sorted list such a tree enumerates. -/
namespace Lib

open Std

abbrev OMap (κ ν : Type) [Ord κ] := ExtTreeMap κ ν compare
abbrev OSet (κ : Type) [Ord κ] := ExtTreeSet κ compare

variable {κ ν : Type} [Ord κ] [TransOrd κ]

theorem nodup_of_sorted {l : List (κ × ν)} (h : l.Pairwise (fun a b => compare a.1 b.1 = .lt)) :
    l.Nodup := by
  refine h.imp ?_
  rintro a b hab rfl
  exact OrientedCmp.not_lt_of_lt hab hab

variable [LawfulEqOrd κ]

/-- A strictly sorted list with the entries of a map is the map's enumeration. -/
theorem OMap.toList_eq_of_sorted {m : OMap κ ν} {l : List (κ × ν)}
    (hsorted : l.Pairwise (fun a b => compare a.1 b.1 = .lt))
    (hmem : ∀ k v, (k, v) ∈ l ↔ m[k]? = some v) : m.toList = l := by
  have hm : m.toList.Pairwise (fun a b => compare a.1 b.1 = .lt) := ExtTreeMap.ordered_keys_toList
  have hperm : m.toList.Perm l := by
    rw [List.perm_ext_iff_of_nodup (nodup_of_sorted hm) (nodup_of_sorted hsorted)]
    rintro ⟨k, v⟩
    rw [hmem, ExtTreeMap.mem_toList_iff_getElem?_eq_some]
  refine hperm.eq_of_pairwise ?_ hm hsorted
  intro a b _ _ hab hba
  exact (OrientedCmp.not_lt_of_lt hab hba).elim

theorem OMap.ext_toList {m m' : OMap κ ν} (h : m.toList = m'.toList) : m = m' := by
  apply ExtTreeMap.ext_getElem?
  intro k
  ext v
  rw [← ExtTreeMap.mem_toList_iff_getElem?_eq_some, h, ExtTreeMap.mem_toList_iff_getElem?_eq_some]

theorem OMap.mem_values {m : OMap κ ν} {v : ν} :
    v ∈ m.toList.map Prod.snd ↔ ∃ k : κ, m[k]? = some v := by
  simp only [List.mem_map, Prod.exists, ExtTreeMap.mem_toList_iff_getElem?_eq_some,
    exists_eq_right]

omit [LawfulEqOrd κ] in
theorem OMap.values_eq_map (m : OMap κ ν) : m.values = m.toList.map Prod.snd := by
  rcases m with ⟨⟨inner⟩⟩
  induction inner using Quotient.ind with
  | _ t =>
    change t.inner.values = (DTreeMap.Internal.Impl.Const.toList t.inner).map Prod.snd
    rw [DTreeMap.Internal.Impl.values_eq_map_snd,
      DTreeMap.Internal.Impl.Const.toList_eq_toListModel_map, List.map_map]
    rfl

theorem OMap.nodup_keys_toList (m : OMap κ ν) : (m.toList.map Prod.fst).Nodup := by
  rw [List.nodup_map_iff_inj_on (nodup_of_sorted ExtTreeMap.ordered_keys_toList)]
  rintro ⟨k, v⟩ hv ⟨k', v'⟩ hv' rfl
  rw [ExtTreeMap.mem_toList_iff_getElem?_eq_some] at hv hv'
  rw [hv] at hv'
  cases hv'
  rfl

theorem OMap.le_of_empty (k : Nat) (v : ν) : (∅ : OMap Nat ν)[k]? = some v → k ≤ 0 := by
  simp

/-! ## Other keys -/

variable {k k' : κ} {m : OMap κ ν}

theorem OMap.getElem?_insert_of_ne (h : k ≠ k') (v : ν) : (m.insert k v)[k']? = m[k']? := by
  rw [ExtTreeMap.getElem?_insert, if_neg (fun heq => h (LawfulEqCmp.eq_of_compare heq))]

theorem OMap.getElem?_erase_of_ne (h : k ≠ k') : (m.erase k)[k']? = m[k']? := by
  rw [ExtTreeMap.getElem?_erase, if_neg (fun heq => h (LawfulEqCmp.eq_of_compare heq))]

theorem OSet.mem_insert_iff {s : OSet κ} : k' ∈ s.insert k ↔ k' = k ∨ k' ∈ s := by
  rw [ExtTreeSet.mem_insert, LawfulEqCmp.compare_eq_iff_eq, eq_comm]

theorem OSet.mem_erase_iff {s : OSet κ} : k' ∈ s.erase k ↔ k' ≠ k ∧ k' ∈ s := by
  rw [ExtTreeSet.mem_erase, Ne, LawfulEqCmp.compare_eq_iff_eq, eq_comm]

theorem OSet.mem_foldl_insert {keys : List κ} {s : OSet κ} :
    k ∈ keys.foldl (fun s k => s.insert k) s ↔ k ∈ keys ∨ k ∈ s := by
  induction keys generalizing s with
  | nil => simp
  | cons key keys ih =>
    rw [List.foldl_cons, ih, OSet.mem_insert_iff, List.mem_cons]
    tauto

omit [LawfulEqOrd κ] in
theorem OSet.nodup_toList (s : OSet κ) : s.toList.Nodup := by
  refine (ExtTreeSet.ordered_toList (t := s)).imp ?_
  rintro a b hab rfl
  exact OrientedCmp.not_lt_of_lt hab hab

theorem OMap.toList_insert_of_lt {m : OMap κ ν} {k : κ} (v : ν)
    (hlt : ∀ entry ∈ m.toList, compare entry.1 k = .lt) :
    (m.insert k v).toList = m.toList ++ [(k, v)] := by
  apply OMap.toList_eq_of_sorted
  · rw [List.pairwise_append]
    refine ⟨ExtTreeMap.ordered_keys_toList, List.pairwise_singleton _ _, ?_⟩
    intro a ha b hb
    obtain rfl := List.mem_singleton.mp hb
    exact hlt a ha
  · intro k' v'
    rw [List.mem_append, ExtTreeMap.mem_toList_iff_getElem?_eq_some, List.mem_singleton,
      ExtTreeMap.getElem?_insert]
    by_cases hk : k = k'
    · subst hk
      have hfresh : m[k]? ≠ some v' := by
        intro h
        have := hlt (k, v') (ExtTreeMap.mem_toList_iff_getElem?_eq_some.mpr h)
        simp at this
      simp [hfresh, eq_comm]
    · simp [hk, Ne.symm hk]

section Rebuild

variable [BEq κ] [LawfulBEq κ]

theorem OMap.toList_ofList_of_sorted {l : List (κ × ν)}
    (hsorted : l.Pairwise (fun a b => compare a.1 b.1 = .lt)) :
    (ExtTreeMap.ofList l compare).toList = l := by
  have hdistinct : l.Pairwise (fun a b => ¬ compare a.1 b.1 = .eq) :=
    hsorted.imp fun hlt => by simp [hlt]
  apply OMap.toList_eq_of_sorted hsorted
  intro k v
  constructor
  · intro hmem
    exact ExtTreeMap.getElem?_ofList_of_mem ReflCmp.compare_self hdistinct hmem
  · intro hv
    by_cases hk : (l.map Prod.fst).contains k
    · obtain ⟨⟨k', v'⟩, hmem, rfl⟩ := List.mem_map.mp (List.contains_iff_mem.mp hk)
      rw [ExtTreeMap.getElem?_ofList_of_mem ReflCmp.compare_self hdistinct hmem] at hv
      cases hv
      exact hmem
    · rw [ExtTreeMap.getElem?_ofList_of_contains_eq_false (by simpa using hk)] at hv
      cases hv

theorem OMap.getElem?_insertMany_toList (m m' : OMap κ ν) (k : κ) :
    (m.insertMany m'.toList)[k]? = (m'[k]?).or m[k]? := by
  have hdistinct : m'.toList.Pairwise (fun a b => ¬ compare a.1 b.1 = .eq) :=
    (ExtTreeMap.ordered_keys_toList (t := m')).imp fun hlt => by simp [hlt]
  cases hk : m'[k]? with
  | some v =>
    rw [Option.some_or]
    exact ExtTreeMap.getElem?_insertMany_list_of_mem ReflCmp.compare_self hdistinct
      (ExtTreeMap.mem_toList_iff_getElem?_eq_some.mpr hk)
  | none =>
    rw [Option.none_or]
    apply ExtTreeMap.getElem?_insertMany_list_of_contains_eq_false
    rw [← Bool.not_eq_true, List.contains_iff_mem]
    intro hmem
    obtain ⟨entry, hentry, rfl⟩ := List.mem_map.mp hmem
    rw [ExtTreeMap.mem_toList_iff_getElem?_eq_some.mp hentry] at hk
    cases hk

/-- Replace or drop each value. The map is rebuilt from its entries, which keeps
the result computable by reduction. -/
def OMap.mapMaybe {ν' : Type} (f : κ → ν → Option ν') (m : OMap κ ν) : OMap κ ν' :=
  ExtTreeMap.ofList (m.toList.filterMap fun entry => (f entry.1 entry.2).map (Prod.mk entry.1))
    compare

def OMap.keep (p : κ → ν → Bool) (m : OMap κ ν) : OMap κ ν :=
  m.mapMaybe fun k v => if p k v then some v else none

theorem OMap.toList_mapMaybe {ν' : Type} (f : κ → ν → Option ν') (m : OMap κ ν) :
    (m.mapMaybe f).toList =
      m.toList.filterMap fun entry => (f entry.1 entry.2).map (Prod.mk entry.1) := by
  apply OMap.toList_ofList_of_sorted
  rw [List.pairwise_filterMap]
  refine (ExtTreeMap.ordered_keys_toList (t := m)).imp ?_
  intro a b hlt a' ha' b' hb'
  obtain ⟨_, -, rfl⟩ := Option.map_eq_some_iff.mp ha'
  obtain ⟨_, -, rfl⟩ := Option.map_eq_some_iff.mp hb'
  exact hlt

theorem OMap.getElem?_mapMaybe {ν' : Type} (f : κ → ν → Option ν') (m : OMap κ ν) (k : κ) :
    (m.mapMaybe f)[k]? = m[k]?.bind (f k) := by
  ext v
  rw [← ExtTreeMap.mem_toList_iff_getElem?_eq_some, OMap.toList_mapMaybe, List.mem_filterMap,
    Option.bind_eq_some_iff]
  simp only [Prod.exists, ExtTreeMap.mem_toList_iff_getElem?_eq_some, Option.map_eq_some_iff,
    Prod.mk.injEq]
  constructor
  · rintro ⟨k', w, hw, v', hv', rfl, rfl⟩
    exact ⟨w, hw, hv'⟩
  · rintro ⟨w, hw, hv⟩
    exact ⟨k, w, hw, v, hv, rfl, rfl⟩

theorem OMap.toList_keep (p : κ → ν → Bool) (m : OMap κ ν) :
    (m.keep p).toList = m.toList.filter fun entry => p entry.1 entry.2 := by
  rw [OMap.keep, OMap.toList_mapMaybe, ← List.filterMap_eq_filter]
  refine List.filterMap_congr fun entry _ => ?_
  by_cases h : p entry.1 entry.2 <;> simp [h, Option.guard]

theorem OMap.getElem?_keep (p : κ → ν → Bool) (m : OMap κ ν) (k : κ) :
    (m.keep p)[k]? = m[k]?.filter (p k) := by
  rw [OMap.keep, OMap.getElem?_mapMaybe]
  cases m[k]? with
  | none => rfl
  | some v => rw [Option.bind_some, Option.filter_some]

end Rebuild

def OMap.eraseAll (m : OMap κ ν) (keys : List κ) : OMap κ ν := keys.foldl (fun m k => m.erase k) m

theorem OMap.getElem?_eraseAll [DecidableEq κ] (m : OMap κ ν) (keys : List κ) (k : κ) :
    (m.eraseAll keys)[k]? = if k ∈ keys then none else m[k]? := by
  unfold OMap.eraseAll
  induction keys generalizing m with
  | nil => simp
  | cons k' keys ih =>
    rw [List.foldl_cons, ih, ExtTreeMap.getElem?_erase]
    by_cases hk : k = k'
    · subst hk
      simp
    · simp [hk, Ne.symm hk]

theorem OSet.ofList_toList [BEq κ] [LawfulBEq κ] (s : OSet κ) :
    ExtTreeSet.ofList s.toList compare = s := by
  apply ExtTreeSet.ext_mem
  intro k
  rw [ExtTreeSet.mem_ofList, List.contains_iff_mem, ExtTreeSet.mem_toList]

end Lib
