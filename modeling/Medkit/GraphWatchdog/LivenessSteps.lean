import Medkit.Lib.KeyedFold
import Medkit.GraphWatchdog.LivenessTracker

/-! What one call of the presence tracker does to what is kept about a key. -/
namespace Medkit.GraphWatchdog

open Lib

namespace NodeLivenessTracker

@[ext]
structure KeySlot where
  known : Bool := false
  misses : Option Int := none
  streak : Option Int := none

def slot (t : NodeLivenessTracker) (key : Str) : KeySlot where
  known := t.known.contains key
  misses := t.misses[key]?
  streak := t.suppressedStreak[key]?

variable {t t' t'' : NodeLivenessTracker} {key other : Str}

theorem slot_release_self (t : NodeLivenessTracker) (key : Str) : (t.release key).slot key = {} := by
  ext1 <;> simp [slot, release]

theorem slot_release_of_ne (h : other ≠ key) : (t.release key).slot other = t.slot other := by
  ext1
  · simp [slot, release, h.symm]
  · exact OMap.getElem?_erase_of_ne h.symm
  · exact OMap.getElem?_erase_of_ne h.symm

/-! ## The cap -/

/-- Confirmed deaths were folded into the count, and nothing else happened. -/
structure Collapses (t t' : NodeLivenessTracker) : Prop where
  settings : t'.settings = t.settings
  slot : ∀ key, t'.slot key = t.slot key ∨ (t'.slot key = {} ∧
    t.collapsedDeadCount < t'.collapsedDeadCount ∧
    ∃ misses, t.misses[key]? = some misses ∧ t.settings.missGrace < misses)
  count : t.collapsedDeadCount ≤ t'.collapsedDeadCount

theorem Collapses.refl (t : NodeLivenessTracker) : Collapses t t :=
  ⟨rfl, fun _ => .inl rfl, le_rfl⟩

theorem Collapses.trans (h : Collapses t t') (h' : Collapses t' t'') : Collapses t t'' where
  settings := h'.settings.trans h.settings
  slot key := by
    rcases h.slot key with hkept | ⟨hgone, hcount, hmatured⟩
    · rcases h'.slot key with hkept' | ⟨hgone', hcount', hmatured'⟩
      · exact .inl (hkept'.trans hkept)
      · have hmisses : t'.misses[key]? = t.misses[key]? := congrArg KeySlot.misses hkept
        rw [hmisses, h.settings] at hmatured'
        exact .inr ⟨hgone', h.count.trans_lt hcount', hmatured'⟩
    · rcases h'.slot key with hkept' | ⟨hgone', -⟩
      · exact .inr ⟨hkept'.trans hgone, hcount.trans_le h'.count, hmatured⟩
      · exact .inr ⟨hgone', hcount.trans_le h'.count, hmatured⟩
  count := h.count.trans h'.count

theorem collapsedDeadCount_foldl_collapse (t : NodeLivenessTracker) (keys : List Str) :
    (keys.foldl collapse t).collapsedDeadCount = t.collapsedDeadCount + keys.length := by
  induction keys generalizing t with
  | nil => rfl
  | cons key keys ih =>
    rw [List.foldl_cons, ih, List.length_cons]
    simp only [collapse]
    omega

theorem collapses_collapseMatured (t : NodeLivenessTracker) (keepNamed : Nat) :
    Collapses t (t.collapseMatured keepNamed) := by
  unfold collapseMatured
  have hmatured : ∀ key ∈ (t.misses.toList.filter
      fun entry => entry.2 > t.settings.missGrace).map Prod.fst,
      ∃ misses, t.misses[key]? = some misses ∧ t.settings.missGrace < misses := by
    intro key hkey
    obtain ⟨⟨k, misses⟩, hentry, rfl⟩ := List.mem_map.mp hkey
    obtain ⟨hentry, hpast⟩ := List.mem_filter.mp hentry
    exact ⟨misses, Std.ExtTreeMap.mem_toList_iff_getElem?_eq_some.mp hentry,
      of_decide_eq_true hpast⟩
  have hnodup : ((t.misses.toList.filter
      fun entry => entry.2 > t.settings.missGrace).map Prod.fst).Nodup :=
    (OMap.nodup_keys_toList t.misses).sublist (List.filter_sublist.map _)
  generalize (t.misses.toList.filter
    fun entry => entry.2 > t.settings.missGrace).map Prod.fst = matured at hmatured hnodup
  dsimp only
  have hfold := foldl_keyed (g := collapse) (v := slot) (f := fun _ _ => {})
    (I := fun s => s.settings = t.settings) (fun s k hs => hs)
    (fun s k _ => slot_release_self s k) (fun s k key _ hne => slot_release_of_ne hne)
    (List.nodup_reverse.mpr (hnodup.sublist (List.drop_sublist keepNamed matured))) (s := t) rfl
  have hcount := collapsedDeadCount_foldl_collapse t (matured.drop keepNamed).reverse
  refine ⟨hfold.1, fun key => ?_, by omega⟩
  rw [hfold.2 key]
  split
  · rename_i hmem
    refine .inr ⟨rfl, ?_, hmatured key (List.mem_of_mem_drop (List.mem_reverse.mp hmem))⟩
    have := List.length_pos_of_mem hmem
    omega
  · exact .inl rfl

theorem collapses_enforceDepartedCap (t : NodeLivenessTracker) :
    Collapses t t.enforceDepartedCap.1 := by
  have hsome := collapses_collapseMatured t kMaxNamedDepartedEntries
  fun_cases enforceDepartedCap t with
  | case1 => exact .refl t
  | case2 => exact hsome
  | case3 => exact hsome.trans (collapses_collapseMatured _ 0)

theorem departedCount_enforceDepartedCap (h : t.enforceDepartedCap.2 = false) :
    t.enforceDepartedCap.1.departedCount ≤ t.enforceDepartedCap.1.settings.keyCap := by
  revert h
  fun_cases enforceDepartedCap t with
  | case1 hle => exact fun _ => hle
  | case2 _ _ hle => exact fun _ => hle
  | case3 =>
    intro h
    simpa using h

/-! ## update -/

theorem mem_known_admitArmed {armed : OSet Str} :
    key ∈ (t.admitArmed armed).known ↔ key ∈ armed ∨ key ∈ t.known := by
  rw [← Std.ExtTreeSet.mem_toList (t := armed)]
  exact OSet.mem_foldl_insert

def touched (present armed : OSet Str) (key : Str) (slot : KeySlot) : KeySlot :=
  if slot.known = true ∨ key ∈ armed then
    { slot with
      known := true
      misses := some (if present.contains key then 0 else slot.misses.getD 0 + 1) }
  else slot

theorem slot_countMisses (t : NodeLivenessTracker) (present armed : OSet Str) (key : Str) :
    ((t.admitArmed armed).countMisses present).slot key = touched present armed key (t.slot key) := by
  have hfold := foldl_keyed
    (g := fun (misses : OMap Str Int) key =>
      misses.insert key (if present.contains key then 0 else misses[key]?.getD 0 + 1))
    (v := fun misses key => misses[key]?)
    (f := fun key old => some (if present.contains key then 0 else old.getD 0 + 1))
    (I := fun _ => True) (fun _ _ _ => trivial)
    (fun misses k _ => Std.ExtTreeMap.getElem?_insert_self)
    (fun misses k key _ hne => OMap.getElem?_insert_of_ne (Ne.symm hne) _)
    (OSet.nodup_toList (t.admitArmed armed).known) (s := t.misses) trivial
  have hmisses := hfold.2 key
  simp only [Std.ExtTreeSet.mem_toList, mem_known_admitArmed] at hmisses
  have hknown : ((t.admitArmed armed).countMisses present).known.contains key = true ↔
      key ∈ armed ∨ key ∈ t.known := mem_known_admitArmed
  unfold touched
  split
  · rename_i h
    have hmem : key ∈ armed ∨ key ∈ t.known := h.symm
    rw [if_pos hmem] at hmisses
    exact KeySlot.ext (hknown.mpr hmem) hmisses rfl
  · rename_i h
    have hmem : ¬ (key ∈ armed ∨ key ∈ t.known) := fun hmem => h hmem.symm
    rw [if_neg hmem] at hmisses
    refine KeySlot.ext ?_ hmisses rfl
    have hold : ¬ t.known.contains key = true := fun hold => hmem (.inr hold)
    exact (Bool.eq_false_iff.mpr fun hnew => hmem (hknown.mp hnew)).trans
      (Bool.eq_false_iff.mpr hold).symm

structure Updates (t : NodeLivenessTracker) (present armed : OSet Str) (t' : NodeLivenessTracker)
    (saturated : Bool) : Prop where
  settings : t'.settings = t.settings
  slot : ∀ key, t'.slot key = touched present armed key (t.slot key) ∨ (t'.slot key = {} ∧
    t.collapsedDeadCount < t'.collapsedDeadCount ∧
    ∃ misses, (touched present armed key (t.slot key)).misses = some misses ∧
      t.settings.missGrace < misses)
  count : t.collapsedDeadCount ≤ t'.collapsedDeadCount
  cap : saturated = false → t'.departedCount ≤ t.settings.keyCap

theorem updates_update (t : NodeLivenessTracker) (present armed : OSet Str) :
    Updates t present armed (t.update present armed).1
      (t.update present armed).2.trackingSaturated := by
  have hcollapses := collapses_enforceDepartedCap ((t.admitArmed armed).countMisses present)
  have hcap := departedCount_enforceDepartedCap (t := (t.admitArmed armed).countMisses present)
  unfold update
  dsimp only
  generalize ((t.admitArmed armed).countMisses present).enforceDepartedCap = capped
    at hcollapses hcap ⊢
  constructor
  case settings => exact hcollapses.settings
  case slot =>
    intro key
    rw [← slot_countMisses]
    exact hcollapses.slot key
  case count => exact hcollapses.count
  case cap =>
    intro hroom
    have hle := hcap hroom
    rw [hcollapses.settings] at hle
    exact hle

def RoomFor (t : NodeLivenessTracker) (present armed : OSet Str) : Prop :=
  ((t.admitArmed armed).countMisses present).departedCount ≤ t.settings.keyCap
deriving Decidable

theorem slot_update_of_roomFor {present armed : OSet Str} (h : t.RoomFor present armed) (key : Str) :
    (t.update present armed).1.slot key = touched present armed key (t.slot key) := by
  have hroom : ((t.admitArmed armed).countMisses present).departedCount ≤
      ((t.admitArmed armed).countMisses present).settings.keyCap := h
  rw [← slot_countMisses, update, enforceDepartedCap, if_pos hroom]
  rfl

/-! ## prune -/

def pruned (c : LivenessSettings) (suppressed : OSet Str) (key : Str) (slot : KeySlot) : KeySlot :=
  let streak := nextStreak suppressed key slot.streak
  if streak > c.pruneTicks then {} else { slot with streak := some streak }

theorem slot_pruneKey_self (suppressed : OSet Str) (t : NodeLivenessTracker) (key : Str) :
    (pruneKey suppressed t key).slot key = pruned t.settings suppressed key (t.slot key) := by
  unfold pruneKey pruned
  dsimp only
  split
  · rename_i hpast
    rw [if_pos (show nextStreak suppressed key (t.slot key).streak > _ from hpast)]
    exact slot_release_self t key
  · rename_i hwithin
    rw [if_neg (show ¬ nextStreak suppressed key (t.slot key).streak > _ from hwithin)]
    refine KeySlot.ext rfl rfl ?_
    exact Std.ExtTreeMap.getElem?_insert_self

theorem slot_pruneKey_of_ne (suppressed : OSet Str) (h : other ≠ key) :
    (pruneKey suppressed t key).slot other = t.slot other := by
  unfold pruneKey
  dsimp only
  split
  · exact slot_release_of_ne h
  · refine KeySlot.ext rfl rfl ?_
    exact OMap.getElem?_insert_of_ne h.symm _

theorem settings_pruneKey (suppressed : OSet Str) (t : NodeLivenessTracker) (key : Str) :
    (pruneKey suppressed t key).settings = t.settings := by
  unfold pruneKey
  dsimp only
  split <;> rfl

theorem slot_prune (t : NodeLivenessTracker) (suppressed : OSet Str) :
    (t.prune suppressed).settings = t.settings ∧ ∀ key, (t.prune suppressed).slot key =
      if key ∈ t.known then pruned t.settings suppressed key (t.slot key) else t.slot key := by
  have hfold := foldl_keyed (g := pruneKey suppressed) (v := slot)
    (f := pruned t.settings suppressed) (I := fun s => s.settings = t.settings)
    (fun s k hs => (settings_pruneKey suppressed s k).trans hs)
    (fun s k hs => (slot_pruneKey_self suppressed s k).trans (by rw [hs]))
    (fun s k key _ hne => slot_pruneKey_of_ne suppressed hne)
    (OSet.nodup_toList t.known) (s := t) rfl
  refine ⟨hfold.1, fun key => (hfold.2 key).trans ?_⟩
  simp only [Std.ExtTreeSet.mem_toList]

/-! ## The counters -/

/-- The `int` counters that are kept about a key: at most `misses` updates that missed it and
at most `streak` prunes that named it. -/
def CountsWithin (misses streak : Nat) (t : NodeLivenessTracker) : Prop :=
  ∀ key, (t.slot key).misses.getD 0 ≤ misses ∧ (t.slot key).streak.getD 0 ≤ streak

variable {misses streak : Nat} (h : t.CountsWithin misses streak)

include h

theorem CountsWithin.mono {misses' streak' : Nat} (hmisses : misses ≤ misses')
    (hstreak : streak ≤ streak') : t.CountsWithin misses' streak' := by
  intro key
  have hkey := h key
  exact ⟨by omega, by omega⟩

theorem countsWithin_release (key : Str) : (t.release key).CountsWithin misses streak := by
  intro other
  by_cases hne : other = key
  · rw [hne, slot_release_self]
    exact ⟨Int.natCast_nonneg _, Int.natCast_nonneg _⟩
  · rw [slot_release_of_ne hne]
    exact h other

theorem countsWithin_countMisses (present armed : OSet Str) :
    ((t.admitArmed armed).countMisses present).CountsWithin (misses + 1) streak := by
  intro key
  have hkey := h key
  rw [slot_countMisses, touched]
  split
  · refine ⟨?_, hkey.2⟩
    dsimp only [Option.getD_some]
    split <;> omega
  · exact ⟨by omega, hkey.2⟩

theorem countsWithin_update (present armed : OSet Str) :
    (t.update present armed).1.CountsWithin (misses + 1) streak := by
  intro key
  rcases (updates_update t present armed).slot key with heq | ⟨hgone, -⟩
  · rw [heq, ← slot_countMisses]
    exact countsWithin_countMisses h present armed key
  · rw [hgone]
    exact ⟨Int.natCast_nonneg _, Int.natCast_nonneg _⟩

theorem nextStreak_le_succ (suppressed : OSet Str) (key : Str) :
    nextStreak suppressed key t.suppressedStreak[key]? ≤ (streak + 1 : Nat) := by
  have hkey : t.suppressedStreak[key]?.getD 0 ≤ streak := (h key).2
  unfold nextStreak
  split <;> omega

theorem countsWithin_prune (suppressed : OSet Str) :
    (t.prune suppressed).CountsWithin misses (streak + 1) := by
  intro key
  have hkey := h key
  have hstreak := nextStreak_le_succ h suppressed key
  rw [(slot_prune t suppressed).2, pruned]
  split
  · split
    · exact ⟨Int.natCast_nonneg _, Int.natCast_nonneg _⟩
    · exact ⟨hkey.1, hstreak⟩
  · exact ⟨hkey.1, by omega⟩

omit h

/-! ## Reports -/

theorem mem_byMissCount {misses : Int} : (misses, key) ∈ t.byMissCount ↔
    key ∈ t.known ∧ t.misses[key]?.getD 0 = misses ∧ t.settings.missGrace < misses := by
  simp only [byMissCount, List.mem_filterMap, Std.ExtTreeSet.mem_toList]
  constructor
  · rintro ⟨k, hk, hentry⟩
    split at hentry
    · rename_i hpast
      cases hentry
      exact ⟨hk, rfl, hpast⟩
    · contradiction
  · rintro ⟨hk, rfl, hpast⟩
    exact ⟨key, hk, if_pos hpast⟩

theorem nodup_keys_byMissCount (t : NodeLivenessTracker) : (t.byMissCount.map Prod.snd).Nodup := by
  have hkeys : t.byMissCount.map Prod.snd =
      t.known.toList.filter fun key => t.misses[key]?.getD 0 > t.settings.missGrace := by
    unfold byMissCount
    generalize t.known.toList = keys
    induction keys with
    | nil => rfl
    | cons key keys ih =>
      by_cases hpast : t.misses[key]?.getD 0 > t.settings.missGrace
      · simp [hpast, ih]
      · simp [hpast, ih]
  rw [hkeys]
  exact (OSet.nodup_toList t.known).filter _

def deadLine (t : NodeLivenessTracker) (key : Str) : Option Str :=
  if key ∈ t.known ∧ t.settings.missGrace < t.misses[key]?.getD 0 then
    some (deadDetail key (t.misses[key]?.getD 0))
  else none

theorem getElem?_named (t : NodeLivenessTracker) (key : Str) : (t.byMissCount.foldl
      (fun (dead : OMap Str Str) entry => dead.insert entry.2 (deadDetail entry.2 entry.1)) ∅)[key]? =
      t.deadLine key := by
  unfold byMissCount
  rw [List.foldl_filterMap]
  refine ((foldl_keyed (v := fun (dead : OMap Str Str) key => dead[key]?)
    (f := fun key old => if t.misses[key]?.getD 0 > t.settings.missGrace then
      some (deadDetail key (t.misses[key]?.getD 0)) else old)
    (I := fun _ => True) (fun _ _ _ => trivial) ?_ ?_
    (OSet.nodup_toList t.known) (s := ∅) trivial).2 key).trans ?_
  · intro dead k _
    by_cases hpast : t.misses[k]?.getD 0 > t.settings.missGrace <;> simp [hpast]
  · intro dead k key _ hne
    by_cases hpast : t.misses[k]?.getD 0 > t.settings.missGrace
    · simp only [if_pos hpast]
      exact OMap.getElem?_insert_of_ne hne.symm _
    · simp only [if_neg hpast]
  · by_cases hmem : key ∈ t.known <;>
      by_cases hpast : t.settings.missGrace < t.misses[key]?.getD 0 <;>
        simp [deadLine, hmem, hpast]

theorem getElem?_dead_report (t : NodeLivenessTracker) (saturated : Bool) (hne : key ≠ kCollapsedKey) :
    (t.report saturated).dead[key]? = t.deadLine key := by
  rw [← getElem?_named]
  unfold report
  dsimp only
  split
  · exact OMap.getElem?_insert_of_ne hne.symm _
  · rfl

theorem fresher_trans (a b d : Int × Str) (hab : fresher a b = true) (hbd : fresher b d = true) :
    fresher a d = true := by
  simp only [fresher, Bool.or_eq_true, Bool.and_eq_true, decide_eq_true_eq] at hab hbd ⊢
  rcases hab with hab | ⟨hab, hab'⟩
  · rcases hbd with hbd | ⟨hbd, -⟩
    · exact .inl (hab.trans hbd)
    · exact .inl (hbd ▸ hab)
  · rcases hbd with hbd | ⟨hbd, hbd'⟩
    · exact .inl (hab ▸ hbd)
    · exact .inr ⟨hab.trans hbd, Std.TransCmp.isLE_trans hab' hbd'⟩

theorem fresher_total (a b : Int × Str) : (fresher a b || fresher b a) = true := by
  simp only [fresher, Bool.or_eq_true, Bool.and_eq_true, decide_eq_true_eq]
  rcases lt_trichotomy a.1 b.1 with hlt | heq | hgt
  · exact .inl (.inl hlt)
  · cases hcmp : compare a.2 b.2 with
    | lt => exact .inl (.inr ⟨heq, rfl⟩)
    | eq => exact .inl (.inr ⟨heq, rfl⟩)
    | gt =>
      have hlt : compare b.2 a.2 = .lt := Std.OrientedCmp.lt_of_gt hcmp
      exact .inr (.inr ⟨heq.symm, by rw [hlt]; rfl⟩)
  · exact .inr (.inl hgt)

def namedKeys (t : NodeLivenessTracker) : List Str := (t.byMissCount.mergeSort fresher).map Prod.snd

theorem mem_namedKeys : key ∈ t.namedKeys ↔ (t.deadLine key).isSome := by
  unfold namedKeys deadLine
  simp only [List.mem_map, Prod.exists, exists_eq_right, List.mem_mergeSort, mem_byMissCount]
  split
  · rename_i h
    simp [h]
  · rename_i h
    simp only [Option.isSome_none, Bool.false_eq_true, iff_false, not_exists]
    rintro misses ⟨hmem, rfl, hpast⟩
    exact h ⟨hmem, hpast⟩

theorem nodup_namedKeys (t : NodeLivenessTracker) : t.namedKeys.Nodup :=
  ((List.mergeSort_perm _ _).map Prod.snd).nodup_iff.mpr (nodup_keys_byMissCount t)

theorem pairwise_namedKeys (t : NodeLivenessTracker) :
    t.namedKeys.Pairwise fun key key' => t.misses[key]?.getD 0 ≤ t.misses[key']?.getD 0 := by
  unfold namedKeys
  rw [List.pairwise_map]
  have hsorted := List.pairwise_mergeSort fresher_trans fresher_total t.byMissCount
  refine hsorted.imp_of_mem ?_
  rintro ⟨misses, key⟩ ⟨misses', key'⟩ hmem hmem' hfresher
  rw [List.mem_mergeSort, mem_byMissCount] at hmem hmem'
  obtain ⟨-, rfl, -⟩ := hmem
  obtain ⟨-, rfl, -⟩ := hmem'
  simp only [fresher, Bool.or_eq_true, Bool.and_eq_true, decide_eq_true_eq] at hfresher
  dsimp only
  omega

theorem mem_dead_report (t : NodeLivenessTracker) (saturated : Bool) (key : Str) :
    key ∈ (t.report saturated).dead ↔
      key ∈ t.namedKeys ∨ (0 < t.collapsedDeadCount ∧ key = kCollapsedKey) := by
  have hnamed : key ∈ t.namedKeys ↔ key ∈ (t.byMissCount.foldl
      (fun (dead : OMap Str Str) entry => dead.insert entry.2 (deadDetail entry.2 entry.1)) ∅) := by
    rw [mem_namedKeys, Std.ExtTreeMap.mem_iff_isSome_getElem?, getElem?_named]
  rw [hnamed]
  unfold report
  dsimp only
  split
  · rename_i hcount
    rw [Std.ExtTreeMap.mem_insert, Std.LawfulEqCmp.compare_eq_iff_eq, or_comm, eq_comm]
    simp [Nat.pos_iff_ne_zero.mp hcount, Nat.pos_of_ne_zero]
  · rename_i hcount
    simp [hcount]

theorem report_update (t : NodeLivenessTracker) (present armed : OSet Str) :
    let t' := (t.update present armed).1
    let r := (t.update present armed).2
    (∀ key, key ≠ kCollapsedKey → r.dead[key]? = t'.deadLine key) ∧
      (∀ key, key ∈ r.dead ↔
        key ∈ t'.namedKeys ∨ (0 < t'.collapsedDeadCount ∧ key = kCollapsedKey)) ∧
      r.keysByFreshness =
        (if 0 < t'.collapsedDeadCount then [kCollapsedKey] else []) ++ t'.namedKeys := by
  unfold update
  generalize ((t.admitArmed armed).countMisses present).enforceDepartedCap = result
  obtain ⟨t', saturated⟩ := result
  refine ⟨fun key hne => getElem?_dead_report t' saturated hne,
    fun key => mem_dead_report t' saturated key, ?_⟩
  show (if t'.collapsedDeadCount > 0 then kCollapsedKey :: t'.namedKeys else t'.namedKeys) =
    (if 0 < t'.collapsedDeadCount then [kCollapsedKey] else []) ++ t'.namedKeys
  split <;> rfl

end NodeLivenessTracker

end Medkit.GraphWatchdog
