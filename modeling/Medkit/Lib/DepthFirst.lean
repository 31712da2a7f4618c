import Mathlib

/-! A depth-first search with a cap on the depth that marks a node when it meets it first, so that a
node met first beyond the cap is given up for good. Which nodes within the cap are missed is read
off the paths without repetition in the order of the search. -/
namespace Lib.DepthFirst

variable {ν : Type}

structure Search (ν : Type) where
  visited : List ν := []
  expanded : List ν := []

section Defs

variable [DecidableEq ν] (next : ν → List ν)

/-- The search below a node, where the first argument counts the depths that are left. -/
def dive : Nat → ν → Search ν → Search ν
  | 0, n, s => if n ∈ s.visited then s else { s with visited := n :: s.visited }
  | depth + 1, n, s =>
      if n ∈ s.visited then s
      else (next n).foldl (fun s m => dive depth m s)
        { visited := n :: s.visited, expanded := s.expanded ++ [n] }

def diveAll (depth : Nat) (ns : List ν) (s : Search ν) : Search ν :=
  ns.foldl (fun s n => dive next depth n s) s

/-- The paths without repetition that go on from a trail, each with its end first, in the order of
the search. -/
def paths : Nat → List ν → ν → List (List ν)
  | 0, trail, n => [n :: trail]
  | depth + 1, trail, n =>
      (n :: trail) :: ((next n).filter (· ∉ n :: trail)).flatMap (paths depth (n :: trail))

def pathsAll (depth : Nat) (trail ns : List ν) : List (List ν) :=
  (ns.filter (· ∉ trail)).flatMap (paths next depth trail)

/-- The node is at the end of a path with the given number of steps from a root. -/
inductive Leads (roots : List ν) : Nat → ν → Prop
  | root {n : ν} : n ∈ roots → Leads roots 0 n
  | step {length : Nat} {n m : ν} : Leads roots length n → m ∈ next n → Leads roots (length + 1) m

def Near (roots : List ν) (cap : Nat) (n : ν) : Prop := ∃ length < cap, Leads next roots length n

/-- The first of the paths to a near node is itself within the cap. -/
def FirstShort (roots : List ν) (cap : Nat) (l : List (List ν)) : Prop :=
  ∀ n, Near next roots cap n → ∀ path, l.find? (·.head? = some n) = some path → path.length ≤ cap

end Defs

section Growth

variable {next : ν → List ν} {s s' s'' : Search ν} {depth : Nat} {n : ν} {ns : List ν}

/-- Nothing is unmarked, and what was marked is not expanded any more. -/
structure Extends (s s' : Search ν) : Prop where
  visited : ∀ n ∈ s.visited, n ∈ s'.visited
  expanded : ∀ n ∈ s'.expanded, n ∈ s.expanded ∨ n ∉ s.visited

theorem Extends.refl (s : Search ν) : Extends s s := ⟨fun _ h => h, fun _ h => .inl h⟩

theorem Extends.trans (h : Extends s s') (h' : Extends s' s'') : Extends s s'' where
  visited n hn := h'.visited n (h.visited n hn)
  expanded n hn := by
    rcases h'.expanded n hn with hold | hnew
    · exact h.expanded n hold
    · exact .inr fun hn => hnew (h.visited n hn)

variable [DecidableEq ν]

theorem dive_of_visited (h : n ∈ s.visited) : dive next depth n s = s := by
  cases depth <;> rw [dive, if_pos h]

theorem extends_diveAll (hdive : ∀ n s, Extends s (dive next depth n s)) (ns : List ν)
    (s : Search ν) : Extends s (diveAll next depth ns s) := by
  induction ns generalizing s with
  | nil => exact .refl s
  | cons n ns ih => exact (hdive n s).trans (ih _)

theorem extends_dive (depth : Nat) (n : ν) (s : Search ν) : Extends s (dive next depth n s) := by
  induction depth generalizing n s with
  | zero =>
    rw [dive]
    split
    · exact .refl s
    · exact ⟨fun _ h => List.mem_cons_of_mem _ h, fun _ h => .inl h⟩
  | succ depth ih =>
    rw [dive]
    split
    · exact .refl s
    · rename_i hnew
      refine Extends.trans ⟨fun _ h => List.mem_cons_of_mem _ h, fun m hm => ?_⟩
        (extends_diveAll ih (next n) _)
      rcases List.mem_append.mp hm with hold | hself
      · exact .inl hold
      · exact .inr (List.mem_singleton.mp hself ▸ hnew)

theorem mem_visited_dive (depth : Nat) (n : ν) (s : Search ν) :
    n ∈ (dive next depth n s).visited := by
  cases depth with
  | zero =>
    rw [dive]
    split
    · assumption
    · exact List.mem_cons_self
  | succ depth =>
    rw [dive]
    split
    · assumption
    · exact (extends_diveAll (extends_dive depth) (next n) _).visited n List.mem_cons_self

theorem mem_visited_diveAll (hn : n ∈ ns) (s : Search ν) :
    n ∈ (diveAll next depth ns s).visited := by
  induction ns generalizing s with
  | nil => exact absurd hn List.not_mem_nil
  | cons m ns ih =>
    rcases List.mem_cons.mp hn with rfl | hn
    · exact (extends_diveAll (extends_dive depth) ns _).visited n (mem_visited_dive depth n s)
    · exact ih hn _

end Growth

/-! ## The search and the paths -/

section Paths

variable {next : ν → List ν} {roots : List ν} {cap depth : Nat} {l l' : List (List ν)}
  {trail : List ν} {s s' : Search ν} {n : ν}

def Ends (l : List (List ν)) (n : ν) : Prop := ∃ path ∈ l, path.head? = some n

theorem ends_append : Ends (l ++ l') n ↔ Ends l n ∨ Ends l' n := by
  simp [Ends, or_and_right, exists_or]

theorem ends_singleton {m : ν} : Ends [m :: trail] n ↔ n = m := by
  simp [Ends, eq_comm]

variable (next roots cap) in
def Missed (s : Search ν) : Prop :=
  ∃ n, Near next roots cap n ∧ n ∈ s.visited ∧ n ∉ s.expanded

theorem Missed.mono (h : Missed next roots cap s) (hext : Extends s s') :
    Missed next roots cap s' := by
  obtain ⟨n, hnear, hvisited, hnot⟩ := h
  refine ⟨n, hnear, hext.visited n hvisited, fun hn => ?_⟩
  exact (hext.expanded n hn).elim hnot (absurd hvisited)

variable [DecidableEq ν]

theorem find?_eq_none_iff : l.find? (·.head? = some n) = none ↔ ¬ Ends l n := by
  simp [Ends]

theorem firstShort_append : FirstShort next roots cap (l ++ l') ↔ FirstShort next roots cap l ∧
    ∀ n, Near next roots cap n → ¬ Ends l n → ∀ path,
      l'.find? (·.head? = some n) = some path → path.length ≤ cap := by
  constructor
  · refine fun h => ⟨fun n hn path hpath => h n hn path ?_,
      fun n hn hnew path hpath => h n hn path ?_⟩
    · rw [List.find?_append, hpath]
      rfl
    · rw [List.find?_append, find?_eq_none_iff.mpr hnew]
      exact hpath
  · rintro ⟨h, h'⟩ n hn path hpath
    rw [List.find?_append] at hpath
    cases hfound : l.find? (·.head? = some n) with
    | some first =>
      rw [hfound] at hpath
      exact h n hn path (hfound.trans hpath)
    | none =>
      rw [hfound] at hpath
      exact h' n hn (find?_eq_none_iff.mp hfound) path hpath

variable (next roots cap) in
/-- The search has met the ends of the paths so far, it has expanded the near ones, and it is done
with what it has expanded but for the trail. -/
structure Sound (l : List (List ν)) (trail : List ν) (s : Search ν) : Prop where
  visited : ∀ n, n ∈ s.visited ↔ Ends l n
  expanded : ∀ n ∈ s.expanded, n ∈ s.visited
  onTrail : ∀ n ∈ trail, n ∈ s.visited
  near : ∀ n ∈ s.visited, Near next roots cap n → n ∈ s.expanded
  closed : ∀ n ∈ s.expanded, n ∉ trail → ∀ m ∈ next n, m ∈ s.visited
  short : FirstShort next roots cap l

variable (next roots cap) in
def Outcome (l : List (List ν)) (trail : List ν) (s : Search ν) : Prop :=
  Sound next roots cap l trail s ∨ ¬ FirstShort next roots cap l ∧ Missed next roots cap s

section

variable (h : Sound next roots cap l trail s)

include h

theorem Sound.skip (hl : ∀ n, Ends l' n → n ∈ s.visited) : Sound next roots cap (l ++ l') trail s :=
  { h with
    visited := fun n => by
      rw [h.visited, ends_append]
      exact ⟨.inl, fun h' => h'.elim id fun h' => (h.visited n).mp (hl n h')⟩
    short := firstShort_append.mpr ⟨h.short, fun n _ hnew path hpath =>
      absurd ((h.visited n).mp (hl n ⟨path, List.mem_of_find?_eq_some hpath,
        by simpa using List.find?_some hpath⟩)) hnew⟩ }

theorem Sound.cut (hn : n ∉ s.visited) (hlength : trail.length = cap) :
    Outcome next roots cap (l ++ [n :: trail]) trail { s with visited := n :: s.visited } := by
  have hnew : ¬ Ends l n := fun h' => hn ((h.visited n).mpr h')
  by_cases hnear : Near next roots cap n
  · refine .inr ⟨fun hshort => ?_, n, hnear, List.mem_cons_self, fun h' => hn (h.expanded n h')⟩
    have hle := (firstShort_append.mp hshort).2 n hnear hnew (n :: trail) (by simp)
    rw [List.length_cons, hlength] at hle
    omega
  · refine .inl ⟨fun m => ?_, fun m hm => .tail _ (h.expanded m hm),
      fun m hm => .tail _ (h.onTrail m hm), fun m hm hm' => ?_,
      fun m hm htrail k hk => .tail _ (h.closed m hm htrail k hk), ?_⟩
    · rw [List.mem_cons, h.visited, ends_append, ends_singleton, or_comm]
    · rcases List.mem_cons.mp hm with rfl | hm
      · exact absurd hm' hnear
      · exact h.near m hm hm'
    · refine firstShort_append.mpr ⟨h.short, fun m hm _ path hpath => ?_⟩
      have hend := List.find?_some hpath
      rw [List.mem_singleton.mp (List.mem_of_find?_eq_some hpath)] at hend
      obtain rfl : n = m := by simpa using hend
      exact absurd hm hnear

theorem Sound.expand (hn : n ∉ s.visited) (hlength : trail.length < cap) :
    Sound next roots cap (l ++ [n :: trail]) (n :: trail)
      { visited := n :: s.visited, expanded := s.expanded ++ [n] } where
  visited m := by rw [List.mem_cons, h.visited, ends_append, ends_singleton, or_comm]
  expanded m hm := by
    rcases List.mem_append.mp hm with hm | hm
    · exact .tail _ (h.expanded m hm)
    · exact List.mem_singleton.mp hm ▸ List.mem_cons_self
  onTrail := List.forall_mem_cons.mpr ⟨List.mem_cons_self, fun m hm => .tail _ (h.onTrail m hm)⟩
  near m hm hnear := by
    rcases List.mem_cons.mp hm with rfl | hm
    · exact List.mem_append_right _ (List.mem_singleton_self _)
    · exact List.mem_append_left _ (h.near m hm hnear)
  closed m hm htrail k hk := by
    rw [List.mem_cons, not_or] at htrail
    rcases List.mem_append.mp hm with hm | hm
    · exact .tail _ (h.closed m hm htrail.2 k hk)
    · exact absurd (List.mem_singleton.mp hm) htrail.1
  short := by
    refine firstShort_append.mpr ⟨h.short, fun m _ _ path hpath => ?_⟩
    rw [List.mem_singleton.mp (List.mem_of_find?_eq_some hpath), List.length_cons]
    exact hlength

/-- A node that was met before brings nothing new: what lies behind it on a path without repetition
is near, so it was expanded, and it is not on the trail, so that is finished. -/
theorem Sound.mem_visited_of_paths (further : List ν) (hn : n ∈ s.visited)
    (hnew : n ∉ further ++ trail) (hlength : (further ++ trail).length + depth = cap)
    (hleads : Leads next roots (further ++ trail).length n) {m : ν}
    (hm : Ends (paths next depth (further ++ trail) n) m) : m ∈ s.visited := by
  induction depth generalizing further n with
  | zero => exact ends_singleton.mp hm ▸ hn
  | succ depth ih =>
    obtain ⟨path, hpath, hend⟩ := hm
    rcases List.mem_cons.mp hpath with rfl | hpath
    · exact Option.some.inj hend ▸ hn
    · obtain ⟨k, hk, hpath⟩ := List.mem_flatMap.mp hpath
      obtain ⟨hk, hfresh⟩ := List.mem_filter.mp hk
      have hexpanded := h.near n hn ⟨_, by omega, hleads⟩
      have hvisited := h.closed n hexpanded (fun h' => hnew (List.mem_append_right _ h')) k hk
      refine ih (n :: further) hvisited (by simpa using hfresh) ?_ (hleads.step hk)
        ⟨path, hpath, hend⟩
      rw [List.cons_append, List.length_cons]
      omega

end

theorem outcome_diveAll (hdive : ∀ n l s, n ∉ trail → Leads next roots trail.length n →
      Sound next roots cap l trail s →
      Outcome next roots cap (l ++ paths next depth trail n) trail (dive next depth n s))
    {ns : List ν} (hns : ∀ n ∈ ns, Leads next roots trail.length n)
    (h : Outcome next roots cap l trail s) :
    Outcome next roots cap (l ++ pathsAll next depth trail ns) trail
      (diveAll next depth ns s) := by
  induction ns generalizing l s with
  | nil => rwa [pathsAll, List.filter_nil, List.flatMap_nil, List.append_nil]
  | cons n ns ih =>
    obtain ⟨hn, hns⟩ := List.forall_mem_cons.mp hns
    have hstep : Outcome next roots cap
        (l ++ if n ∈ trail then [] else paths next depth trail n) trail (dive next depth n s) := by
      rcases h with h | ⟨hshort, hmissed⟩
      · split
        · rename_i htrail
          rw [dive_of_visited (h.onTrail n htrail), List.append_nil]
          exact .inl h
        · rename_i htrail
          exact hdive n l s htrail hn h
      · exact .inr ⟨fun h' => hshort (firstShort_append.mp h').1,
          hmissed.mono (extends_dive depth n s)⟩
    have hsplit : pathsAll next depth trail (n :: ns) =
        (if n ∈ trail then [] else paths next depth trail n) ++ pathsAll next depth trail ns := by
      by_cases htrail : n ∈ trail <;> simp [pathsAll, htrail]
    rw [hsplit, ← List.append_assoc]
    exact ih hns hstep

theorem outcome_dive (hlength : trail.length + depth = cap) (hn : n ∉ trail)
    (hleads : Leads next roots trail.length n) (h : Sound next roots cap l trail s) :
    Outcome next roots cap (l ++ paths next depth trail n) trail (dive next depth n s) := by
  induction depth generalizing trail n l s with
  | zero =>
    rw [dive, paths]
    split
    · rename_i hvisited
      exact .inl (h.skip fun m hm => ends_singleton.mp hm ▸ hvisited)
    · rename_i hvisited
      exact h.cut hvisited (by omega)
  | succ depth ih =>
    by_cases hvisited : n ∈ s.visited
    · rw [dive, if_pos hvisited]
      exact .inl (h.skip fun m => h.mem_visited_of_paths [] hvisited hn hlength hleads)
    · have hbelow : Outcome next roots cap
          (l ++ [n :: trail] ++ pathsAll next depth (n :: trail) (next n)) (n :: trail)
          (diveAll next depth (next n)
            { visited := n :: s.visited, expanded := s.expanded ++ [n] }) := by
        refine outcome_diveAll (fun m l s => ih ?_) (fun m hm => hleads.step hm)
          (.inl (h.expand hvisited (by omega)))
        rw [List.length_cons]
        omega
      rw [dive, if_neg hvisited, paths, ← List.singleton_append, ← List.append_assoc]
      refine hbelow.imp_left fun hsound => { hsound with
        onTrail := fun m hm => hsound.onTrail m (.tail _ hm)
        closed := fun m hm htrail k hk => ?_ }
      rcases eq_or_ne m n with rfl | hne
      · exact mem_visited_diveAll hk _
      · exact hsound.closed m hm (fun h' => (List.mem_cons.mp h').elim hne htrail) k hk

end Paths

section Complete

variable [DecidableEq ν] (next : ν → List ν) (roots : List ν) (cap : Nat)

/-- The search expands every near node exactly if, in the order of the search, the first path to each
is within the cap. -/
theorem expands_near_iff : (∀ n, Near next roots cap n → n ∈ (diveAll next cap roots {}).expanded) ↔
      FirstShort next roots cap (pathsAll next cap [] roots) := by
  have hstart : Sound next roots cap [] [] {} :=
    ⟨by simp [Ends], by simp, by simp, by simp, by simp, by simp [FirstShort]⟩
  have houtcome : Outcome next roots cap ([] ++ pathsAll next cap [] roots) []
      (diveAll next cap roots {}) :=
    outcome_diveAll (fun n l s => outcome_dive (Nat.zero_add cap)) (fun n hn => .root hn)
      (.inl hstart)
  rcases houtcome with h | ⟨hshort, n, hnear, -, hnot⟩
  · refine iff_of_true ?_ h.short
    rintro n ⟨length, hlength, hleads⟩
    induction hleads with
    | root hroot => exact h.near _ (mem_visited_diveAll hroot _) ⟨0, hlength, .root hroot⟩
    | step hleads hstep ih =>
      have hexpanded := ih (by omega)
      exact h.near _ (h.closed _ hexpanded List.not_mem_nil _ hstep)
        ⟨_, hlength, hleads.step hstep⟩
  · exact iff_of_false (fun hall => hnot (hall n hnear)) hshort

end Complete

end Lib.DepthFirst
