import Medkit.GraphWatchdog.LifecycleTracker

/-! What one tick of the lifecycle expectation tracker does to its nodes. A matched node
takes one step of its clocks, every other one a step of absence; making room only takes
out nodes that carry nothing or that have departed, and the latter are counted. -/
namespace Medkit.GraphWatchdog

open Lib

namespace LifecycleExpectationTracker

/-! ## Making room -/

/-- The node counts in the code that its clock was heading for. -/
def Counted (t : LifecycleExpectationTracker) (node : NodeState) : Prop :=
  if node.unmeasuredMatured || node.unmeasuredClock > 0 then
    match node.cause with
    | .unreadable => 0 < t.collapsedUnreadable
    | .notManaged => 0 < t.collapsedNotManaged
  else node.violationStreak > t.settings.grace → 0 < t.collapsedInactive

/-- The settings stay and no count of departed nodes goes down. -/
structure Grows (t t' : LifecycleExpectationTracker) : Prop where
  settings : t'.settings = t.settings
  inactive : t.collapsedInactive ≤ t'.collapsedInactive
  unreadable : t.collapsedUnreadable ≤ t'.collapsedUnreadable
  notManaged : t.collapsedNotManaged ≤ t'.collapsedNotManaged

/-- Nodes were taken out of the tracker, and nothing else happened. -/
structure Evicts (t t' : LifecycleExpectationTracker) : Prop extends Grows t t' where
  kept : ∀ (fqn : Str) (node : NodeState), t'.nodes[fqn]? = some node → t.nodes[fqn]? = some node
  lost : ∀ (fqn : Str) (node : NodeState), t.nodes[fqn]? = some node → t'.nodes[fqn]? = some node ∨
    node.isIdle = true ∨ (node.isDeparted t.settings = true ∧ t'.Counted node)
  size : t'.nodes.size ≤ t.nodes.size

variable {t t' t'' : LifecycleExpectationTracker}

theorem Grows.refl (t : LifecycleExpectationTracker) : Grows t t := ⟨rfl, le_rfl, le_rfl, le_rfl⟩

theorem Grows.trans (h : Grows t t') (h' : Grows t' t'') : Grows t t'' :=
  ⟨h'.settings.trans h.settings, h.inactive.trans h'.inactive, h.unreadable.trans h'.unreadable,
    h.notManaged.trans h'.notManaged⟩

theorem Counted.mono {node : NodeState} (h : t.Counted node) (hgrows : Grows t t') :
    t'.Counted node := by
  unfold Counted at h ⊢
  rw [hgrows.settings]
  split
  · rename_i hclimbs
    rw [if_pos hclimbs] at h
    cases hcause : node.cause with
    | unreadable =>
      rw [hcause] at h
      exact Nat.lt_of_lt_of_le h hgrows.unreadable
    | notManaged =>
      rw [hcause] at h
      exact Nat.lt_of_lt_of_le h hgrows.notManaged
  · rename_i hquiet
    rw [if_neg hquiet] at h
    exact fun hstreak => Nat.lt_of_lt_of_le (h hstreak) hgrows.inactive

namespace Evicts

theorem refl (t : LifecycleExpectationTracker) : Evicts t t :=
  { Grows.refl t with kept := fun _ _ h => h, lost := fun _ _ h => .inl h, size := le_rfl }

theorem trans (h : Evicts t t') (h' : Evicts t' t'') : Evicts t t'' where
  toGrows := h.toGrows.trans h'.toGrows
  kept fqn node hnode := h.kept fqn node (h'.kept fqn node hnode)
  lost fqn node hnode := by
    rcases h.lost fqn node hnode with hkept | hidle | ⟨hdeparted, hcounted⟩
    · rw [← h.settings]
      exact h'.lost fqn node hkept
    · exact .inr (.inl hidle)
    · exact .inr (.inr ⟨hdeparted, hcounted.mono h'.toGrows⟩)
  size := h'.size.trans h.size

end Evicts

theorem grows_countCollapsed (t : LifecycleExpectationTracker) (node : NodeState) :
    Grows t (t.countCollapsed node) := by
  unfold countCollapsed
  split
  · split <;> constructor <;> simp
  · split <;> constructor <;> simp

theorem counted_countCollapsed (t : LifecycleExpectationTracker) (node : NodeState) :
    (t.countCollapsed node).Counted node := by
  unfold Counted
  rw [(grows_countCollapsed t node).settings]
  unfold countCollapsed
  split
  · cases hcause : node.cause <;> exact Nat.succ_pos _
  · intro hstreak
    rw [if_pos hstreak]
    exact Nat.succ_pos _

variable {fqn : Str} {ms : List LifecycleMatch} (s : Sweep)

theorem evicts_collapse
    (h : ∀ node : NodeState, t.nodes[fqn]? = some node → node.isDeparted t.settings = true) :
    Evicts t (t.collapse fqn) := by
  unfold collapse
  split
  · exact .refl t
  · rename_i node hnode
    have hgrows := grows_countCollapsed t node
    refine ⟨⟨hgrows.1, hgrows.2, hgrows.3, hgrows.4⟩, ?_, ?_, Std.ExtTreeMap.size_erase_le⟩
    · intro other node' hother
      simp only [Std.ExtTreeMap.getElem?_erase] at hother
      split at hother
      · contradiction
      · exact hother
    · intro other node' hother
      by_cases hsame : fqn = other
      · subst hsame
        rw [hnode] at hother
        cases hother
        exact .inr (.inr ⟨h node hnode, counted_countCollapsed t node⟩)
      · exact .inl ((OMap.getElem?_erase_of_ne hsame).trans hother)

theorem evicts_foldl_collapse {names : List Str}
    (h : ∀ fqn ∈ names, ∀ node : NodeState, t.nodes[fqn]? = some node →
      node.isDeparted t.settings = true) :
    Evicts t (names.foldl collapse t) := by
  induction names generalizing t with
  | nil => exact .refl t
  | cons fqn names ih =>
    have hfirst := evicts_collapse (h fqn List.mem_cons_self)
    apply hfirst.trans
    apply ih
    intro other hother node hnode
    rw [hfirst.settings]
    exact h other (List.mem_cons_of_mem _ hother) node (hfirst.kept other node hnode)

theorem mem_namesWhere {nodes : OMap Str NodeState} {p : Str → NodeState → Bool} :
    fqn ∈ namesWhere nodes p ↔ ∃ node : NodeState, nodes[fqn]? = some node ∧ p fqn node = true := by
  simp only [namesWhere, List.mem_map, List.mem_filter, Prod.exists,
    Std.ExtTreeMap.mem_toList_iff_getElem?_eq_some]
  constructor
  · rintro ⟨fqn', node, h, rfl⟩
    exact ⟨node, h⟩
  · rintro ⟨node, h⟩
    exact ⟨fqn, node, h, rfl⟩

theorem evicts_collapseDeparted (t : LifecycleExpectationTracker) (keepNamed : Nat) :
    Evicts t (t.collapseDeparted keepNamed) := by
  apply evicts_foldl_collapse
  intro fqn hfqn node hnode
  obtain ⟨node', hnode', hdeparted⟩ :=
    mem_namesWhere.mp (List.mem_of_mem_drop (List.mem_reverse.mp hfqn))
  rw [hnode] at hnode'
  cases hnode'
  exact hdeparted

theorem evicts_dropIdle (t : LifecycleExpectationTracker) : Evicts t t.dropIdle where
  toGrows := ⟨rfl, le_rfl, le_rfl, le_rfl⟩
  kept fqn node hnode := by
    simp only [dropIdle, OMap.getElem?_keep, Option.filter_eq_some_iff] at hnode
    exact hnode.1
  lost fqn node hnode := by
    cases hidle : node.isIdle with
    | true => exact .inr (.inl rfl)
    | false =>
      apply Or.inl
      simp [dropIdle, OMap.getElem?_keep, hnode, hidle]
  size := by
    simp only [dropIdle, ← Std.ExtTreeMap.length_toList, OMap.toList_keep]
    exact List.length_filter_le _ _

theorem evicts_makeRoom (t : LifecycleExpectationTracker) : Evicts t t.makeRoom.1 := by
  have hidle := evicts_dropIdle t
  have hsome := hidle.trans (evicts_collapseDeparted t.dropIdle kMaxNamedDepartedEntries)
  fun_cases makeRoom t with
  | case1 => exact hidle
  | case2 => exact hsome
  | case3 =>
    dsimp only
    exact hsome.trans (evicts_collapseDeparted _ 0)

theorem hasRoom_of_makeRoom : t.makeRoom.2 = true → t.makeRoom.1.hasRoom = true := by
  fun_cases makeRoom t with
  | case1 _ hroom => exact fun _ => hroom
  | case2 _ _ _ hroom => exact fun _ => hroom
  | case3 =>
    dsimp only
    exact fun hroom => hroom

/-! ## One matched node -/

/-- What `track` does for a node: it has its entry, a new one, or none. -/
structure Tracks (t : LifecycleExpectationTracker) (fqn : Str)
    (result : LifecycleExpectationTracker × Bool) : Prop extends Grows t result.1 where
  self : result.2 = true → result.1.nodes[fqn]? = some (t.nodes[fqn]?.getD {})
  refused : result.2 = false → result.1.nodes[fqn]? = none
  keeps : t.nodes[fqn]? ≠ none → result.2 = true
  others : ∀ (other : Str) (node : NodeState), other ≠ fqn → result.1.nodes[other]? = some node →
    t.nodes[other]? = some node
  lost : ∀ (other : Str) (node : NodeState), t.nodes[other]? = some node →
    (other ≠ fqn → result.1.nodes[other]? = some node) ∨
      node.isIdle = true ∨ (node.isDeparted t.settings = true ∧ result.1.Counted node)
  size : t.nodes.size ≤ t.settings.nodeCap → result.1.nodes.size ≤ t.settings.nodeCap

theorem Tracks.of_evicts (h : Evicts t t') (hnew : t.nodes[fqn]? = none) :
    Tracks t fqn (t', false) where
  toGrows := h.toGrows
  self := nofun
  refused _ := by
    rw [Option.eq_none_iff_forall_ne_some]
    intro node hnode
    rw [h.kept fqn node hnode] at hnew
    contradiction
  keeps hmem := absurd hnew hmem
  others other node _ hnode := h.kept other node hnode
  lost other node hnode := by
    rcases h.lost other node hnode with hkept | hgone
    · exact .inl fun _ => hkept
    · exact .inr hgone
  size hle := h.size.trans hle

theorem Tracks.of_created (h : Evicts t t') (hnew : t.nodes[fqn]? = none)
    (hroom : t'.hasRoom = true) :
    Tracks t fqn ({ t' with nodes := t'.nodes.insert fqn {} }, true) where
  toGrows := ⟨h.settings, h.inactive, h.unreadable, h.notManaged⟩
  self _ := by
    rw [hnew]
    exact Std.ExtTreeMap.getElem?_insert_self
  refused := nofun
  keeps _ := rfl
  others other node hne hnode := by
    apply h.kept other node
    rw [← hnode]
    exact (OMap.getElem?_insert_of_ne hne.symm _).symm
  lost other node hnode := by
    rcases h.lost other node hnode with hkept | hgone
    · refine .inl fun hne => ?_
      rw [← hkept]
      exact OMap.getElem?_insert_of_ne hne.symm _
    · exact .inr hgone
  size _ := by
    have hlt : t'.nodes.size < t'.settings.nodeCap := of_decide_eq_true hroom
    rw [h.settings] at hlt
    exact Std.ExtTreeMap.size_insert_le.trans hlt

theorem tracks_track (t : LifecycleExpectationTracker) (fqn : Str) : Tracks t fqn (t.track fqn) := by
  unfold track
  by_cases hmem : fqn ∈ t.nodes
  · obtain ⟨node, hnode⟩ := Option.isSome_iff_exists.mp
      (Std.ExtTreeMap.mem_iff_isSome_getElem?.mp hmem)
    rw [if_pos hmem]
    refine ⟨.refl t, ?_, nofun, fun _ => rfl, fun _ _ _ h => h, fun _ _ h => .inl fun _ => h,
      fun h => h⟩
    intro _
    rw [hnode]
    rfl
  · have hnew : t.nodes[fqn]? = none := Std.ExtTreeMap.getElem?_eq_none hmem
    rw [if_neg hmem]
    by_cases hroom : t.hasRoom = true
    · rw [if_pos hroom]
      exact .of_created (.refl t) hnew hroom
    · have hevicts := evicts_makeRoom t
      have hmade := hasRoom_of_makeRoom (t := t)
      rw [if_neg hroom]
      generalize t.makeRoom = made at hevicts hmade ⊢
      obtain ⟨t', room⟩ := made
      cases room with
      | true => exact .of_created hevicts hnew (hmade rfl)
      | false => exact .of_evicts hevicts hnew

structure Matches (s : Sweep) (fqn : Str) (tick : NodeTick) (s' : Sweep) : Prop extends
    Grows s.tracker s'.tracker where
  self : ∀ node : NodeState, s'.tracker.nodes[fqn]? = some node →
    node = ((s.tracker.nodes[fqn]?.getD {}).observe s.tracker.settings tick).1 ∧ fqn ∈ s'.seen
  refused : s'.tracker.nodes[fqn]? = none → s'.saturated = true
  saturated : s.saturated = true → s'.saturated = true
  seen : ∀ other : Str, other ≠ fqn → (other ∈ s'.seen ↔ other ∈ s.seen)
  keeps : s.tracker.nodes[fqn]? ≠ none → s'.tracker.nodes[fqn]? ≠ none
  others : ∀ (other : Str) (node : NodeState), other ≠ fqn → s'.tracker.nodes[other]? = some node →
    s.tracker.nodes[other]? = some node
  lost : ∀ (other : Str) (node : NodeState), s.tracker.nodes[other]? = some node →
    (other ≠ fqn → s'.tracker.nodes[other]? = some node) ∨ node.isIdle = true ∨
      (node.isDeparted s.tracker.settings = true ∧ s'.tracker.Counted node)
  size : s.tracker.nodes.size ≤ s.tracker.settings.nodeCap →
    s'.tracker.nodes.size ≤ s.tracker.settings.nodeCap

@[simp]
theorem Sweep.tracker_cross (fqn : Str) (crossed : Option Clock) :
    (s.cross fqn crossed).tracker = s.tracker := by
  cases crossed with
  | none => rfl
  | some clock => cases clock <;> rfl

@[simp]
theorem Sweep.seen_cross (fqn : Str) (crossed : Option Clock) :
    (s.cross fqn crossed).seen = s.seen := by
  cases crossed with
  | none => rfl
  | some clock => cases clock <;> rfl

@[simp]
theorem Sweep.saturated_cross (fqn : Str) (crossed : Option Clock) :
    (s.cross fqn crossed).saturated = s.saturated := by
  cases crossed with
  | none => rfl
  | some clock => cases clock <;> rfl

theorem matches_matched (fqn : Str) (tick : NodeTick) :
    Matches s fqn tick (s.matched fqn tick) := by
  have htracks := tracks_track s.tracker fqn
  unfold Sweep.matched
  generalize s.tracker.track fqn = result at htracks ⊢
  obtain ⟨t, tracked⟩ := result
  cases tracked with
  | false =>
    have hrefused := htracks.refused rfl
    refine ⟨htracks.toGrows, ?_, fun _ => rfl, fun _ => rfl, fun _ _ => Iff.rfl,
      fun hmem => absurd (htracks.keeps hmem) nofun, htracks.others, htracks.lost, htracks.size⟩
    intro node hnode
    exact absurd (hnode.symm.trans hrefused) nofun
  | true =>
    have hself := htracks.self rfl
    have hsettings : t.settings = s.tracker.settings := htracks.settings
    simp only [if_true, hself, Option.getD_some, hsettings]
    have hother (other : Str) (hne : other ≠ fqn) (node : NodeState) :
        (t.nodes.insert fqn node)[other]? = t.nodes[other]? :=
      OMap.getElem?_insert_of_ne hne.symm _
    constructor
    case toGrows =>
      rw [Sweep.tracker_cross]
      exact ⟨rfl, htracks.inactive, htracks.unreadable, htracks.notManaged⟩
    case self =>
      intro node hnode
      simp only [Sweep.tracker_cross, Std.ExtTreeMap.getElem?_insert_self] at hnode
      cases hnode
      simp
    case refused =>
      intro hnone
      simp at hnone
    case saturated => simp
    case seen =>
      intro other hne
      rw [Sweep.seen_cross]
      exact OSet.mem_insert_iff.trans (or_iff_right hne)
    case keeps =>
      intro _
      simp
    case others =>
      intro other node hne hnode
      simp only [Sweep.tracker_cross, hother other hne] at hnode
      exact htracks.others other node hne hnode
    case lost =>
      intro other node hnode
      rcases htracks.lost other node hnode with hkept | hgone
      · refine .inl fun hne => ?_
        simp only [Sweep.tracker_cross, hother other hne]
        exact hkept hne
      · simp only [Sweep.tracker_cross]
        refine .inr (hgone.imp_right ?_)
        rintro ⟨hdeparted, hcounted⟩
        exact ⟨hdeparted, hcounted.mono ⟨hsettings.symm, le_rfl, le_rfl, le_rfl⟩⟩
    case size =>
      intro hle
      have hsize := htracks.size hle
      simp only [Sweep.tracker_cross]
      rw [Std.ExtTreeMap.size_insert, if_pos]
      · exact hsize
      · exact Std.ExtTreeMap.mem_iff_isSome_getElem?.mpr (by simp [hself])

/-! ## The whole tick -/

theorem collectMatches_spec {tick : NodeTick} (h : (collectMatches ms)[fqn]? = some tick) :
    (∃ m ∈ ms, m.fqn = fqn ∧ m.state = tick.state) ∧
      ∀ entry ∈ tick.entries, ∃ m ∈ ms, m.fqn = fqn ∧ m.entry = entry := by
  induction ms using List.reverseRecOn generalizing tick with
  | nil => simp [collectMatches] at h
  | append_singleton ms m ih =>
    rw [collectMatches, List.foldl_append, List.foldl_cons, List.foldl_nil, ← collectMatches,
      collectMatch] at h
    have hold {fqn : Str} {tick : NodeTick} (hih : (∃ m ∈ ms, m.fqn = fqn ∧ m.state = tick.state) ∧
        ∀ entry ∈ tick.entries, ∃ m ∈ ms, m.fqn = fqn ∧ m.entry = entry) :
        (∃ m' ∈ ms ++ [m], m'.fqn = fqn ∧ m'.state = tick.state) ∧
          ∀ entry ∈ tick.entries, ∃ m' ∈ ms ++ [m], m'.fqn = fqn ∧ m'.entry = entry := by
      obtain ⟨⟨m', hm', hstate⟩, hentries⟩ := hih
      refine ⟨⟨m', List.mem_append_left _ hm', hstate⟩, ?_⟩
      intro entry hentry
      obtain ⟨m', hm', hentry⟩ := hentries entry hentry
      exact ⟨m', List.mem_append_left _ hm', hentry⟩
    by_cases hsame : m.fqn = fqn
    · subst hsame
      rw [Std.ExtTreeMap.getElem?_insert_self] at h
      cases h
      have hself : ∃ m' ∈ ms ++ [m], m'.fqn = m.fqn ∧ m'.state = m.state :=
        ⟨m, by simp, rfl, rfl⟩
      have hentry : ∃ m' ∈ ms ++ [m], m'.fqn = m.fqn ∧ m'.entry = m.entry :=
        ⟨m, by simp, rfl, rfl⟩
      cases hnode : (collectMatches ms)[m.fqn]? with
      | none =>
        have hmem : m.fqn ∉ collectMatches ms := by
          rw [Std.ExtTreeMap.mem_iff_isSome_getElem?, hnode]
          simp
        simp only [Option.getD_none, hmem, not_false_eq_true, true_or, if_true]
        refine ⟨hself, ?_⟩
        simp
      | some old =>
        have hmem : m.fqn ∈ collectMatches ms := by
          rw [Std.ExtTreeMap.mem_iff_isSome_getElem?, hnode]
          rfl
        obtain ⟨hstate, hentries⟩ := hold (ih hnode)
        simp only [Option.getD_some, hmem, not_true_eq_false, false_or]
        constructor
        · split
          · exact hself
          · exact hstate
        · intro entry hmem'
          split at hmem'
          · exact hentries entry hmem'
          · rcases List.mem_append.mp hmem' with hmem' | hmem'
            · exact hentries entry hmem'
            · rw [List.mem_singleton.mp hmem']
              exact hentry
    · rw [OMap.getElem?_insert_of_ne hsame] at h
      exact hold (ih h)

theorem sweepMatched_induct {P : Sweep → Prop} (hstart : P { tracker := t })
    (hstep : ∀ s fqn tick, (collectMatches ms)[fqn]? = some tick → P s →
      ∀ s', Matches s fqn tick s' → P s') : P (t.sweepMatched ms) := by
  unfold sweepMatched
  have hticks : ∀ entry ∈ (collectMatches ms).toList, (collectMatches ms)[entry.1]? = some entry.2 :=
    fun entry hentry => Std.ExtTreeMap.mem_toList_iff_getElem?_eq_some.mp hentry
  generalize (collectMatches ms).toList = entries at hticks
  generalize ({ tracker := t } : Sweep) = s at hstart ⊢
  induction entries generalizing s with
  | nil => exact hstart
  | cons entry entries ih =>
    apply ih (fun other hother => hticks other (List.mem_cons_of_mem _ hother))
    exact hstep s entry.1 entry.2 (hticks entry List.mem_cons_self) hstart _
      (matches_matched s entry.1 entry.2)

theorem settings_sweepMatched (t : LifecycleExpectationTracker) (ms : List LifecycleMatch) :
    (t.sweepMatched ms).tracker.settings = t.settings := by
  apply sweepMatched_induct (P := fun s => s.tracker.settings = t.settings) rfl
  intro s fqn tick _ hs s' hs'
  exact hs'.settings.trans hs

theorem Sweep.nodes_absence (presenceOwned : Option (OSet Str)) (fqn : Str) :
    (s.absence presenceOwned).tracker.nodes[fqn]? = s.tracker.nodes[fqn]?.bind fun node =>
      if s.seen.contains fqn then some node
      else node.missed s.tracker.settings (presenceOwns presenceOwned fqn) := by
  unfold Sweep.absence
  dsimp only
  rw [OMap.getElem?_mapMaybe]

theorem Sweep.saturated_absence (presenceOwned : Option (OSet Str)) :
    (s.absence presenceOwned).saturated = s.saturated := by
  show (s.tracker.nodes.toList.foldl (Sweep.crossMissed presenceOwned) s).saturated = s.saturated
  generalize s.tracker.nodes.toList = entries
  induction entries generalizing s with
  | nil => rfl
  | cons entry entries ih =>
    rw [List.foldl_cons, ih, Sweep.crossMissed]
    split
    · rfl
    · exact Sweep.saturated_cross _ _ _

structure SameNodes (t t' : LifecycleExpectationTracker) : Prop where
  settings : t'.settings = t.settings
  nodes : t'.nodes = t.nodes
  inactive : t'.collapsedInactive = t.collapsedInactive
  unreadable : t'.collapsedUnreadable = t.collapsedUnreadable
  notManaged : t'.collapsedNotManaged = t.collapsedNotManaged

theorem sameNodes_noMatchStep (matched : List Str) (state : LifecycleExpectationTracker × List Str)
    (entry : Str) : SameNodes state.1 (noMatchStep matched state entry).1 := by
  unfold noMatchStep
  dsimp only
  split
  · exact ⟨rfl, rfl, rfl, rfl, rfl⟩
  · split <;> exact ⟨rfl, rfl, rfl, rfl, rfl⟩

theorem sameNodes_update (t : LifecycleExpectationTracker) (ms : List LifecycleMatch)
    (presenceOwned : Option (OSet Str)) :
    SameNodes (t.sweep ms presenceOwned).tracker (t.update ms presenceOwned).1 := by
  unfold update
  dsimp only
  suffices h : ∀ (entries : List Str) (state : LifecycleExpectationTracker × List Str),
      SameNodes (t.sweep ms presenceOwned).tracker state.1 →
      SameNodes (t.sweep ms presenceOwned).tracker
        (entries.foldl (noMatchStep (ms.map (·.entry))) state).1 by
    exact h _ _ ⟨rfl, rfl, rfl, rfl, rfl⟩
  intro entries
  induction entries with
  | nil => exact fun _ h => h
  | cons entry entries ih =>
    intro state h
    have hstep := sameNodes_noMatchStep (ms.map (·.entry)) state entry
    apply ih
    exact ⟨hstep.settings.trans h.settings, hstep.nodes.trans h.nodes,
      hstep.inactive.trans h.inactive, hstep.unreadable.trans h.unreadable,
      hstep.notManaged.trans h.notManaged⟩

theorem nodes_update {P : Str → NodeState → Prop} {presenceOwned : Option (OSet Str)}
    (h : ∀ (fqn : Str) (node : NodeState), t.nodes[fqn]? = some node → P fqn node)
    (hnew : ∀ fqn tick, (collectMatches ms)[fqn]? = some tick → P fqn {})
    (hobserve : ∀ fqn node tick, (collectMatches ms)[fqn]? = some tick → P fqn node →
      P fqn (node.observe t.settings tick).1)
    (hmiss : ∀ fqn node owned, P fqn node → P fqn (node.miss t.settings owned).1) :
    ∀ (fqn : Str) (node : NodeState), (t.update ms presenceOwned).1.nodes[fqn]? = some node →
      P fqn node := by
  have hmatched : (t.sweepMatched ms).tracker.settings = t.settings ∧
      ∀ (fqn : Str) (node : NodeState), (t.sweepMatched ms).tracker.nodes[fqn]? = some node →
        P fqn node := by
    apply sweepMatched_induct (P := fun s => s.tracker.settings = t.settings ∧
      ∀ (fqn : Str) (node : NodeState), s.tracker.nodes[fqn]? = some node → P fqn node) ⟨rfl, h⟩
    rintro s fqn tick htick ⟨hsettings, hs⟩ s' hs'
    refine ⟨hs'.settings.trans hsettings, ?_⟩
    intro other node hnode
    by_cases hsame : other = fqn
    · subst hsame
      rw [(hs'.self node hnode).1, hsettings]
      apply hobserve other _ tick htick
      cases hold : s.tracker.nodes[other]? with
      | none => exact hnew other tick htick
      | some old => exact hs other old hold
    · exact hs other node (hs'.others other node hsame hnode)
  obtain ⟨hsettings, hmatched⟩ := hmatched
  intro fqn node hnode
  rw [(sameNodes_update t ms presenceOwned).nodes, sweep, Sweep.nodes_absence] at hnode
  obtain ⟨old, hold, hstep⟩ := Option.bind_eq_some_iff.mp hnode
  split at hstep
  · cases hstep
    exact hmatched fqn node hold
  · rw [hsettings, NodeState.missed] at hstep
    split at hstep
    · contradiction
    · cases hstep
      exact hmiss fqn old _ (hmatched fqn old hold)

/-! ## Ticks below the cap -/

def stepNode (c : LifecycleSettings) (node : Option NodeState) (tick : Option NodeTick)
    (owned : Bool) : Option NodeState :=
  match tick with
  | some tick => some ((node.getD {}).observe c tick).1
  | none => node.bind (·.missed c owned)

def newcomers (t : LifecycleExpectationTracker) (entries : List (Str × NodeTick)) :
    List (Str × NodeTick) := entries.filter fun entry => entry.1 ∉ t.nodes

def RoomFor (t : LifecycleExpectationTracker) (ms : List LifecycleMatch) : Prop :=
  t.nodes.size + (t.newcomers (collectMatches ms).toList).length ≤ t.settings.nodeCap
deriving Decidable

theorem matched_of_room {s : Sweep} (tick : NodeTick)
    (h : fqn ∈ s.tracker.nodes ∨ s.tracker.hasRoom = true) :
    (s.matched fqn tick).tracker.settings = s.tracker.settings ∧
      (s.matched fqn tick).tracker.nodes = s.tracker.nodes.insert fqn
        ((s.tracker.nodes[fqn]?.getD {}).observe s.tracker.settings tick).1 ∧
      (s.matched fqn tick).seen = s.seen.insert fqn := by
  unfold Sweep.matched track
  by_cases hmem : fqn ∈ s.tracker.nodes
  · simp [hmem]
  · have hroom : s.tracker.hasRoom = true := h.resolve_left hmem
    have hnone : s.tracker.nodes[fqn]? = none := Std.ExtTreeMap.getElem?_eq_none hmem
    simp only [hmem, hroom, if_true, if_false, hnone, Option.getD_none, Sweep.tracker_cross,
      Sweep.seen_cross, Std.ExtTreeMap.getElem?_insert_self, Option.getD_some, and_true, true_and]
    apply Std.ExtTreeMap.ext_getElem?
    intro other
    simp only [Std.ExtTreeMap.getElem?_insert]
    split <;> rfl

theorem length_newcomers_cons (t : LifecycleExpectationTracker) (name : Str) (tick : NodeTick)
    (entries : List (Str × NodeTick)) : (t.newcomers ((name, tick) :: entries)).length =
      (if name ∈ t.nodes then 0 else 1) + (t.newcomers entries).length := by
  by_cases hmem : name ∈ t.nodes <;> simp [newcomers, hmem, Nat.add_comm]

theorem size_insert_node (nodes : OMap Str NodeState) (name : Str) (node : NodeState) :
    (nodes.insert name node).size = nodes.size + if name ∈ nodes then 0 else 1 := by
  rw [Std.ExtTreeMap.size_insert]
  by_cases hmem : name ∈ nodes <;> simp [hmem]

theorem foldl_matched {entries : List (Str × NodeTick)} {s : Sweep}
    (hnodup : (entries.map Prod.fst).Nodup)
    (hroom : s.tracker.nodes.size + (s.tracker.newcomers entries).length ≤ s.tracker.settings.nodeCap) :
    let s' := entries.foldl (fun (s : Sweep) entry => s.matched entry.1 entry.2) s
    s'.tracker.settings = s.tracker.settings ∧
      (∀ fqn tick, (fqn, tick) ∈ entries → s'.tracker.nodes[fqn]? =
        some ((s.tracker.nodes[fqn]?.getD {}).observe s.tracker.settings tick).1) ∧
      (∀ fqn, fqn ∉ entries.map Prod.fst → s'.tracker.nodes[fqn]? = s.tracker.nodes[fqn]?) ∧
      ∀ fqn, fqn ∈ s'.seen ↔ fqn ∈ s.seen ∨ fqn ∈ entries.map Prod.fst := by
  induction entries generalizing s with
  | nil => simp
  | cons entry entries ih =>
    obtain ⟨name, tick⟩ := entry
    rw [List.map_cons, List.nodup_cons] at hnodup
    obtain ⟨hname, hnodup⟩ := hnodup
    have hfits : name ∈ s.tracker.nodes ∨ s.tracker.hasRoom = true := by
      by_cases hmem : name ∈ s.tracker.nodes
      · exact .inl hmem
      · refine .inr (decide_eq_true ?_)
        rw [length_newcomers_cons, if_neg hmem] at hroom
        omega
    obtain ⟨hsettings, hnodes, hseen⟩ := matched_of_room tick hfits
    have hother (fqn : Str) (hne : fqn ≠ name) :
        (s.matched name tick).tracker.nodes[fqn]? = s.tracker.nodes[fqn]? := by
      rw [hnodes]
      exact OMap.getElem?_insert_of_ne hne.symm _
    have hstep : (s.matched name tick).tracker.nodes.size +
        ((s.matched name tick).tracker.newcomers entries).length ≤
          (s.matched name tick).tracker.settings.nodeCap := by
      have hrest : (s.matched name tick).tracker.newcomers entries = s.tracker.newcomers entries := by
        apply List.filter_congr
        intro entry hentry
        have hne : entry.1 ≠ name := fun heq => hname (List.mem_map.mpr ⟨entry, hentry, heq⟩)
        simp only [Std.ExtTreeMap.mem_iff_isSome_getElem?, hother entry.1 hne]
      rw [length_newcomers_cons] at hroom
      rw [hrest, hsettings, hnodes, size_insert_node]
      omega
    obtain ⟨hsettings', hnodes', hothers', hseen'⟩ := ih hnodup hstep
    refine ⟨hsettings'.trans hsettings, ?_, ?_, ?_⟩
    · intro fqn tick' hmem
      rcases List.mem_cons.mp hmem with heq | hmem
      · cases heq
        rw [List.foldl_cons, hothers' name hname, hnodes]
        exact Std.ExtTreeMap.getElem?_insert_self
      · have hne : fqn ≠ name := fun heq => hname (List.mem_map.mpr ⟨_, hmem, heq⟩)
        rw [List.foldl_cons, hnodes' fqn tick' hmem, hother fqn hne, hsettings]
    · intro fqn hmem
      rw [List.map_cons, List.mem_cons, not_or] at hmem
      rw [List.foldl_cons, hothers' fqn hmem.2, hother fqn hmem.1]
    · intro fqn
      rw [List.foldl_cons, hseen' fqn, hseen, List.map_cons, List.mem_cons]
      constructor
      · rintro (hmem | hmem)
        · rcases OSet.mem_insert_iff.mp hmem with heq | hmem
          · exact .inr (.inl heq)
          · exact .inl hmem
        · exact .inr (.inr hmem)
      · rintro (hmem | heq | hmem)
        · exact .inl (OSet.mem_insert_iff.mpr (.inr hmem))
        · exact .inl (OSet.mem_insert_iff.mpr (.inl heq))
        · exact .inr hmem

theorem getElem?_update_of_roomFor (h : t.RoomFor ms) (presenceOwned : Option (OSet Str))
    (fqn : Str) : (t.update ms presenceOwned).1.nodes[fqn]? =
      stepNode t.settings t.nodes[fqn]? (collectMatches ms)[fqn]? (presenceOwns presenceOwned fqn) := by
  have hfold := foldl_matched (s := { tracker := t }) (OMap.nodup_keys_toList (collectMatches ms)) h
  obtain ⟨hsettings, hmatched, hothers, hseen⟩ := hfold
  rw [(sameNodes_update t ms presenceOwned).nodes, sweep, Sweep.nodes_absence]
  have hticks {tick : NodeTick} :
      (fqn, tick) ∈ (collectMatches ms).toList ↔ (collectMatches ms)[fqn]? = some tick :=
    Std.ExtTreeMap.mem_toList_iff_getElem?_eq_some
  have hseen : fqn ∈ (t.sweepMatched ms).seen ↔ fqn ∈ (collectMatches ms).toList.map Prod.fst := by
    rw [sweepMatched, hseen fqn]
    simp
  cases htick : (collectMatches ms)[fqn]? with
  | some tick =>
    have hmem := hticks.mpr htick
    have hcontains : (t.sweepMatched ms).seen.contains fqn = true :=
      hseen.mpr (List.mem_map.mpr ⟨_, hmem, rfl⟩)
    rw [sweepMatched] at hcontains ⊢
    rw [hmatched fqn tick hmem]
    simp only [Option.bind_some, hcontains, if_true, stepNode]
  | none =>
    have hmem : fqn ∉ (collectMatches ms).toList.map Prod.fst := by
      intro hmem
      obtain ⟨⟨name, tick⟩, hentry, rfl⟩ := List.mem_map.mp hmem
      rw [hticks.mp hentry] at htick
      contradiction
    have hcontains : ¬ (t.sweepMatched ms).seen.contains fqn = true := fun h => hmem (hseen.mp h)
    rw [sweepMatched] at hcontains ⊢
    rw [hothers fqn hmem, hsettings]
    simp [hcontains, stepNode]

end LifecycleExpectationTracker

end Medkit.GraphWatchdog
