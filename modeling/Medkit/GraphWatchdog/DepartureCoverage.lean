import Medkit.GraphWatchdog.LifecycleEvasion
import Medkit.GraphWatchdog.LivenessSteps

/-! The two trackers of the watchdog side by side. The lifecycle tracker leaves the absence of
a node to the presence tracker where that one knows the node, as it stood after the tick
before; a node that leaves while it is not active is reported by one of the two, as long as
the `int` counts of missed ticks last. -/
namespace Medkit.GraphWatchdog

open Lib

structure WatchTick where
  ms : List LifecycleMatch
  present : OSet Str
  armed : OSet Str
  handedBack : List Str := []

structure Watchers where
  lifecycle : LifecycleExpectationTracker
  liveness : NodeLivenessTracker

namespace Watchers

def released (s : Watchers) (tick : WatchTick) : NodeLivenessTracker :=
  tick.handedBack.foldl NodeLivenessTracker.release s.liveness

/-- One sweep. Before the first one there is no view of the presence tracker, which is the
same as one that knows no key; nothing is suppressed. -/
def step (s : Watchers) (tick : WatchTick) :
    Watchers × LifecycleExpectationReport × NodeDeathReport :=
  let (lifecycle, report) := s.lifecycle.update tick.ms (some s.liveness.known)
  let (liveness, deaths) := (s.released tick).update tick.present tick.armed
  ({ lifecycle := lifecycle, liveness := liveness.prune ∅ }, report, deaths)

def watchMachine (c : LifecycleSettings) (l : LivenessSettings) :
    Machine Watchers WatchTick (LifecycleExpectationReport × NodeDeathReport) where
  init := { lifecycle := { settings := c }, liveness := { settings := l } }
  step := step

abbrev WatchEvent := Event Watchers WatchTick (LifecycleExpectationReport × NodeDeathReport)

/-- Both trackers are fed from one snapshot, and neither cap is reached. -/
structure Fed (s : Watchers) (tick : WatchTick) : Prop where
  matched : ∀ m ∈ tick.ms, m.fqn ∈ tick.present
  armed : ∀ key ∈ tick.armed.toList, key ∈ tick.present
  handedBack : ∀ key ∈ tick.handedBack, key ∈ tick.present
  lifecycleRoom : s.lifecycle.RoomFor tick.ms
  livenessRoom : (s.released tick).RoomFor tick.present tick.armed

instance decidableFed (s : Watchers) (tick : WatchTick) : Decidable (Fed s tick) :=
  decidable_of_iff
    ((∀ m ∈ tick.ms, m.fqn ∈ tick.present) ∧ (∀ key ∈ tick.armed.toList, key ∈ tick.present) ∧
      (∀ key ∈ tick.handedBack, key ∈ tick.present) ∧ s.lifecycle.RoomFor tick.ms ∧
      (s.released tick).RoomFor tick.present tick.armed)
    ⟨fun h => ⟨h.1, h.2.1, h.2.2.1, h.2.2.2.1, h.2.2.2.2⟩,
      fun h => ⟨h.matched, h.armed, h.handedBack, h.lifecycleRoom, h.livenessRoom⟩⟩

structure SettingsSane (c : LifecycleSettings) (l : LivenessSettings) : Prop where
  grace : 0 ≤ c.grace
  absence : 0 ≤ c.absenceGrace
  horizon : c.absenceGrace < intMax
  missGrace : 0 ≤ l.missGrace ∧ l.missGrace < intMax
  pruneTicks : 0 ≤ l.pruneTicks

def ReadsInactive (fqn : Str) (tick : WatchTick) : Prop :=
  ∃ record, (collectMatches tick.ms)[fqn]? = some record ∧
    classifyObservedState record.state = .inactive

variable {c : LifecycleSettings} {l : LivenessSettings} {s : Watchers} {fqn : Str}
  {tick : WatchTick} {history : List WatchEvent}

/-! ## The lifecycle tracker -/

/-- A node that was last read inactive and has been away for `ticks` ticks; `owned` says
whether the presence tracker knows it. -/
structure LeftInactive (c : LifecycleSettings) (ticks : Nat) (owned : Bool) (node : NodeState) : Prop
    where
  settled : node.settledObserved = .inactive
  unmatured : node.unmeasuredMatured = false
  clock : node.unmeasuredClock = 0
  absent : node.absentTicks = min (ticks : Int) intMax
  started : 1 ≤ node.violationStreak
  streak : owned = false → c.grace < node.violationStreak ∨
    1 + ((ticks : Int) - c.absenceGrace) ≤ node.violationStreak

variable {node : NodeState} {ticks : Nat} {owned : Bool}

theorem leftInactive_observe {record : NodeTick} (hgrace : 0 ≤ c.grace)
    (habsence : 0 ≤ c.absenceGrace) (hnode : 0 ≤ node.violationStreak)
    (hstate : classifyObservedState record.state = .inactive) (owned : Bool) :
    LeftInactive c 0 owned (node.observe c record).1 := by
  unfold NodeState.observe
  simp only [hstate]
  unfold NodeState.advanceViolationStreak
  dsimp only
  split
  · exact ⟨rfl, rfl, rfl, rfl, by dsimp only; omega, fun _ => .inl ‹_›⟩
  · exact ⟨rfl, rfl, rfl, rfl, by dsimp only; omega, fun _ => .inr (by dsimp only; omega)⟩

theorem absentTicks_countAbsent (h : node.absentTicks = min (ticks : Int) intMax) :
    node.countAbsent.absentTicks = min ((ticks + 1 : Nat) : Int) intMax := by
  unfold NodeState.countAbsent
  generalize intMax = horizon at h ⊢
  split
  · dsimp only
    omega
  · omega

theorem leftInactive_miss (hhorizon : c.absenceGrace < intMax)
    (h : LeftInactive c ticks owned node) :
    LeftInactive c (ticks + 1) owned (node.miss c owned).1 := by
  obtain ⟨hsettled, hunmatured, hclock, habsent, hstarted, hstreak⟩ := h
  have hfields : node.countAbsent.settledObserved = node.settledObserved ∧
      node.countAbsent.unmeasuredMatured = node.unmeasuredMatured ∧
      node.countAbsent.unmeasuredClock = node.unmeasuredClock ∧
      node.countAbsent.violationStreak = node.violationStreak := by
    unfold NodeState.countAbsent
    split <;> exact ⟨rfl, rfl, rfl, rfl⟩
  have habsent := absentTicks_countAbsent habsent
  have hheld : node.countAbsent.absentTicks ≤ c.absenceGrace →
      ((ticks + 1 : Nat) : Int) ≤ c.absenceGrace := by omega
  rw [← hfields.1] at hsettled
  rw [← hfields.2.1] at hunmatured
  rw [← hfields.2.2.1] at hclock
  rw [← hfields.2.2.2] at hstarted hstreak
  unfold NodeState.miss
  generalize node.countAbsent = node at hsettled hunmatured hclock habsent hstarted hstreak hheld ⊢
  dsimp only
  split
  · rw [hsettled]
    dsimp only
    split
    · unfold NodeState.advanceViolationStreak
      dsimp only
      split
      · exact ⟨rfl, hunmatured, rfl, habsent, hstarted, fun _ => .inl ‹_›⟩
      · refine ⟨rfl, hunmatured, rfl, habsent, by dsimp only; omega, ?_⟩
        intro howned
        have := hstreak howned
        dsimp only
        omega
    · rename_i howned
      -- the presence tracker knows the node
      refine ⟨rfl, hunmatured, rfl, habsent, hstarted, ?_⟩
      rintro rfl
      simp at howned
  · rename_i hpast
    refine ⟨hsettled, hunmatured, hclock, habsent, hstarted, fun _ => .inr ?_⟩
    have := hheld (not_lt.mp hpast)
    dsimp only
    omega

theorem leftInactive_missed (hhorizon : c.absenceGrace < intMax)
    (h : LeftInactive c ticks owned node) :
    ∃ node', node.missed c owned = some node' ∧ LeftInactive c (ticks + 1) owned node' := by
  have hmiss := leftInactive_miss hhorizon h
  have hbusy : (node.miss c owned).1.isIdle = false := by
    have := hmiss.started
    unfold NodeState.isIdle
    rw [decide_eq_false (by omega)]
    rfl
  refine ⟨_, ?_, hmiss⟩
  unfold NodeState.missed
  simp [hbusy]

theorem inViolation_of_leftInactive (hlate : c.grace + c.absenceGrace ≤ ticks)
    (h : LeftInactive c ticks false node) : node.inViolation c = true := by
  have hpast : c.grace < node.violationStreak := by
    have := h.streak rfl
    omega
  unfold NodeState.inViolation
  simp [h.unmatured, h.clock, hpast]

/-! ## The presence tracker -/

def Missed (t : NodeLivenessTracker) (fqn : Str) (ticks : Nat) (owned : Bool) : Prop :=
  t.known.contains fqn = owned ∧ (owned = true → t.misses[fqn]? = some (ticks : Int))

theorem slot_released (h : fqn ∉ tick.handedBack) :
    (s.released tick).slot fqn = s.liveness.slot fqn := by
  unfold released
  generalize s.liveness = t
  generalize tick.handedBack = keys at h
  induction keys generalizing t with
  | nil => rfl
  | cons key keys ih =>
    rw [List.mem_cons, not_or] at h
    rw [List.foldl_cons, ih _ h.2]
    exact NodeLivenessTracker.slot_release_of_ne h.1

theorem settings_released (s : Watchers) (tick : WatchTick) :
    (s.released tick).settings = s.liveness.settings := by
  unfold released
  generalize s.liveness = t
  induction tick.handedBack generalizing t with
  | nil => rfl
  | cons key keys ih => exact ih (t.release key)

theorem missed_prune {t : NodeLivenessTracker} (hticks : 0 ≤ t.settings.pruneTicks)
    (h : Missed t fqn ticks owned) : Missed (t.prune ∅) fqn ticks owned := by
  have hslot := (NodeLivenessTracker.slot_prune t ∅).2 fqn
  have hkept : ((t.prune ∅).slot fqn).known = (t.slot fqn).known ∧
      ((t.prune ∅).slot fqn).misses = (t.slot fqn).misses := by
    rw [hslot]
    split
    · have hzero : NodeLivenessTracker.nextStreak ∅ fqn (t.slot fqn).streak = 0 := by
        simp [NodeLivenessTracker.nextStreak]
      unfold NodeLivenessTracker.pruned
      dsimp only
      rw [hzero, if_neg (not_lt.mpr hticks)]
      exact ⟨rfl, rfl⟩
    · exact ⟨rfl, rfl⟩
  exact ⟨hkept.1.trans h.1, fun howned => hkept.2.trans (h.2 howned)⟩

theorem missed_update_of_present (hfed : Fed s tick) (hpresent : fqn ∈ tick.present) :
    ∃ owned, Missed ((s.released tick).update tick.present tick.armed).1 fqn 0 owned := by
  have hslot := NodeLivenessTracker.slot_update_of_roomFor hfed.livenessRoom fqn
  refine ⟨_, rfl, ?_⟩
  intro hknown
  have hknown : (((s.released tick).update tick.present tick.armed).1.slot fqn).known = true := hknown
  have hgoal : (((s.released tick).update tick.present tick.armed).1.slot fqn).misses =
      some ((0 : Nat) : Int) := by
    rw [hslot] at hknown ⊢
    unfold NodeLivenessTracker.touched at hknown ⊢
    split
    · simp [hpresent]
    · rename_i hnot
      rw [if_neg hnot] at hknown
      exact absurd (.inl hknown) hnot
  exact hgoal

theorem missed_update_of_absent (hfed : Fed s tick) (habsent : fqn ∉ tick.present)
    (h : Missed s.liveness fqn ticks owned) :
    Missed ((s.released tick).update tick.present tick.armed).1 fqn (ticks + 1) owned := by
  have hslot := NodeLivenessTracker.slot_update_of_roomFor hfed.livenessRoom fqn
  rw [slot_released fun hkey => habsent (hfed.handedBack fqn hkey)] at hslot
  have harmed : fqn ∉ tick.armed := fun harmed =>
    habsent (hfed.armed fqn (Std.ExtTreeSet.mem_toList.mpr harmed))
  have hcontains : ¬ tick.present.contains fqn = true := habsent
  have hknown : (s.liveness.slot fqn).known = owned := h.1
  have hmisses : owned = true → (s.liveness.slot fqn).misses = some (ticks : Int) := h.2
  unfold NodeLivenessTracker.touched at hslot
  simp only [hknown, harmed, or_false, hcontains] at hslot
  split at hslot
  · rename_i howned
    refine ⟨(congrArg NodeLivenessTracker.KeySlot.known hslot).trans howned.symm, fun _ => ?_⟩
    refine (congrArg NodeLivenessTracker.KeySlot.misses hslot).trans ?_
    dsimp only
    rw [hmisses howned]
    rfl
  · rename_i hunowned
    exact ⟨(congrArg NodeLivenessTracker.KeySlot.known hslot).trans hknown,
      fun howned => absurd howned hunowned⟩

theorem mem_dead_of_missed {present armed : OSet Str} {t : NodeLivenessTracker}
    (hlate : t.settings.missGrace < ticks) (h : Missed (t.update present armed).1 fqn ticks true) :
    fqn ∈ (t.update present armed).2.dead := by
  have hsettings := (NodeLivenessTracker.updates_update t present armed).settings
  have hmem := (NodeLivenessTracker.report_update t present armed).2.1 fqn
  refine hmem.mpr (.inl (NodeLivenessTracker.mem_namedKeys.mpr ?_))
  have hknown : fqn ∈ (t.update present armed).1.known := h.1
  unfold NodeLivenessTracker.deadLine
  rw [h.2 rfl, hsettings, if_pos ⟨hknown, hlate⟩]
  rfl

/-! ## Both together -/

theorem settings_updated (s : Watchers) (tick : WatchTick) :
    ((s.released tick).update tick.present tick.armed).1.settings = s.liveness.settings := by
  rw [(NodeLivenessTracker.updates_update _ _ _).settings, settings_released]

structure SettingsKept (c : LifecycleSettings) (l : LivenessSettings) (s : Watchers) : Prop where
  lifecycle : (LifecycleExpectationTracker.lifecycleMachine c).Reachable s.lifecycle
  liveness : s.liveness.settings = l

theorem settingsKept_step (h : SettingsKept c l s) (tick : WatchTick) :
    SettingsKept c l (s.step tick).1 where
  lifecycle := h.lifecycle.step { ms := tick.ms, presenceOwned := some s.liveness.known }
  liveness := (NodeLivenessTracker.slot_prune _ _).1.trans ((settings_updated s tick).trans h.liveness)

theorem settingsKept_of_runs (hrun : (watchMachine c l).Runs Fed history s) : SettingsKept c l s := by
  apply hrun.invariant (fun _ s => SettingsKept c l s)
  · exact ⟨Machine.reachable_init _, rfl⟩
  · exact fun _ s tick _ _ h => settingsKept_step h tick

theorem countsWithin_released {n : Nat} (h : s.liveness.CountsWithin n n) (tick : WatchTick) :
    (s.released tick).CountsWithin n n := by
  unfold released
  generalize s.liveness = t at h
  induction tick.handedBack generalizing t with
  | nil => exact h
  | cons key keys ih => exact ih _ (NodeLivenessTracker.countsWithin_release h key)

theorem countsWithin_of_runs (hrun : (watchMachine c l).Runs Fed history s) :
    s.liveness.CountsWithin history.length history.length := by
  apply hrun.invariant (fun history s => s.liveness.CountsWithin history.length history.length)
  · exact fun key => ⟨le_rfl, le_rfl⟩
  · intro history s tick _ _ h
    have hupdated := NodeLivenessTracker.countsWithin_update (countsWithin_released h tick)
      tick.present tick.armed
    exact NodeLivenessTracker.countsWithin_prune hupdated ∅

def counted (s : Watchers) (tick : WatchTick) (key : Str) : Option Int :=
  (((s.released tick).admitArmed tick.armed).countMisses tick.present).misses[key]?

theorem counted_le {n : Nat} {misses : Int} (h : s.liveness.CountsWithin n n) {key : Str}
    (hmisses : misses ∈ s.counted tick key) : misses ≤ (n + 1 : Nat) := by
  have hkey : (s.counted tick key).getD 0 ≤ (n + 1 : Nat) :=
    (NodeLivenessTracker.countsWithin_countMisses (countsWithin_released h tick) tick.present
      tick.armed key).1
  rwa [hmisses, Option.getD_some] at hkey

def Left (c : LifecycleSettings) (fqn : Str) (ticks : Nat) (owned : Bool) (s : Watchers) : Prop :=
  (∃ node, s.lifecycle.nodes[fqn]? = some node ∧ LeftInactive c ticks owned node) ∧
    Missed s.liveness fqn ticks owned

theorem left_of_readsInactive (hsane : SettingsSane c l) (hkept : SettingsKept c l s)
    (hfed : Fed s tick) (h : ReadsInactive fqn tick) : ∃ owned, Left c fqn 0 owned (s.step tick).1 := by
  obtain ⟨record, hrecord, hstate⟩ := h
  obtain ⟨rfl, hclimbs⟩ := LifecycleExpectationTracker.climbs_of_reachable hkept.lifecycle
  have hpresent : fqn ∈ tick.present := by
    obtain ⟨⟨m, hm, rfl, -⟩, -⟩ := LifecycleExpectationTracker.collectMatches_spec hrecord
    exact hfed.matched m hm
  have hnode : 0 ≤ (s.lifecycle.nodes[fqn]?.getD {}).violationStreak := by
    cases hold : s.lifecycle.nodes[fqn]? with
    | none => exact le_rfl
    | some node => exact (hclimbs fqn node hold).streak
  obtain ⟨owned, hmissed⟩ := missed_update_of_present hfed hpresent
  refine ⟨owned, ⟨_, ?_, leftInactive_observe hsane.grace hsane.absence hnode hstate owned⟩, ?_⟩
  · refine (LifecycleExpectationTracker.getElem?_update_of_roomFor hfed.lifecycleRoom _ fqn).trans ?_
    rw [hrecord]
    rfl
  · apply missed_prune _ hmissed
    rw [settings_updated, hkept.liveness]
    exact hsane.pruneTicks

theorem lifecycle_of_left (hsane : SettingsSane c l) (hkept : SettingsKept c l s)
    (hfed : Fed s tick) (habsent : fqn ∉ tick.present) (h : Left c fqn ticks owned s) :
    ∃ node, (s.step tick).1.lifecycle.nodes[fqn]? = some node ∧
      LeftInactive c (ticks + 1) owned node := by
  obtain ⟨⟨node, hnode, hleft⟩, hmissed⟩ := h
  obtain ⟨node', hstep, hleft'⟩ := leftInactive_missed hsane.horizon hleft
  refine ⟨node', ?_, hleft'⟩
  refine (LifecycleExpectationTracker.getElem?_update_of_roomFor hfed.lifecycleRoom _ fqn).trans ?_
  have hnone : (collectMatches tick.ms)[fqn]? = none := by
    cases hrecord : (collectMatches tick.ms)[fqn]? with
    | none => rfl
    | some record =>
      obtain ⟨⟨m, hm, rfl, -⟩, -⟩ := LifecycleExpectationTracker.collectMatches_spec hrecord
      exact absurd (hfed.matched m hm) habsent
  have howned : LifecycleExpectationTracker.presenceOwns (some s.liveness.known) fqn = owned := hmissed.1
  rw [hnone, hnode, howned, (LifecycleExpectationTracker.climbs_of_reachable hkept.lifecycle).1]
  exact hstep

theorem left_of_absent (hsane : SettingsSane c l) (hkept : SettingsKept c l s) (hfed : Fed s tick)
    (habsent : fqn ∉ tick.present) (h : Left c fqn ticks owned s) :
    Left c fqn (ticks + 1) owned (s.step tick).1 := by
  refine ⟨lifecycle_of_left hsane hkept hfed habsent h, ?_⟩
  apply missed_prune _ (missed_update_of_absent hfed habsent h.2)
  rw [settings_updated, hkept.liveness]
  exact hsane.pruneTicks

theorem left_of_runs (hsane : SettingsSane c l) {newer older : List WatchEvent} {last : WatchEvent}
    (hrun : (watchMachine c l).Runs Fed (newer ++ last :: older) s)
    (hlast : ReadsInactive fqn last.op) (hgone : ∀ event ∈ newer, fqn ∉ event.op.present) :
    ∃ owned, Left c fqn newer.length owned s := by
  induction newer generalizing s with
  | nil =>
    cases hrun with
    | step tick hrun hfed => exact left_of_readsInactive hsane (settingsKept_of_runs hrun) hfed hlast
  | cons event newer ih =>
    cases hrun with
    | step tick hrun hfed =>
      obtain ⟨owned, hleft⟩ := ih hrun fun other hother => hgone other (List.mem_cons_of_mem _ hother)
      have habsent := hgone _ List.mem_cons_self
      exact ⟨owned, left_of_absent hsane (settingsKept_of_runs hrun) hfed habsent hleft⟩

/-- A node that left for good after a label that is not active is named by one of the two
trackers, from some tick on, and no count of missed ticks has left its type by then. -/
theorem departure_reported (hsane : SettingsSane c l) {now last : WatchEvent}
    {newer older : List WatchEvent}
    (hrun : (watchMachine c l).Runs Fed (now :: newer ++ last :: older) s)
    (hlast : ReadsInactive fqn last.op) (hgone : ∀ event ∈ now :: newer, fqn ∉ event.op.present)
    (hlate : max l.missGrace (c.grace + c.absenceGrace) ≤ newer.length)
    (hlength : ((now :: newer ++ last :: older).length : Int) ≤ intMax) :
    (fqn ∈ now.out.1.affected ∨ fqn ∈ now.out.2.dead) ∧
      ∀ key, ∀ misses ∈ now.before.counted now.op key, misses ≤ intMax := by
  cases hrun with
  | step tick hrun hfed =>
    rename_i s
    refine ⟨?_, fun key misses hmisses =>
      (counted_le (countsWithin_of_runs hrun) hmisses).trans hlength⟩
    have habsent : fqn ∉ tick.present := hgone _ List.mem_cons_self
    have hkept := settingsKept_of_runs hrun
    obtain ⟨owned, hleft⟩ := left_of_runs hsane hrun hlast
      fun other hother => hgone other (List.mem_cons_of_mem _ hother)
    cases owned with
    | true =>
      refine .inr (mem_dead_of_missed ?_ (missed_update_of_absent hfed habsent hleft.2))
      rw [settings_released, hkept.liveness]
      push_cast
      omega
    | false =>
      left
      obtain ⟨node, hnode, hleft⟩ := lifecycle_of_left hsane hkept hfed habsent hleft
      have hreports := LifecycleExpectationTracker.reports_update s.lifecycle tick.ms
        (some s.liveness.known)
      refine (hreports.affected fqn).mpr (.inl ⟨node, hnode, ?_⟩)
      rw [LifecycleExpectationTracker.settings_update,
        (LifecycleExpectationTracker.climbs_of_reachable hkept.lifecycle).1]
      apply inViolation_of_leftInactive _ hleft
      push_cast
      omega

def plannerHere (label : Str) : WatchTick where
  ms := [{ entry := str "planner", fqn := str "/planner", state := some label }]
  present := Std.ExtTreeSet.ofList [str "/planner"] compare
  armed := ∅

def nobody : WatchTick := { ms := [], present := ∅, armed := ∅ }

theorem departure_reported_of_planner :
    let m := watchMachine { grace := 0, absenceGrace := 0 } { missGrace := 0 }
    let s := m.exec m.init [plannerHere (str "inactive")]
    (str "/planner" ∈ (m.step s nobody).2.1.affected ∨
      str "/planner" ∈ (m.step s nobody).2.2.dead) ∧
      ∀ key, ∀ misses ∈ s.counted nobody key, misses ≤ intMax := by
  intro m s
  let here := plannerHere (str "inactive")
  have hrun : m.Runs Fed (⟨s, nobody, (m.step s nobody).2⟩ :: [] ++
      ⟨m.init, here, (m.step m.init here).2⟩ :: []) (m.step s nobody).1 :=
    (Machine.Runs.start.step here (by decide)).step nobody (by decide)
  have hlast : ReadsInactive (str "/planner") here :=
    ⟨{ entries := [str "planner"], state := some (str "inactive") }, by decide,
      by decide⟩
  have hsane : SettingsSane { grace := 0, absenceGrace := 0 } { missGrace := 0 } := by
    constructor <;> decide
  exact departure_reported hsane hrun hlast (by decide) (by decide) (by decide)

/-- With a grace of minus one a streak never starts, so the entry is idle and is dropped. -/
theorem idle_departure_unreported :
    let c : LifecycleSettings := { grace := -1, absenceGrace := 0, pruneTicks := 0 }
    let l : LivenessSettings := { missGrace := 0 }
    let m := watchMachine c l
    let ticks := [plannerHere (str "inactive"), nobody, nobody, nobody]
    m.Guarded Fed m.init ticks ∧ max l.missGrace (c.grace + c.absenceGrace) + 2 < 3 ∧
      ∀ r ∈ (m.outputs m.init ticks).drop 1, str "/planner" ∉ r.1.affected ∧ str "/planner" ∉ r.2.dead := by
  decide

end Watchers

end Medkit.GraphWatchdog
