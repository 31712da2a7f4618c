import Medkit.GraphWatchdog.LifecycleSteps
import Medkit.Lib.Machine

/-! What holds after every tick of the lifecycle expectation tracker: the clocks stay within
their bounds, a node is content of at most one fault and then not pending, the cap is kept,
and a node that could not be tracked is announced. -/
namespace Medkit.GraphWatchdog

open Lib

/-! ## Clocks -/

/-- The observation that a spell without measurements settles as. -/
def LifecycleObservedState.isUnmeasured : LifecycleObservedState → Bool
  | .unreadable | .notManaged => true
  | .active | .inactive => false

structure LifecycleSettings.Sane (c : LifecycleSettings) : Prop where
  grace : 0 ≤ c.grace
  absence : 0 ≤ c.absenceGrace
  hold : kDefaultObservationSettleTicks ≤ c.unmeasuredHoldTicks

namespace NodeState

structure ClocksBounded (c : LifecycleSettings) (node : NodeState) : Prop where
  streakNonneg : 0 ≤ node.violationStreak
  clockNonneg : 0 ≤ node.unmeasuredClock
  streak : node.violationStreak ≤ c.grace + 1
  clock : node.unmeasuredClock ≤ c.unmeasuredHoldTicks + 1
  climbing : node.unmeasuredMatured = false → node.unmeasuredClock ≤ c.unmeasuredHoldTicks
  released : node.unmeasuredMatured = true → node.violationStreak = 0

def Settles (node : NodeState) : Prop :=
  node.unmeasuredMatured = true ∨ kDefaultObservationSettleTicks ≤ node.unmeasuredClock →
    node.settledObserved.isUnmeasured = true

variable {c : LifecycleSettings} {node : NodeState}

theorem ClocksBounded.advanceViolationStreak (h : node.ClocksBounded c)
    (hmatured : node.unmeasuredMatured = false) :
    (node.advanceViolationStreak c).1.ClocksBounded c := by
  obtain ⟨hs, hc, hstreak, hclock, hclimbing, -⟩ := h
  unfold NodeState.advanceViolationStreak
  split
  · exact ⟨hs, hc, hstreak, hclock, hclimbing, by simp [hmatured]⟩
  · refine ⟨?_, hc, ?_, hclock, hclimbing, by simp [hmatured]⟩ <;> dsimp only <;> omega

theorem ClocksBounded.advanceUnmeasuredClock (h : node.ClocksBounded c) :
    (node.advanceUnmeasuredClock c).1.ClocksBounded c := by
  fun_cases NodeState.advanceUnmeasuredClock c node with
  | case1 hmatured => exact h
  | case2 hmatured clock hcross =>
    have hclimbing := h.climbing (by simpa using hmatured)
    have := h.clockNonneg
    have := h.streak
    have := h.streakNonneg
    refine ⟨le_rfl, ?_, ?_, ?_, nofun, fun _ => rfl⟩ <;> dsimp only <;> omega
  | case3 hmatured clock hbelow =>
    have hmatured : node.unmeasuredMatured = false := by simpa using hmatured
    have hclimbing := h.climbing hmatured
    have := h.clockNonneg
    have hclock : clock = node.unmeasuredClock + 1 := if_pos hclimbing
    refine ⟨h.streakNonneg, ?_, h.streak, ?_, fun _ => ?_, by simp [hmatured]⟩ <;>
      dsimp only <;> omega

theorem settled_advanceUnmeasuredClock (c : LifecycleSettings) (node : NodeState) :
    (node.advanceUnmeasuredClock c).1.settledObserved = node.settledObserved := by
  fun_cases NodeState.advanceUnmeasuredClock c node <;> rfl

theorem matured_advanceUnmeasuredClock (hclimbing : node.ClocksBounded c)
    (h : (node.advanceUnmeasuredClock c).1.unmeasuredMatured = true) :
    node.unmeasuredMatured = true ∨ node.unmeasuredClock = c.unmeasuredHoldTicks := by
  revert h
  fun_cases NodeState.advanceUnmeasuredClock c node with
  | case1 hmatured => exact fun _ => .inl hmatured
  | case2 hmatured clock hcross =>
    have hle := hclimbing.climbing (by simpa using hmatured)
    have hclock : clock = node.unmeasuredClock + 1 := if_pos hle
    exact fun _ => .inr (by omega)
  | case3 hmatured clock hbelow => exact fun h => absurd h hmatured

structure Sound (c : LifecycleSettings) (node : NodeState) : Prop where
  clocks : node.ClocksBounded c
  settles : node.Settles

theorem Sound.of_eq {node' : NodeState} (h : node.Sound c)
    (hstreak : node'.violationStreak = node.violationStreak)
    (hclock : node'.unmeasuredClock = node.unmeasuredClock)
    (hmatured : node'.unmeasuredMatured = node.unmeasuredMatured)
    (hsettled : node'.settledObserved = node.settledObserved) : node'.Sound c := by
  obtain ⟨⟨hs, hc, hs', hc', hclimbing, hreleased⟩, hsettles⟩ := h
  refine ⟨⟨?_, ?_, ?_, ?_, ?_, ?_⟩, ?_⟩
  all_goals simp only [Settles, hstreak, hclock, hmatured, hsettled]; assumption

theorem sound_new (hc : c.Sane) : ({} : NodeState).Sound c := by
  have hgrace := hc.grace
  have hhold := hc.hold
  unfold kDefaultObservationSettleTicks at hhold
  refine ⟨⟨le_rfl, le_rfl, ?_, ?_, fun _ => ?_, nofun⟩, ?_⟩
  any_goals
    show (0 : Int) ≤ _
    omega
  rintro (hmatured | hclock) <;> contradiction

theorem Sound.withCause (h : node.Sound c) (cause : LifecycleUnmeasuredCause) :
    (node.withCause cause).Sound c := by
  unfold NodeState.withCause
  split
  · exact h
  · exact h.of_eq rfl rfl rfl rfl

theorem Sound.observeUnmeasured (hc : c.Sane) (h : node.Sound c) {state : LifecycleObservedState}
    (hstate : state.isUnmeasured = true) (cause : LifecycleUnmeasuredCause) :
    (node.observeUnmeasured c state cause).1.Sound c := by
  have hnode := h.withCause cause
  unfold NodeState.observeUnmeasured
  generalize node.withCause cause = node at hnode ⊢
  have hclocks := hnode.clocks.advanceUnmeasuredClock
  have hsettled := settled_advanceUnmeasuredClock c node
  have hmatures := matured_advanceUnmeasuredClock hnode.clocks
  generalize node.advanceUnmeasuredClock c = result at hclocks hsettled hmatures ⊢
  obtain ⟨node', crossed⟩ := result
  dsimp only [settle]
  split
  · exact ⟨⟨hclocks.1, hclocks.2, hclocks.3, hclocks.4, hclocks.5, hclocks.6⟩, fun _ => hstate⟩
  · rename_i hkeeps
    refine ⟨hclocks, ?_⟩
    intro hlong
    rw [hsettled]
    cases hmatured : node'.unmeasuredMatured with
    | true =>
      -- the clock was at the hold, which is past the settling bound
      apply hnode.settles
      rcases hmatures hmatured with hold | hold
      · exact .inl hold
      · exact .inr (hold ▸ hc.hold)
    | false =>
      rcases hlong with hold | hclock
      · rw [hmatured] at hold
        contradiction
      · simp [hmatured, hclock] at hkeeps

theorem Sound.advanceViolationStreak (h : node.Sound c) (hmatured : node.unmeasuredMatured = false) :
    (node.advanceViolationStreak c).1.Sound c := by
  refine ⟨h.clocks.advanceViolationStreak hmatured, ?_⟩
  unfold NodeState.advanceViolationStreak
  split
  · exact h.settles
  · exact h.settles

theorem Sound.of_measured (hc : c.Sane) (hmatured : node.unmeasuredMatured = false)
    (hclock : node.unmeasuredClock = 0) (hs : 0 ≤ node.violationStreak)
    (hstreak : node.violationStreak ≤ c.grace + 1) : node.Sound c := by
  have hold := hc.hold
  unfold kDefaultObservationSettleTicks at hold
  refine ⟨⟨hs, ?_, hstreak, ?_, fun _ => ?_, by simp [hmatured]⟩, ?_⟩
  any_goals omega
  rintro (h | h)
  · rw [hmatured] at h
    contradiction
  · rw [hclock] at h
    contradiction

theorem Sound.observe (hc : c.Sane) (h : node.Sound c) (tick : NodeTick) :
    (node.observe c tick).1.Sound c := by
  have hgrace := hc.grace
  have hpresent : Sound c { node with absentTicks := 0, entries := tick.entries } :=
    h.of_eq rfl rfl rfl rfl
  unfold NodeState.observe
  split
  · apply Sound.of_measured hc rfl rfl le_rfl
    show (0 : Int) ≤ _
    omega
  · refine Sound.advanceViolationStreak ?_ rfl
    exact .of_measured hc rfl rfl h.clocks.streakNonneg h.clocks.streak
  · exact hpresent.observeUnmeasured hc rfl _
  · exact hpresent.observeUnmeasured hc rfl _

theorem Sound.miss (hc : c.Sane) (h : node.Sound c) (owned : Bool) :
    (node.miss c owned).1.Sound c := by
  have hgrace := hc.grace
  have hnode : node.countAbsent.Sound c := by
    unfold countAbsent
    split
    · exact h.of_eq rfl rfl rfl rfl
    · exact h
  unfold NodeState.miss
  generalize node.countAbsent = node at hnode ⊢
  dsimp only
  split
  · split
    · rename_i hsettled
      have hmatured : node.unmeasuredMatured = false := by
        rw [← Bool.not_eq_true]
        intro hmatured
        have := hnode.settles (.inl hmatured)
        rw [hsettled] at this
        contradiction
      have hclear : Sound c { node with unmeasuredClock := 0 } :=
        .of_measured hc hmatured rfl hnode.clocks.streakNonneg hnode.clocks.streak
      split
      · exact hclear.advanceViolationStreak hmatured
      · exact hclear
    iterate 2
      rename_i hsettled
      refine ⟨hnode.clocks.advanceUnmeasuredClock, fun _ => ?_⟩
      rw [settled_advanceUnmeasuredClock, hsettled]
      rfl
    · rename_i hsettled
      unfold releaseUncorroborated
      split
      · exact hnode
      · rename_i hcontent
        apply Sound.of_measured hc ?_ rfl le_rfl
        · show (0 : Int) ≤ _
          omega
        · simp only [isContent, Bool.or_eq_true, not_or, Bool.not_eq_true] at hcontent
          exact hcontent.1
  · exact hnode

theorem isIdle_advanceUnmeasuredClock (h : node.ClocksBounded c) :
    (node.advanceUnmeasuredClock c).1.isIdle = false := by
  have hclock := h.clockNonneg
  fun_cases NodeState.advanceUnmeasuredClock c node with
  | case1 hmatured => simp [isIdle, hmatured]
  | case2 hmatured clock hcross => simp [isIdle]
  | case3 hmatured clock hbelow =>
    have hle := h.climbing (by simpa using hmatured)
    have hclock : clock ≠ 0 := by
      rw [show clock = node.unmeasuredClock + 1 from if_pos hle]
      omega
    simp [isIdle, hclock]

theorem isIdle_advanceViolationStreak (hc : c.Sane) (hs : 0 ≤ node.violationStreak) :
    (node.advanceViolationStreak c).1.isIdle = false := by
  have hgrace := hc.grace
  unfold NodeState.advanceViolationStreak
  split
  · have hne : node.violationStreak ≠ 0 := by omega
    simp [isIdle, hne]
  · have hne : node.violationStreak + 1 ≠ 0 := by omega
    simp [isIdle, hne]

theorem isIdle_settle (node : NodeState) (state : LifecycleObservedState) :
    (node.settle state).isIdle = node.isIdle := by
  unfold settle
  split <;> rfl

theorem isIdle_observeUnmeasured (h : node.Sound c) (state : LifecycleObservedState)
    (cause : LifecycleUnmeasuredCause) : (node.observeUnmeasured c state cause).1.isIdle = false := by
  have hidle := isIdle_advanceUnmeasuredClock (h.withCause cause).clocks
  exact (isIdle_settle _ state).trans hidle

theorem isIdle_observe (hc : c.Sane) (h : node.Sound c) {tick : NodeTick}
    (hstate : classifyObservedState tick.state ≠ .active) :
    (node.observe c tick).1.isIdle = false := by
  have hpresent : Sound c { node with absentTicks := 0, entries := tick.entries } :=
    h.of_eq rfl rfl rfl rfl
  unfold NodeState.observe
  split
  · contradiction
  · exact isIdle_advanceViolationStreak hc h.clocks.streakNonneg
  · exact isIdle_observeUnmeasured hpresent _ _
  · exact isIdle_observeUnmeasured hpresent _ _

theorem absentTicks_advanceViolationStreak (c : LifecycleSettings) (node : NodeState) :
    (node.advanceViolationStreak c).1.absentTicks = node.absentTicks := by
  unfold NodeState.advanceViolationStreak
  split <;> rfl

theorem absentTicks_advanceUnmeasuredClock (c : LifecycleSettings) (node : NodeState) :
    (node.advanceUnmeasuredClock c).1.absentTicks = node.absentTicks := by
  fun_cases NodeState.advanceUnmeasuredClock c node <;> rfl

theorem absentTicks_observeUnmeasured (c : LifecycleSettings) (node : NodeState)
    (state : LifecycleObservedState) (cause : LifecycleUnmeasuredCause) :
    (node.observeUnmeasured c state cause).1.absentTicks = node.absentTicks := by
  have hsettle (node : NodeState) : (node.settle state).absentTicks = node.absentTicks := by
    unfold settle
    split <;> rfl
  have hcause : (node.withCause cause).absentTicks = node.absentTicks := by
    unfold NodeState.withCause
    split <;> rfl
  exact (hsettle _).trans ((absentTicks_advanceUnmeasuredClock c _).trans hcause)

theorem absentTicks_observe (c : LifecycleSettings) (node : NodeState) (tick : NodeTick) :
    (node.observe c tick).1.absentTicks = 0 := by
  unfold NodeState.observe
  split
  · rfl
  · exact absentTicks_advanceViolationStreak c _
  · exact absentTicks_observeUnmeasured c _ _ _
  · exact absentTicks_observeUnmeasured c _ _ _

theorem inUnmeasured_of_inViolation
    (cause : LifecycleUnmeasuredCause) (h : node.inViolation c = true) :
    node.inUnmeasured cause = false := by
  simp only [inViolation, Bool.and_eq_true, Bool.not_eq_true'] at h
  simp [inUnmeasured, h.1.1]

theorem not_pends_of_content (h : node.inViolation c = true ∨ node.inUnmeasured .unreadable = true ∨
      node.inUnmeasured .notManaged = true) :
    ¬ (node.pendsViolation c = true ∨ node.pendsUnmeasured = true) := by
  simp only [pendsViolation, pendsUnmeasured, inUnmeasured,
    Bool.and_eq_true, Bool.not_eq_true', decide_eq_true_eq] at h ⊢
  rcases h with hin | ⟨hmatured, -⟩ | ⟨hmatured, -⟩
  · have hclock : node.unmeasuredClock = 0 := by
      simp only [inViolation, Bool.and_eq_true, decide_eq_true_eq] at hin
      exact hin.1.2
    simp [hin, hclock]
  · simp [hmatured]
  · simp [hmatured]

end NodeState

namespace LifecycleExpectationTracker

/-! ## Reports -/

variable {nodes : OMap Str NodeState} {p : NodeState → Bool} {fqn : Str} {tick : NodeTick}

theorem mem_content {detail : Str → NodeState → Str} :
    fqn ∈ content nodes p detail ↔ ∃ node : NodeState, nodes[fqn]? = some node ∧ p node = true := by
  rw [Std.ExtTreeMap.mem_iff_isSome_getElem?, content, OMap.getElem?_mapMaybe]
  cases hnode : nodes[fqn]? with
  | none => simp
  | some node => by_cases hp : p node = true <;> simp [hp]

theorem mem_addCollapsedContent {affected : OMap Str Str} {count : Nat} {leftAs : Str} :
    fqn ∈ addCollapsedContent affected count leftAs ↔
      fqn ∈ affected ∨ (0 < count ∧ fqn = collapsedKey leftAs) := by
  unfold addCollapsedContent
  split
  · rename_i hzero
    simp [hzero]
  · rename_i hcount
    rw [Std.ExtTreeMap.mem_insert, Std.LawfulEqCmp.compare_eq_iff_eq, or_comm]
    simp [Nat.pos_of_ne_zero hcount, eq_comm]

theorem mem_namesSet :
    fqn ∈ namesSet nodes p ↔ ∃ node : NodeState, nodes[fqn]? = some node ∧ p node = true := by
  rw [namesSet, Std.ExtTreeSet.mem_ofList, List.contains_iff_mem, mem_namesWhere]

def collapsedKeys : List Str :=
  [collapsedKey (str "not active"), collapsedKey (str "with an unread lifecycle state"),
    collapsedKey (str "unmanaged")]

structure Reports (t : LifecycleExpectationTracker) (r : LifecycleExpectationReport) : Prop where
  affected : ∀ fqn, fqn ∈ r.affected ↔
    (∃ node : NodeState, t.nodes[fqn]? = some node ∧ node.inViolation t.settings = true) ∨
      (0 < t.collapsedInactive ∧ fqn = collapsedKey (str "not active"))
  unreadable : ∀ fqn, fqn ∈ r.unreadableAffected ↔
    (∃ node : NodeState, t.nodes[fqn]? = some node ∧ node.inUnmeasured .unreadable = true) ∨
      (0 < t.collapsedUnreadable ∧ fqn = collapsedKey (str "with an unread lifecycle state"))
  notManaged : ∀ fqn, fqn ∈ r.notManagedAffected ↔
    (∃ node : NodeState, t.nodes[fqn]? = some node ∧ node.inUnmeasured .notManaged = true) ∨
      (0 < t.collapsedNotManaged ∧ fqn = collapsedKey (str "unmanaged"))
  pending : ∀ fqn, fqn ∈ r.pending ↔ ∃ node : NodeState, t.nodes[fqn]? = some node ∧
    (node.pendsViolation t.settings = true ∨ node.pendsUnmeasured = true)

theorem reports_update (t : LifecycleExpectationTracker) (ms : List LifecycleMatch)
    (presenceOwned : Option (OSet Str)) :
    Reports (t.update ms presenceOwned).1 (t.update ms presenceOwned).2 := by
  obtain ⟨hsettings, hnodes, hinactive, hunreadable, hnotManaged⟩ :=
    sameNodes_update t ms presenceOwned
  constructor
  case affected =>
    intro fqn
    rw [hsettings, hnodes, hinactive, ← mem_content]
    exact mem_addCollapsedContent
  case unreadable =>
    intro fqn
    rw [hnodes, hunreadable, ← mem_content]
    exact mem_addCollapsedContent
  case notManaged =>
    intro fqn
    rw [hnodes, hnotManaged, ← mem_content]
    exact mem_addCollapsedContent
  case pending =>
    intro fqn
    rw [hsettings, hnodes]
    refine mem_namesSet.trans ?_
    simp only [Bool.or_eq_true]

/-! ## Refused nodes -/

variable {c : LifecycleSettings} {t : LifecycleExpectationTracker}

def Kept (s : Sweep) (fqn : Str) : Prop :=
  s.saturated = true ∨ (fqn ∈ s.seen ∧ ∃ node : NodeState, s.tracker.nodes[fqn]? = some node ∧
    node.isIdle = false ∧ node.absentTicks = 0)

theorem Kept.of_other (hc : c.Sane) {s s' : Sweep} {other : Str} (h : Kept s fqn)
    (hsettings : s.tracker.settings = c) (hmatches : Matches s other tick s') (hne : fqn ≠ other) :
    Kept s' fqn := by
  rcases h with hsaturated | ⟨hseen, node, hnode, hidle, habsent⟩
  · exact .inl (hmatches.saturated hsaturated)
  · refine .inr ⟨(hmatches.seen fqn hne).mpr hseen, node, ?_, hidle, habsent⟩
    rcases hmatches.lost fqn node hnode with hkept | hgone | ⟨hdeparted, -⟩
    · exact hkept hne
    · rw [hidle] at hgone
      contradiction
    · have habsence := hc.absence
      rw [hsettings, NodeState.isDeparted, habsent, decide_eq_true_eq] at hdeparted
      omega

theorem Kept.of_self (hc : c.Sane) {s s' : Sweep} (hsettings : s.tracker.settings = c)
    (hsound : ∀ node : NodeState, s.tracker.nodes[fqn]? = some node → node.Sound c)
    (hmatches : Matches s fqn tick s') (hstate : classifyObservedState tick.state ≠ .active) :
    Kept s' fqn := by
  cases hnode : s'.tracker.nodes[fqn]? with
  | none => exact .inl (hmatches.refused hnode)
  | some node =>
    obtain ⟨heq, hseen⟩ := hmatches.self node hnode
    refine .inr ⟨hseen, node, hnode, ?_, ?_⟩
    · rw [heq, hsettings]
      apply NodeState.isIdle_observe hc ?_ hstate
      cases hold : s.tracker.nodes[fqn]? with
      | none => exact NodeState.sound_new hc
      | some old => exact hsound old hold
    · rw [heq]
      exact NodeState.absentTicks_observe _ _ _

def NodesSound (c : LifecycleSettings) (t : LifecycleExpectationTracker) : Prop :=
  ∀ (fqn : Str) (node : NodeState), t.nodes[fqn]? = some node → node.Sound c

theorem NodesSound.matched (hc : c.Sane) {s s' : Sweep} (h : NodesSound c s.tracker)
    (hsettings : s.tracker.settings = c) (hmatches : Matches s fqn tick s') :
    NodesSound c s'.tracker := by
  intro other node hnode
  by_cases hsame : other = fqn
  · subst hsame
    rw [(hmatches.self node hnode).1, hsettings]
    apply NodeState.Sound.observe hc
    cases hold : s.tracker.nodes[other]? with
    | none => exact NodeState.sound_new hc
    | some old => exact h other old hold
  · exact h other node (hmatches.others other node hsame hnode)

theorem kept_foldl (hc : c.Sane) {entries : List (Str × NodeTick)} {s : Sweep}
    (hnodup : (entries.map Prod.fst).Nodup) (hsettings : s.tracker.settings = c)
    (hsound : NodesSound c s.tracker) (h : (Kept s fqn ∧ fqn ∉ entries.map Prod.fst) ∨
      ∃ tick, (fqn, tick) ∈ entries ∧ classifyObservedState tick.state ≠ .active) :
    Kept (entries.foldl (fun (s : Sweep) entry => s.matched entry.1 entry.2) s) fqn := by
  induction entries generalizing s with
  | nil =>
    rcases h with h | ⟨tick, hmem, -⟩
    · exact h.1
    · exact absurd hmem List.not_mem_nil
  | cons entry entries ih =>
    obtain ⟨name, tick⟩ := entry
    have hmatches := matches_matched s name tick
    rw [List.map_cons, List.nodup_cons] at hnodup
    apply ih hnodup.2 (hmatches.settings.trans hsettings) (hsound.matched hc hsettings hmatches)
    rcases h with ⟨hkept, hnot⟩ | ⟨tick', hmem, hstate⟩
    · rw [List.map_cons, List.mem_cons, not_or] at hnot
      exact .inl ⟨hkept.of_other hc hsettings hmatches hnot.1, hnot.2⟩
    · rcases List.mem_cons.mp hmem with heq | hmem
      · cases heq
        exact .inl ⟨.of_self hc hsettings (hsound _) hmatches hstate, hnodup.1⟩
      · exact .inr ⟨tick', hmem, hstate⟩

theorem saturated_of_refused (hc : c.Sane) (hsettings : t.settings = c) (hsound : NodesSound c t)
    {ms : List LifecycleMatch} (htick : (collectMatches ms)[fqn]? = some tick)
    (hstate : classifyObservedState tick.state ≠ .active) (presenceOwned : Option (OSet Str))
    (hrefused : fqn ∉ (t.update ms presenceOwned).1.nodes) :
    (t.update ms presenceOwned).2.trackingSaturated = true := by
  have hmem : (fqn, tick) ∈ (collectMatches ms).toList :=
    Std.ExtTreeMap.mem_toList_iff_getElem?_eq_some.mpr htick
  have hkept : Kept (t.sweepMatched ms) fqn :=
    kept_foldl hc (OMap.nodup_keys_toList _) hsettings hsound (.inr ⟨tick, hmem, hstate⟩)
  show ((t.sweepMatched ms).absence presenceOwned).saturated = true
  rw [Sweep.saturated_absence]
  rcases hkept with hsaturated | ⟨hseen, node, hnode, -⟩
  · exact hsaturated
  · have hcontains : (t.sweepMatched ms).seen.contains fqn = true := hseen
    refine absurd ?_ hrefused
    rw [Std.ExtTreeMap.mem_iff_isSome_getElem?, (sameNodes_update t ms presenceOwned).nodes, sweep,
      Sweep.nodes_absence, hnode, Option.bind_some, if_pos hcontains]
    rfl

/-! ## Runs -/

structure LifecycleTick where
  ms : List LifecycleMatch
  presenceOwned : Option (OSet Str) := none

def lifecycleMachine (c : LifecycleSettings) :
    Machine LifecycleExpectationTracker LifecycleTick LifecycleExpectationReport where
  init := { settings := c }
  step t tick := t.update tick.ms tick.presenceOwned

/-- No node has the name of a line that counts departed nodes. -/
def PlainNames (_ : LifecycleExpectationTracker) (tick : LifecycleTick) : Prop :=
  ∀ m ∈ tick.ms, m.fqn ∉ collapsedKeys
deriving Decidable

structure TrackerSound (c : LifecycleSettings) (t : LifecycleExpectationTracker) : Prop where
  settings : t.settings = c
  nodes : ∀ (fqn : Str) (node : NodeState), t.nodes[fqn]? = some node →
    node.Sound c ∧ fqn ∉ collapsedKeys
  cap : t.nodes.size ≤ c.nodeCap

theorem settings_update (t : LifecycleExpectationTracker) (ms : List LifecycleMatch)
    (presenceOwned : Option (OSet Str)) : (t.update ms presenceOwned).1.settings = t.settings :=
  (sameNodes_update t ms presenceOwned).settings.trans (settings_sweepMatched t ms)

theorem size_update {ms : List LifecycleMatch} {presenceOwned : Option (OSet Str)}
    (h : t.nodes.size ≤ t.settings.nodeCap) :
    (t.update ms presenceOwned).1.nodes.size ≤ t.settings.nodeCap := by
  have hmatched : (t.sweepMatched ms).tracker.settings = t.settings ∧
      (t.sweepMatched ms).tracker.nodes.size ≤ t.settings.nodeCap := by
    apply sweepMatched_induct (P := fun s => s.tracker.settings = t.settings ∧
      s.tracker.nodes.size ≤ t.settings.nodeCap) ⟨rfl, h⟩
    rintro s fqn tick _ ⟨hsettings, hsize⟩ s' hs'
    refine ⟨hs'.settings.trans hsettings, ?_⟩
    rw [← hsettings] at hsize ⊢
    exact hs'.size hsize
  rw [(sameNodes_update t ms presenceOwned).nodes]
  refine le_trans ?_ hmatched.2
  show (OMap.mapMaybe _ _).size ≤ _
  rw [← Std.ExtTreeMap.length_toList, ← Std.ExtTreeMap.length_toList, OMap.toList_mapMaybe]
  exact List.length_filterMap_le _ _

theorem TrackerSound.update (hc : c.Sane) (h : TrackerSound c t) {tick : LifecycleTick}
    (hplain : PlainNames t tick) : TrackerSound c (t.update tick.ms tick.presenceOwned).1 where
  settings := (settings_update t _ _).trans h.settings
  nodes := by
    have hsettings := h.settings
    refine nodes_update (P := fun fqn node => node.Sound c ∧ fqn ∉ collapsedKeys) h.nodes ?_ ?_ ?_
    · intro fqn record hrecord
      obtain ⟨⟨m, hm, rfl, -⟩, -⟩ := collectMatches_spec hrecord
      exact ⟨NodeState.sound_new hc, hplain m hm⟩
    · rintro fqn node record _ ⟨hsound, hname⟩
      rw [hsettings]
      exact ⟨hsound.observe hc record, hname⟩
    · rintro fqn node owned ⟨hsound, hname⟩
      rw [hsettings]
      exact ⟨hsound.miss hc owned, hname⟩
  cap := by
    have hcap := h.cap
    rw [← h.settings] at hcap ⊢
    exact size_update hcap

theorem trackerSound_of_runs (hc : c.Sane) {history : List (Event _ LifecycleTick _)}
    (hrun : (lifecycleMachine c).Runs PlainNames history t) : TrackerSound c t := by
  apply hrun.invariant (fun _ t => TrackerSound c t)
  · exact ⟨rfl, by simp [lifecycleMachine], by simp [lifecycleMachine]⟩
  · exact fun _ t tick _ hplain h => h.update hc hplain

structure TickSound (c : LifecycleSettings) (ms : List LifecycleMatch)
    (t : LifecycleExpectationTracker) (r : LifecycleExpectationReport) : Prop where
  exclusive : ∀ fqn, ¬ (fqn ∈ r.affected ∧ fqn ∈ r.unreadableAffected) ∧
    ¬ (fqn ∈ r.affected ∧ fqn ∈ r.notManagedAffected) ∧
    ¬ (fqn ∈ r.unreadableAffected ∧ fqn ∈ r.notManagedAffected)
  notPending : ∀ fqn, fqn ∈ r.affected ∨ fqn ∈ r.unreadableAffected ∨ fqn ∈ r.notManagedAffected →
    fqn ∉ r.pending
  released : ∀ (fqn : Str) (node : NodeState), t.nodes[fqn]? = some node →
    node.unmeasuredMatured = true → node.violationStreak = 0
  streak : ∀ (fqn : Str) (node : NodeState), t.nodes[fqn]? = some node →
    node.violationStreak ≤ c.grace + 1
  clock : ∀ (fqn : Str) (node : NodeState), t.nodes[fqn]? = some node →
    node.unmeasuredClock ≤ c.unmeasuredHoldTicks + 1
  cap : (t.nodes.size : Int) ≤ max 1 c.trackedNodeCap
  refused : ∀ fqn tick, (collectMatches ms)[fqn]? = some tick →
    classifyObservedState tick.state ≠ .active → fqn ∉ t.nodes → r.trackingSaturated = true

theorem not_mem_both {q : NodeState → Bool} {key key' : Str} {counted counted' : Prop}
    (hnames : ∀ node : NodeState, nodes[fqn]? = some node → fqn ∉ collapsedKeys)
    (hpq : ∀ node : NodeState, p node = true → q node = false) (hkey : key ∈ collapsedKeys)
    (hkey' : key' ∈ collapsedKeys) (hne : key ≠ key')
    (hp : (∃ node : NodeState, nodes[fqn]? = some node ∧ p node = true) ∨ (counted ∧ fqn = key))
    (hq : (∃ node : NodeState, nodes[fqn]? = some node ∧ q node = true) ∨
      (counted' ∧ fqn = key')) : False := by
  rcases hp with ⟨node, hnode, hp⟩ | ⟨-, rfl⟩
  · rcases hq with ⟨node', hnode', hq⟩ | ⟨-, rfl⟩
    · rw [hnode] at hnode'
      cases hnode'
      rw [hpq node hp] at hq
      contradiction
    · exact hnames node hnode hkey'
  · rcases hq with ⟨node', hnode', hq⟩ | ⟨-, heq⟩
    · exact hnames node' hnode' hkey
    · exact hne heq

theorem lifecycle_ticks_sound (hc : c.Sane) {history : List (Event _ LifecycleTick _)}
    (hrun : (lifecycleMachine c).Runs PlainNames history t) (tick : LifecycleTick)
    (hplain : PlainNames t tick) :
    TickSound c tick.ms (t.update tick.ms tick.presenceOwned).1
      (t.update tick.ms tick.presenceOwned).2 := by
  have hbefore := trackerSound_of_runs hc hrun
  have hafter := hbefore.update hc hplain
  have hreports := reports_update t tick.ms tick.presenceOwned
  have hrefused (fqn : Str) (record : NodeTick)
      (hrecord : (collectMatches tick.ms)[fqn]? = some record)
      (hstate : classifyObservedState record.state ≠ .active) :=
    saturated_of_refused hc hbefore.settings (fun fqn node hnode => (hbefore.nodes fqn node hnode).1)
      hrecord hstate tick.presenceOwned
  generalize t.update tick.ms tick.presenceOwned = result at hafter hreports hrefused ⊢
  obtain ⟨t', r⟩ := result
  have hnames (fqn : Str) (node : NodeState) (hnode : t'.nodes[fqn]? = some node) :=
    (hafter.nodes fqn node hnode).2
  constructor
  case exclusive =>
    intro fqn
    rw [hreports.affected, hreports.unreadable, hreports.notManaged]
    refine ⟨?_, ?_, ?_⟩ <;> rintro ⟨hp, hq⟩ <;>
      refine not_mem_both (hnames fqn) ?_ (by decide) (by decide) (by decide) hp hq
    iterate 2 exact fun _ => NodeState.inUnmeasured_of_inViolation _
    intro node hunreadable
    simp only [NodeState.inUnmeasured, Bool.and_eq_true, decide_eq_true_eq] at hunreadable
    simp [NodeState.inUnmeasured, hunreadable.2]
  case notPending =>
    intro fqn hmem hpending
    obtain ⟨node, hnode, hpends⟩ := (hreports.pending fqn).mp hpending
    have hname := hnames fqn node hnode
    rw [hreports.affected, hreports.unreadable, hreports.notManaged] at hmem
    have hcontent : node.inViolation t'.settings = true ∨ node.inUnmeasured .unreadable = true ∨
        node.inUnmeasured .notManaged = true := by
      simp only [hnode, Option.some.injEq, exists_eq_left'] at hmem
      rcases hmem with (hin | ⟨-, rfl⟩) | (hin | ⟨-, rfl⟩) | (hin | ⟨-, rfl⟩)
      · exact .inl hin
      · exact absurd (by decide) hname
      · exact .inr (.inl hin)
      · exact absurd (by decide) hname
      · exact .inr (.inr hin)
      · exact absurd (by decide) hname
    exact NodeState.not_pends_of_content hcontent hpends
  case released => exact fun fqn node hnode => (hafter.nodes fqn node hnode).1.clocks.released
  case streak => exact fun fqn node hnode => (hafter.nodes fqn node hnode).1.clocks.streak
  case clock => exact fun fqn node hnode => (hafter.nodes fqn node hnode).1.clocks.clock
  case cap =>
    have hcap : t'.nodes.size ≤ c.nodeCap := hafter.cap
    show (t'.nodes.size : Int) ≤ max 1 c.trackedNodeCap
    unfold LifecycleSettings.nodeCap at hcap
    split at hcap <;> omega
  case refused => exact hrefused

def plannerTick (label : Option Str) : LifecycleTick :=
  { ms := [{ entry := str "planner", fqn := str "/planner", state := label }] }

def afterTicks (c : LifecycleSettings) (ticks : List LifecycleTick) : LifecycleExpectationTracker :=
  (lifecycleMachine c).exec (lifecycleMachine c).init ticks

/-- Seven ticks mature the clock of a node that then leaves; a second node takes its place. -/
theorem lifecycle_ticks_sound_of_planner :
    let c : LifecycleSettings :=
      { grace := 0, absenceGrace := 0, unmeasuredHoldTicks := 6, trackedNodeCap := 1 }
    let t := afterTicks c (List.replicate 7 (plannerTick (some [])) ++ [{ ms := [] }])
    let tick : LifecycleTick :=
      { ms := [{ entry := str "lidar", fqn := str "/lidar", state := some (str "inactive") }] }
    let result := t.update tick.ms none
    TickSound c tick.ms result.1 result.2 ∧
      t.nodes[str "/planner"]?.map (·.unmeasuredMatured) = some true ∧
      collapsedKey (str "with an unread lifecycle state") ∈ result.2.unreadableAffected :=
  ⟨lifecycle_ticks_sound ⟨by decide, by decide, by decide⟩
    (Machine.Runs.start.exec _ (by decide +kernel)) _ (by decide), by decide +kernel,
    by decide +kernel⟩

/-- With a grace of minus two a streak of zero is already past it; a cap of zero still keeps
one node; and a node can be named like a line that counts departed ones. -/
theorem streak_cap_and_pending_broken :
    let graceless : LifecycleSettings := { grace := -2 }
    let capless : LifecycleSettings := { grace := 0, trackedNodeCap := 0 }
    let narrow : LifecycleSettings := { grace := 0, absenceGrace := 0, trackedNodeCap := 1 }
    let inactive := plannerTick (some (str "inactive"))
    let key := collapsedKey (str "not active")
    let odd : LifecycleMatch := { entry := str "odd", fqn := key, state := none }
    let r := ((afterTicks narrow [inactive, { ms := [] }]).update [odd] none).2
    (∀ c ∈ [graceless, capless, narrow], kDefaultObservationSettleTicks ≤ c.unmeasuredHoldTicks) ∧
    (∃ node ∈ (afterTicks graceless [inactive]).nodes[str "/planner"]?,
      graceless.grace + 1 < node.violationStreak) ∧
    capless.trackedNodeCap < (afterTicks capless [inactive]).nodes.size ∧
    key ∈ r.affected ∧ key ∈ r.pending := by
  decide

end LifecycleExpectationTracker

end Medkit.GraphWatchdog
