import Medkit.GraphWatchdog.LifecycleInvariants

/-! How long a node that is never read as active can stay out of the reports. Each matched
tick earns it one unit of credit, which a tick without it takes away only where an
unmeasured spell is dropped with the node; and a node out of the reports has no more than
its two clocks hold. -/
namespace Medkit.GraphWatchdog

open Lib

namespace NodeState

variable {c : LifecycleSettings} {node : NodeState}

structure Climbs (c : LifecycleSettings) (node : NodeState) : Prop where
  streak : 0 ≤ node.violationStreak
  clock : 0 ≤ node.unmeasuredClock
  climbing : 0 ≤ c.unmeasuredHoldTicks → node.unmeasuredMatured = false →
    node.unmeasuredClock ≤ c.unmeasuredHoldTicks
  healthy : node.settledObserved = .active → node.violationStreak = 0

theorem climbs_new (c : LifecycleSettings) : ({} : NodeState).Climbs c :=
  ⟨le_rfl, le_rfl, fun hhold _ => hhold, fun _ => rfl⟩

section

variable (h : node.Climbs c)

include h

theorem Climbs.advanceViolationStreak (hsettled : node.settledObserved ≠ .active) :
    (node.advanceViolationStreak c).1.Climbs c := by
  unfold NodeState.advanceViolationStreak
  split
  · exact h
  · have := h.streak
    exact ⟨by dsimp only; omega, h.clock, h.climbing, fun hactive => absurd hactive hsettled⟩

theorem Climbs.advanceUnmeasuredClock : (node.advanceUnmeasuredClock c).1.Climbs c := by
  have := h.clock
  fun_cases NodeState.advanceUnmeasuredClock c node with
  | case1 hmatured => exact h
  | case2 hmatured clock hcross =>
    have hclock : 0 ≤ clock := by dsimp only [clock]; split <;> omega
    refine ⟨le_rfl, hclock, ?_, fun _ => rfl⟩
    intro _ hunmatured
    cases hunmatured
  | case3 hmatured clock hbelow =>
    have hnonneg : 0 ≤ clock := by dsimp only [clock]; split <;> omega
    refine ⟨h.streak, hnonneg, ?_, h.healthy⟩
    intro hhold hunmatured
    have hle := h.climbing hhold hunmatured
    have hclock : clock = node.unmeasuredClock + 1 := if_pos hle
    dsimp only
    omega

theorem Climbs.withCause (cause : LifecycleUnmeasuredCause) : (node.withCause cause).Climbs c := by
  unfold NodeState.withCause
  split
  · exact h
  · exact ⟨h.streak, h.clock, h.climbing, h.healthy⟩

theorem Climbs.settle {state : LifecycleObservedState} (hstate : state ≠ .active) :
    (node.settle state).Climbs c := by
  unfold NodeState.settle
  split
  · exact ⟨h.streak, h.clock, h.climbing, fun hactive => absurd hactive hstate⟩
  · exact h

theorem Climbs.observe (tick : NodeTick) : (node.observe c tick).1.Climbs c := by
  have hseen : { node with absentTicks := 0, entries := tick.entries : NodeState }.Climbs c :=
    ⟨h.streak, h.clock, h.climbing, h.healthy⟩
  unfold NodeState.observe
  split
  · exact ⟨le_rfl, le_rfl, fun hhold _ => hhold, fun _ => rfl⟩
  · apply Climbs.advanceViolationStreak
    · exact ⟨h.streak, le_rfl, fun hhold _ => hhold, nofun⟩
    · exact nofun
  · exact (hseen.withCause _).advanceUnmeasuredClock.settle nofun
  · exact (hseen.withCause _).advanceUnmeasuredClock.settle nofun

theorem Climbs.countAbsent : node.countAbsent.Climbs c := by
  unfold NodeState.countAbsent
  split
  · exact ⟨h.streak, h.clock, h.climbing, h.healthy⟩
  · exact h

theorem Climbs.miss (owned : Bool) : (node.miss c owned).1.Climbs c := by
  have h := h.countAbsent
  unfold NodeState.miss
  dsimp only
  generalize node.countAbsent = node at h ⊢
  split
  · split
    · rename_i hsettled
      have hquiet : { node with unmeasuredClock := 0 : NodeState }.Climbs c :=
        ⟨h.streak, le_rfl, fun hhold _ => hhold, h.healthy⟩
      split
      · exact hquiet.advanceViolationStreak (by simp [hsettled])
      · exact hquiet
    · exact h.advanceUnmeasuredClock
    · exact h.advanceUnmeasuredClock
    · unfold NodeState.releaseUncorroborated
      split
      · exact h
      · exact ⟨le_rfl, le_rfl, fun hhold _ => hhold, fun _ => rfl⟩
  · exact h

end

/-! ## Credit -/

/-- What the ticks of a node out of the reports have added up to. -/
def credit (c : LifecycleSettings) (node : NodeState) : Int :=
  if node.unmeasuredMatured then 0
  else if node.violationStreak > c.grace then node.unmeasuredClock
  else node.violationStreak * (c.unmeasuredHoldTicks + 1) + node.unmeasuredClock

def Hidden (c : LifecycleSettings) (node : NodeState) : Prop :=
  node.inViolation c = false ∧ node.unmeasuredMatured = false

/-- Where the node is gone for good, it leaves no unmeasured spell that is dropped with it:
none is running, or it has settled, or the absence counts for the streak in its place. -/
def LeavesNothing (c : LifecycleSettings) (node : NodeState) (owned : Bool) : Prop :=
  node.countAbsent.absentTicks > c.absenceGrace →
    node.unmeasuredClock = 0 ∨ node.settledObserved.isUnmeasured = true ∨
      (node.settledObserved = .inactive ∧ owned = false)
deriving Decidable

theorem credit_of_eq {node' : NodeState} (hstreak : node'.violationStreak = node.violationStreak)
    (hclock : node'.unmeasuredClock = node.unmeasuredClock)
    (hmatured : node'.unmeasuredMatured = node.unmeasuredMatured) :
    node'.credit c = node.credit c := by
  simp only [credit, hstreak, hclock, hmatured]

theorem credit_lt (hgrace : 0 ≤ c.grace) (hhold : 0 ≤ c.unmeasuredHoldTicks)
    (h : node.Climbs c) (hhidden : node.Hidden c) :
    node.credit c < (c.grace + 1) * (c.unmeasuredHoldTicks + 2) := by
  have hclimbing := h.climbing hhold hhidden.2
  have hclock := h.clock
  have hbudget : c.unmeasuredHoldTicks + 2 ≤ (c.grace + 1) * (c.unmeasuredHoldTicks + 2) :=
    le_mul_of_one_le_left (by omega) (by omega)
  unfold credit
  rw [if_neg (by simp [hhidden.2])]
  split
  · omega
  · have hstreak : node.violationStreak * (c.unmeasuredHoldTicks + 1) ≤
        c.grace * (c.unmeasuredHoldTicks + 1) :=
      mul_le_mul_of_nonneg_right (by omega) (by omega)
    have hexpand : (c.grace + 1) * (c.unmeasuredHoldTicks + 2) =
        c.grace * (c.unmeasuredHoldTicks + 1) + c.grace + c.unmeasuredHoldTicks + 2 := by ring
    omega

section

variable (hhold : 0 ≤ c.unmeasuredHoldTicks)

include hhold

theorem credit_nonneg (h : node.Climbs c) : 0 ≤ node.credit c := by
  have hproduct : 0 ≤ node.violationStreak * (c.unmeasuredHoldTicks + 1) :=
    mul_nonneg h.streak (by omega)
  have hclock := h.clock
  unfold credit
  split
  · exact le_rfl
  · split <;> omega

theorem credit_le_spell (h : node.Climbs c) :
    node.credit c ≤ node.violationStreak * (c.unmeasuredHoldTicks + 1) + c.unmeasuredHoldTicks := by
  have hnonneg : 0 ≤ node.violationStreak * (c.unmeasuredHoldTicks + 1) :=
    mul_nonneg h.streak (by omega)
  have hclimbing := h.climbing
  unfold credit
  split
  · omega
  · rename_i hmatured
    have := hclimbing hhold (by simpa using hmatured)
    split <;> omega

theorem credit_advanceViolationStreak {old : NodeState} (hold : old.Climbs c)
    (hstreak : node.violationStreak = old.violationStreak) (hclock : node.unmeasuredClock = 0)
    (hmatured : node.unmeasuredMatured = false)
    (hhidden : (node.advanceViolationStreak c).1.Hidden c) :
    old.credit c + 1 ≤ (node.advanceViolationStreak c).1.credit c := by
  have hin := hhidden.1
  unfold NodeState.advanceViolationStreak at hin ⊢
  split at hin
  · simp only [inViolation, hmatured, hclock] at hin
    simp_all
  · rename_i hbelow
    have hnext : ¬ old.violationStreak + 1 > c.grace := by
      simpa [inViolation, hmatured, hclock, hstreak] using hin
    have hspell := credit_le_spell hhold hold
    generalize old.credit c = earned at hspell ⊢
    rw [if_neg hbelow]
    simp only [credit, hmatured, hclock, hstreak, if_neg hnext, Bool.false_eq_true, if_false,
      Int.add_mul, Int.one_mul]
    omega

theorem credit_advanceUnmeasuredClock (h : node.Climbs c)
    (hhidden : (node.advanceUnmeasuredClock c).1.unmeasuredMatured = false) :
    node.credit c + 1 = (node.advanceUnmeasuredClock c).1.credit c := by
  revert hhidden
  fun_cases NodeState.advanceUnmeasuredClock c node with
  | case1 hmatured => simp [hmatured]
  | case2 hmatured clock hcross => simp
  | case3 hmatured clock hbelow =>
    intro _
    have hle := h.climbing hhold (by simpa using hmatured)
    have hclock : clock = node.unmeasuredClock + 1 := if_pos hle
    simp only [credit, hmatured, hclock, if_false, Bool.false_eq_true]
    split <;> omega

end

theorem credit_withCause (cause : LifecycleUnmeasuredCause) :
    (node.withCause cause).credit c = node.credit c := by
  unfold NodeState.withCause
  split <;> rfl

theorem credit_settle (state : LifecycleObservedState) :
    (node.settle state).credit c = node.credit c := by
  unfold NodeState.settle
  split <;> rfl

theorem unmeasuredMatured_settle (state : LifecycleObservedState) :
    (node.settle state).unmeasuredMatured = node.unmeasuredMatured := by
  unfold NodeState.settle
  split <;> rfl

theorem credit_observeUnmeasured (hhold : 0 ≤ c.unmeasuredHoldTicks) (h : node.Climbs c)
    {state : LifecycleObservedState} {cause : LifecycleUnmeasuredCause}
    (hhidden : (node.observeUnmeasured c state cause).1.Hidden c) :
    node.credit c + 1 = (node.observeUnmeasured c state cause).1.credit c := by
  have hmatured := hhidden.2
  simp only [NodeState.observeUnmeasured, unmeasuredMatured_settle] at hmatured
  have hstep := credit_advanceUnmeasuredClock hhold (h.withCause cause) hmatured
  rw [credit_withCause] at hstep
  simp only [NodeState.observeUnmeasured, credit_settle]
  exact hstep

theorem credit_observe (hhold : 0 ≤ c.unmeasuredHoldTicks) (h : node.Climbs c) {tick : NodeTick}
    (hstate : classifyObservedState tick.state ≠ .active)
    (hhidden : (node.observe c tick).1.Hidden c) :
    node.credit c + 1 ≤ (node.observe c tick).1.credit c := by
  have hseen : { node with absentTicks := 0, entries := tick.entries : NodeState }.Climbs c :=
    ⟨h.streak, h.clock, h.climbing, h.healthy⟩
  unfold NodeState.observe at hhidden ⊢
  cases hobserved : classifyObservedState tick.state with
  | active => exact absurd hobserved hstate
  | inactive =>
    rw [hobserved] at hhidden
    exact credit_advanceViolationStreak hhold h rfl rfl rfl hhidden
  | unreadable | notManaged =>
    rw [hobserved] at hhidden
    exact (credit_observeUnmeasured hhold hseen hhidden).le

theorem unmeasuredMatured_advanceViolationStreak :
    (node.advanceViolationStreak c).1.unmeasuredMatured = node.unmeasuredMatured := by
  unfold NodeState.advanceViolationStreak
  split <;> rfl

theorem hidden_of_isIdle (hgrace : 0 ≤ c.grace) (h : node.isIdle = true) :
    node.Hidden c ∧ node.credit c = 0 := by
  simp only [isIdle, Bool.and_eq_true, decide_eq_true_eq, Bool.not_eq_true'] at h
  obtain ⟨⟨hstreak, hclock⟩, hmatured⟩ := h
  simp [Hidden, inViolation, credit, hstreak, hclock, hmatured, hgrace]

theorem countAbsent_same (c : LifecycleSettings) (node : NodeState) :
    node.countAbsent.credit c = node.credit c ∧
      node.countAbsent.unmeasuredClock = node.unmeasuredClock ∧
      node.countAbsent.settledObserved = node.settledObserved := by
  unfold NodeState.countAbsent
  split <;> exact ⟨rfl, rfl, rfl⟩

theorem credit_miss (hhold : 0 ≤ c.unmeasuredHoldTicks) (h : node.Climbs c) {owned : Bool}
    (hleaves : node.LeavesNothing c owned) (hhidden : (node.miss c owned).1.Hidden c) :
    node.credit c ≤ (node.miss c owned).1.credit c := by
  have hclimbs := h.countAbsent
  obtain ⟨hcredit, hclock, hsettled⟩ := countAbsent_same c node
  unfold LeavesNothing at hleaves
  unfold NodeState.miss at hhidden ⊢
  rw [← hcredit]
  rw [← hclock, ← hsettled] at hleaves
  dsimp only at hhidden ⊢
  generalize node.countAbsent = node at hclimbs hleaves hhidden ⊢
  by_cases hgone : node.absentTicks > c.absenceGrace
  · rw [if_pos hgone] at hhidden ⊢
    have hleaves := hleaves hgone
    cases hsettled : node.settledObserved with
    | inactive =>
      simp only [hsettled] at hhidden hleaves ⊢
      split at hhidden
      · rename_i hadvances
        rw [if_pos hadvances]
        have hmatured := hhidden.2
        rw [unmeasuredMatured_advanceViolationStreak] at hmatured
        apply le_trans _ (credit_advanceViolationStreak hhold hclimbs ?_ ?_ hmatured hhidden)
        · omega
        · rfl
        · rfl
      · rename_i hheld
        rw [if_neg hheld]
        simp only [Bool.or_eq_true, Bool.not_eq_true', not_or, Bool.not_eq_false] at hheld
        have hclock : node.unmeasuredClock = 0 := by
          simpa [LifecycleObservedState.isUnmeasured, hheld.2] using hleaves
        refine (credit_of_eq ?_ hclock.symm ?_).ge
        · rfl
        · rfl
    | unreadable | notManaged =>
      simp only [hsettled] at hhidden ⊢
      have hstep := credit_advanceUnmeasuredClock hhold hclimbs hhidden.2
      omega
    | active =>
      simp only [hsettled] at hleaves ⊢
      have hstreak := hclimbs.healthy hsettled
      have hclock : node.unmeasuredClock = 0 := by
        simpa [LifecycleObservedState.isUnmeasured] using hleaves
      unfold NodeState.releaseUncorroborated
      split
      · exact le_rfl
      · refine (credit_of_eq hstreak.symm hclock.symm ?_).ge
        rfl
  · rw [if_neg hgone]

end NodeState

def LifecycleExpectationReport.Names (r : LifecycleExpectationReport) (fqn : Str) : Prop :=
  fqn ∈ r.affected ∨ fqn ∈ r.unreadableAffected ∨ fqn ∈ r.notManagedAffected
deriving Decidable

namespace LifecycleExpectationTracker

variable {c : LifecycleSettings} {t : LifecycleExpectationTracker} {fqn : Str}

theorem climbs_of_reachable (ht : (lifecycleMachine c).Reachable t) :
    t.settings = c ∧ ∀ (fqn : Str) (node : NodeState), t.nodes[fqn]? = some node → node.Climbs c := by
  apply ht.invariant (fun t => t.settings = c ∧
    ∀ (fqn : Str) (node : NodeState), t.nodes[fqn]? = some node → node.Climbs c)
  · exact ⟨rfl, by simp [lifecycleMachine]⟩
  · rintro t tick ⟨rfl, hnodes⟩
    refine ⟨settings_update t _ _, ?_⟩
    exact nodes_update (P := fun _ node => node.Climbs t.settings) hnodes
      (fun _ _ _ => NodeState.climbs_new _) (fun _ _ record _ h => h.observe record)
      (fun _ _ owned h => h.miss owned)

theorem hidden_of_not_names {ms : List LifecycleMatch} {presenceOwned : Option (OSet Str)}
    (h : ¬ (t.update ms presenceOwned).2.Names fqn) (node : NodeState)
    (hnode : (t.update ms presenceOwned).1.nodes[fqn]? = some node) : node.Hidden t.settings := by
  have hreports := reports_update t ms presenceOwned
  rw [LifecycleExpectationReport.Names, hreports.affected, hreports.unreadable, hreports.notManaged,
    settings_update, hnode] at h
  simp only [not_or, Option.some.injEq, exists_eq_left', Bool.not_eq_true] at h
  obtain ⟨⟨hviolation, -⟩, ⟨hunreadable, -⟩, ⟨hnotManaged, -⟩⟩ := h
  refine ⟨hviolation, ?_⟩
  cases hcause : node.cause with
  | unreadable => simpa [NodeState.inUnmeasured, hcause] using hunreadable
  | notManaged => simpa [NodeState.inUnmeasured, hcause] using hnotManaged

def isMatched (fqn : Str) (tick : LifecycleTick) : Bool := (collectMatches tick.ms)[fqn]?.isSome

/-- A tick below the cap that does not read the node as active and does not drop an
unmeasured spell of it. -/
def Watched (fqn : Str) (t : LifecycleExpectationTracker) (tick : LifecycleTick) : Prop :=
  t.RoomFor tick.ms ∧
    (∀ record ∈ (collectMatches tick.ms)[fqn]?, classifyObservedState record.state ≠ .active) ∧
    ((collectMatches tick.ms)[fqn]? = none → ∀ node ∈ t.nodes[fqn]?,
      node.LeavesNothing t.settings (presenceOwns tick.presenceOwned fqn))
deriving Decidable

def creditOf (c : LifecycleSettings) (node : Option NodeState) : Int := node.elim 0 (·.credit c)

section Hidden

variable (hgrace : 0 ≤ c.grace) (hhold : 0 ≤ c.unmeasuredHoldTicks)

include hgrace hhold

theorem creditOf_update (ht : (lifecycleMachine c).Reachable t) {tick : LifecycleTick}
    (hwatched : Watched fqn t tick)
    (hhidden : ¬ (t.update tick.ms tick.presenceOwned).2.Names fqn) :
    creditOf c t.nodes[fqn]? + (if isMatched fqn tick then 1 else 0) ≤
      creditOf c (t.update tick.ms tick.presenceOwned).1.nodes[fqn]? := by
  obtain ⟨rfl, hclimbs⟩ := climbs_of_reachable ht
  obtain ⟨hroom, hactive, hleaves⟩ := hwatched
  have hhidden := hidden_of_not_names hhidden
  rw [getElem?_update_of_roomFor hroom] at hhidden ⊢
  cases hrecord : (collectMatches tick.ms)[fqn]? with
  | some record =>
    have hstate := hactive record hrecord
    rw [hrecord] at hhidden
    have hhidden := hhidden _ rfl
    rw [isMatched, hrecord]
    show creditOf _ t.nodes[fqn]? + 1 ≤ ((t.nodes[fqn]?.getD {}).observe t.settings record).1.credit _
    cases hnode : t.nodes[fqn]? with
    | none =>
      rw [hnode] at hhidden
      have hstep := NodeState.credit_observe hhold (NodeState.climbs_new _) hstate hhidden
      have hzero : ({} : NodeState).credit t.settings = 0 := by
        simp [NodeState.credit]
      rwa [hzero] at hstep
    | some node =>
      rw [hnode] at hhidden
      exact NodeState.credit_observe hhold (hclimbs fqn node hnode) hstate hhidden
  | none =>
    rw [isMatched, hrecord]
    cases hnode : t.nodes[fqn]? with
    | none => exact le_rfl
    | some node =>
      have hleaves := hleaves hrecord node hnode
      rw [hrecord, hnode] at hhidden
      simp only [stepNode, Option.bind_some, NodeState.missed] at hhidden ⊢
      have hstep := NodeState.credit_miss hhold (hclimbs fqn node hnode) hleaves
      split at hhidden
      · rename_i hpruned
        obtain ⟨hidle, hzero⟩ := NodeState.hidden_of_isIdle hgrace (Bool.and_eq_true_iff.mp hpruned).2
        rw [if_pos hpruned]
        have hstep := hstep hidle
        rw [hzero] at hstep
        simpa [creditOf] using hstep
      · rename_i hkept
        rw [if_neg hkept]
        simpa [creditOf] using hstep (hhidden _ rfl)

theorem creditOf_lt (ht : (lifecycleMachine c).Reachable t) {tick : LifecycleTick}
    (hhidden : ¬ (t.update tick.ms tick.presenceOwned).2.Names fqn) :
    creditOf c (t.update tick.ms tick.presenceOwned).1.nodes[fqn]? <
      (c.grace + 1) * (c.unmeasuredHoldTicks + 2) := by
  obtain ⟨-, hclimbs⟩ := climbs_of_reachable (ht.step tick)
  have hhidden := hidden_of_not_names hhidden
  rw [(climbs_of_reachable ht).1] at hhidden
  cases hnode : (t.update tick.ms tick.presenceOwned).1.nodes[fqn]? with
  | none => exact mul_pos (by omega) (by omega)
  | some node => exact NodeState.credit_lt hgrace hhold (hclimbs fqn node hnode) (hhidden node hnode)

theorem matched_lt_of_hidden {ticks : List LifecycleTick} (hticks : ticks ≠ [])
    (ht : (lifecycleMachine c).Reachable t)
    (hwatched : (lifecycleMachine c).Guarded (Watched fqn) t ticks)
    (hhidden : ∀ r ∈ (lifecycleMachine c).outputs t ticks, ¬ r.Names fqn) :
    creditOf c t.nodes[fqn]? + ticks.countP (isMatched fqn) <
      (c.grace + 1) * (c.unmeasuredHoldTicks + 2) := by
  induction ticks generalizing t with
  | nil => contradiction
  | cons tick ticks ih =>
    have hfirst := hhidden _ List.mem_cons_self
    have hstep := creditOf_update hgrace hhold ht hwatched.1 hfirst
    rw [List.countP_cons]
    push_cast
    cases ticks with
    | nil =>
      have hlast := creditOf_lt hgrace hhold ht hfirst
      simp only [List.countP_nil]
      omega
    | cons next ticks =>
      have hrest := ih nofun (ht.step tick) hwatched.2 fun r hr =>
        hhidden r (List.mem_cons_of_mem _ hr)
      simp only [lifecycleMachine] at hrest
      omega

/-- A node that is never read as active is reported in the end, whatever its readings and
absences. -/
theorem reported_despite_alternation (ht : (lifecycleMachine c).Reachable t) (fqn : Str)
    (ticks : List LifecycleTick)
    (hwatched : (lifecycleMachine c).Guarded (Watched fqn) t ticks)
    (hmany : (c.grace + 1) * (c.unmeasuredHoldTicks + 2) ≤ ticks.countP (isMatched fqn)) :
    ∃ r ∈ (lifecycleMachine c).outputs t ticks, r.Names fqn := by
  have hpositive : 0 < (c.grace + 1) * (c.unmeasuredHoldTicks + 2) :=
    mul_pos (by omega) (by omega)
  have hstart : 0 ≤ creditOf c t.nodes[fqn]? := by
    cases hnode : t.nodes[fqn]? with
    | none => exact le_rfl
    | some node =>
      exact NodeState.credit_nonneg hhold ((climbs_of_reachable ht).2 fqn node hnode)
  by_contra hnone
  have hticks : ticks ≠ [] := by
    rintro rfl
    rw [List.countP_nil] at hmany
    omega
  have hfew := matched_lt_of_hidden hgrace hhold hticks ht hwatched fun r hr hnames =>
    hnone ⟨r, hr, hnames⟩
  omega

end Hidden

/-- A planner that nothing could ever read: unreadable, gone, unmanaged, and so on. -/
def unreadTicks : List LifecycleTick :=
  (List.replicate 8 [plannerTick (some []), { ms := [] }, plannerTick none]).flatten

theorem reported_despite_alternation_of_planner :
    let c : LifecycleSettings := { grace := 1, absenceGrace := 0, unmeasuredHoldTicks := 6 }
    ∃ r ∈ (lifecycleMachine c).outputs (lifecycleMachine c).init unreadTicks,
      r.Names (str "/planner") :=
  reported_despite_alternation (by decide) (by decide) (Machine.reachable_init _) (str "/planner")
    unreadTicks (by decide) (by decide)

/-- A planner that was active once and then comes up unreadable for five ticks at a time. -/
def restartTicks : List LifecycleTick :=
  plannerTick (some (str "active")) ::
    (List.replicate 13 (List.replicate 5 (plannerTick (some [])) ++
      List.replicate 4 { ms := [] })).flatten

/-- The unread spell is dropped on each departure, so that it never grows. -/
theorem restarts_stay_hidden :
    let c : LifecycleSettings := { grace := 0 }
    let m := lifecycleMachine c
    let fqn := str "/planner"
    m.Guarded (fun t tick => t.RoomFor tick.ms) m.init restartTicks ∧
      (∀ tick ∈ restartTicks.tail, ∀ record ∈ (collectMatches tick.ms)[fqn]?,
        classifyObservedState record.state ≠ .active) ∧
      (c.grace + 1) * (c.unmeasuredHoldTicks + 2) ≤ restartTicks.tail.countP (isMatched fqn) ∧
      ∀ r ∈ m.outputs m.init restartTicks, ¬ r.Names fqn := by
  decide +kernel

end LifecycleExpectationTracker

end Medkit.GraphWatchdog
