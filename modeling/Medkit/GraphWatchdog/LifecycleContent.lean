import Medkit.GraphWatchdog.LifecycleEvasion

/-! What a node that was content of a fault leaves in the later reports. As long as nothing
measures it, its entry keeps its evidence, and an entry that is taken out to make room is
counted for a code. The one kind of evidence that goes uncounted is a streak within the
grace, which a node that was reported has only after its unmeasured clock matured. -/
namespace Medkit.GraphWatchdog

open Lib

namespace NodeState

variable {c : LifecycleSettings} {node : NodeState}

/-- Found not active, or not measured for too long, and not found active since. -/
def Evident (node : NodeState) : Prop :=
  node.unmeasuredMatured = true ∨ (0 < node.violationStreak ∧ node.settledObserved ≠ .active)

def Unconfirmed (c : LifecycleSettings) (node : NodeState) : Prop :=
  node.unmeasuredMatured = false ∧ node.unmeasuredClock ≤ 0 ∧ node.violationStreak ≤ c.grace
deriving Decidable

theorem advanceUnmeasuredClock_of_matured (h : node.unmeasuredMatured = true) :
    (node.advanceUnmeasuredClock c).1 = node := by
  simp [NodeState.advanceUnmeasuredClock, h]

theorem Evident.advanceUnmeasuredClock (h : node.Evident) :
    (node.advanceUnmeasuredClock c).1.Evident := by
  fun_cases NodeState.advanceUnmeasuredClock c node with
  | case1 hmatured => exact h
  | case2 hmatured clock hcross => exact .inl rfl
  | case3 hmatured clock hbelow => exact .inr (h.resolve_left hmatured)

theorem le_violationStreak_advance (c : LifecycleSettings) (node : NodeState) :
    node.violationStreak ≤ (node.advanceViolationStreak c).1.violationStreak := by
  unfold NodeState.advanceViolationStreak
  split
  · exact le_rfl
  · exact Int.le_add_of_nonneg_right (by decide)

theorem violationStreak_advance_pos (hgrace : 0 ≤ c.grace) (h : 0 ≤ node.violationStreak) :
    0 < (node.advanceViolationStreak c).1.violationStreak := by
  unfold NodeState.advanceViolationStreak
  split
  · exact lt_of_le_of_lt hgrace ‹_›
  · exact Int.lt_add_one_of_le h

theorem settledObserved_advanceViolationStreak :
    (node.advanceViolationStreak c).1.settledObserved = node.settledObserved := by
  unfold NodeState.advanceViolationStreak
  split <;> rfl

theorem Evident.advanceViolationStreak (h : node.Evident) :
    (node.advanceViolationStreak c).1.Evident := by
  rcases h with hmatured | ⟨hstreak, hsettled⟩
  · exact .inl (unmeasuredMatured_advanceViolationStreak.trans hmatured)
  · refine .inr ⟨lt_of_lt_of_le hstreak (le_violationStreak_advance c node), ?_⟩
    rwa [settledObserved_advanceViolationStreak]

theorem Evident.settle (h : node.Evident) {state : LifecycleObservedState}
    (hstate : state ≠ .active) : (node.settle state).Evident := by
  unfold NodeState.settle
  split
  · exact h.imp_right fun hstreak => ⟨hstreak.1, hstate⟩
  · exact h

theorem Evident.observeUnmeasured (h : node.Evident) {state : LifecycleObservedState}
    (hstate : state ≠ .active) (cause : LifecycleUnmeasuredCause) :
    (node.observeUnmeasured c state cause).1.Evident := by
  have hcause : (node.withCause cause).Evident := by
    unfold NodeState.withCause
    split
    · exact h
    · exact h
  exact hcause.advanceUnmeasuredClock.settle hstate

theorem Evident.observe (hgrace : 0 ≤ c.grace) (hclimbs : node.Climbs c) (h : node.Evident)
    {tick : NodeTick} (hstate : classifyObservedState tick.state ≠ .active) :
    (node.observe c tick).1.Evident := by
  have hseen : NodeState.Evident { node with absentTicks := 0, entries := tick.entries } := h
  unfold NodeState.observe
  cases hobserved : classifyObservedState tick.state with
  | active => exact absurd hobserved hstate
  | inactive =>
    refine .inr ⟨violationStreak_advance_pos hgrace hclimbs.streak, ?_⟩
    rw [settledObserved_advanceViolationStreak]
    exact nofun
  | unreadable | notManaged =>
    apply hseen.observeUnmeasured
    exact nofun

theorem Evident.countAbsent (h : node.Evident) : node.countAbsent.Evident := by
  unfold NodeState.countAbsent
  split
  · exact h
  · exact h

theorem Evident.miss (h : node.Evident) (owned : Bool) : (node.miss c owned).1.Evident := by
  have h := h.countAbsent
  unfold NodeState.miss
  dsimp only
  generalize node.countAbsent = node at h ⊢
  split
  · cases hsettled : node.settledObserved with
    | inactive =>
      have hquiet : NodeState.Evident
          { node with settledObserved := .inactive, unmeasuredClock := 0 } := by
        rw [← hsettled]
        exact h
      dsimp only
      split
      · exact hquiet.advanceViolationStreak
      · exact hquiet
    | unreadable | notManaged => exact h.advanceUnmeasuredClock
    | active =>
      have hmatured := h.resolve_right fun hstreak => hstreak.2 hsettled
      show NodeState.Evident (node.releaseUncorroborated c)
      rw [NodeState.releaseUncorroborated, if_pos (by simp [isContent, hmatured])]
      exact h
  · exact h

theorem Evident.not_isIdle (h : node.Evident) : node.isIdle = false := by
  rcases h with hmatured | ⟨hstreak, -⟩
  · simp [isIdle, hmatured]
  · simp [isIdle, hstreak.ne']

/-! ## A matured clock -/

theorem matured_observe (h : node.unmeasuredMatured = true) {tick : NodeTick}
    (hstate : (classifyObservedState tick.state).isUnmeasured = true) :
    (node.observe c tick).1.unmeasuredMatured = true := by
  unfold NodeState.observe
  cases hobserved : classifyObservedState tick.state with
  | active | inactive => simp [hobserved, LifecycleObservedState.isUnmeasured] at hstate
  | unreadable | notManaged =>
    simp [NodeState.observeUnmeasured, unmeasuredMatured_settle, withCause,
      NodeState.advanceUnmeasuredClock, h]

theorem matured_miss (h : node.unmeasuredMatured = true) (owned : Bool) :
    (node.miss c owned).1.unmeasuredMatured = true := by
  have h : node.countAbsent.unmeasuredMatured = true := by
    unfold NodeState.countAbsent
    split <;> exact h
  unfold NodeState.miss
  dsimp only
  generalize node.countAbsent = node at h ⊢
  split
  · split
    · split
      · exact unmeasuredMatured_advanceViolationStreak.trans h
      · exact h
    · rwa [advanceUnmeasuredClock_of_matured h]
    · rwa [advanceUnmeasuredClock_of_matured h]
    · rw [NodeState.releaseUncorroborated, if_pos (by simp [isContent, h])]
      exact h
  · exact h

end NodeState

namespace LifecycleExpectationTracker

variable {c : LifecycleSettings} {t t' : LifecycleExpectationTracker} {fqn : Str}

def Counts (t : LifecycleExpectationTracker) : Prop :=
  0 < t.collapsedInactive ∨ 0 < t.collapsedUnreadable ∨ 0 < t.collapsedNotManaged

theorem Counts.mono (h : t.Counts) (hgrows : Grows t t') : t'.Counts := by
  obtain ⟨-, hinactive, hunreadable, hnotManaged⟩ := hgrows
  unfold Counts at h ⊢
  omega

theorem Counted.counts {node : NodeState} (h : t.Counted node)
    (hconfirmed : ¬ node.Unconfirmed t.settings) : t.Counts := by
  unfold Counted at h
  split at h
  · cases hcause : node.cause with
    | unreadable =>
      rw [hcause] at h
      exact .inr (.inl h)
    | notManaged =>
      rw [hcause] at h
      exact .inr (.inr h)
  · rename_i hquiet
    simp only [Bool.or_eq_true, decide_eq_true_eq, not_or, Bool.not_eq_true, Int.not_lt] at hquiet
    apply Or.inl
    apply h
    by_contra hstreak
    exact hconfirmed ⟨hquiet.1, hquiet.2, by omega⟩

def Holds (Q : NodeState → Prop) (fqn : Str) (t : LifecycleExpectationTracker) : Prop :=
  t.Counts ∨ ∃ node : NodeState, t.nodes[fqn]? = some node ∧ Q node

variable {Q : NodeState → Prop}

theorem holds_sweepMatched {ms : List LifecycleMatch} (hidle : ∀ node, Q node → node.isIdle = false)
    (hcounted : ∀ node (t' : LifecycleExpectationTracker), t'.settings = t.settings → Q node →
      node.isDeparted t.settings = true → t'.Counted node → t'.Counts)
    (hobserve : ∀ record, (collectMatches ms)[fqn]? = some record → ∀ node, Q node →
      Q (node.observe t.settings record).1) (h : Holds Q fqn t) :
    Holds Q fqn (t.sweepMatched ms).tracker := by
  have hsweep : (t.sweepMatched ms).tracker.settings = t.settings ∧
      Holds Q fqn (t.sweepMatched ms).tracker := by
    apply sweepMatched_induct (P := fun s => s.tracker.settings = t.settings ∧ Holds Q fqn s.tracker)
      ⟨rfl, h⟩
    rintro s other record hrecord ⟨hsettings, hs⟩ s' hs'
    refine ⟨hs'.settings.trans hsettings, ?_⟩
    rcases hs with hcounts | ⟨node, hnode, hQ⟩
    · exact .inl (hcounts.mono hs'.toGrows)
    · by_cases hsame : fqn = other
      · subst hsame
        obtain ⟨node', hnode'⟩ := Option.ne_none_iff_exists'.mp (hs'.keeps (by simp [hnode]))
        refine .inr ⟨node', hnode', ?_⟩
        rw [(hs'.self node' hnode').1, hnode, hsettings]
        exact hobserve record hrecord node hQ
      · rcases hs'.lost fqn node hnode with hkept | hgone | ⟨hdeparted, hcount⟩
        · exact .inr ⟨node, hkept hsame, hQ⟩
        · rw [hidle node hQ] at hgone
          contradiction
        · rw [hsettings] at hdeparted
          exact .inl (hcounted node _ (hs'.settings.trans hsettings) hQ hdeparted hcount)
  exact hsweep.2

theorem holds_update {ms : List LifecycleMatch} {presenceOwned : Option (OSet Str)}
    (hidle : ∀ node, Q node → node.isIdle = false)
    (hmiss : ∀ node owned, Q node → Q (node.miss t.settings owned).1)
    (h : Holds Q fqn (t.sweepMatched ms).tracker) : Holds Q fqn (t.update ms presenceOwned).1 := by
  obtain ⟨hsettings, hnodes, hinactive, hunreadable, hnotManaged⟩ :=
    sameNodes_update t ms presenceOwned
  rcases h with hcounts | ⟨node, hnode, hQ⟩
  · exact .inl (hcounts.mono ⟨hsettings, hinactive.ge, hunreadable.ge, hnotManaged.ge⟩)
  · apply Or.inr
    rw [hnodes, sweep, Sweep.nodes_absence, hnode, settings_sweepMatched, Option.bind_some]
    split
    · exact ⟨node, rfl, hQ⟩
    · have hmissed := hmiss node (presenceOwns presenceOwned fqn) hQ
      refine ⟨_, if_neg ?_, hmissed⟩
      rw [hidle _ hmissed, Bool.and_false]
      exact Bool.false_ne_true

/-! ## Reports -/

/-- The node is in one of the maps or pends, or a line of one of them counts departed
nodes. -/
def Accounts (r : LifecycleExpectationReport) (fqn : Str) : Prop :=
  r.Names fqn ∨ fqn ∈ r.pending ∨ collapsedKey (str "not active") ∈ r.affected ∨
    collapsedKey (str "with an unread lifecycle state") ∈ r.unreadableAffected ∨
    collapsedKey (str "unmanaged") ∈ r.notManagedAffected
deriving Decidable

theorem accounts_of_holds {r : LifecycleExpectationReport} (hreports : Reports t r)
    (h : Holds NodeState.Evident fqn t) : Accounts r fqn := by
  rcases h with hcounts | ⟨node, hnode, hevident⟩
  · rcases hcounts with hcount | hcount | hcount
    · exact .inr (.inr (.inl ((hreports.affected _).mpr (.inr ⟨hcount, rfl⟩))))
    · exact .inr (.inr (.inr (.inl ((hreports.unreadable _).mpr (.inr ⟨hcount, rfl⟩)))))
    · exact .inr (.inr (.inr (.inr ((hreports.notManaged _).mpr (.inr ⟨hcount, rfl⟩)))))
  · cases hmatured : node.unmeasuredMatured with
    | true =>
      apply Or.inl
      cases hcause : node.cause with
      | unreadable =>
        refine .inr (.inl ((hreports.unreadable fqn).mpr (.inl ⟨node, hnode, ?_⟩)))
        simp [NodeState.inUnmeasured, hmatured, hcause]
      | notManaged =>
        refine .inr (.inr ((hreports.notManaged fqn).mpr (.inl ⟨node, hnode, ?_⟩)))
        simp [NodeState.inUnmeasured, hmatured, hcause]
    | false =>
      have hstreak := (hevident.resolve_left (by simp [hmatured])).1
      cases hin : node.inViolation t.settings with
      | true => exact .inl (.inl ((hreports.affected fqn).mpr (.inl ⟨node, hnode, hin⟩)))
      | false =>
        refine .inr (.inl ((hreports.pending fqn).mpr ⟨node, hnode, .inl ?_⟩))
        simp [NodeState.pendsViolation, hmatured, hin, hstreak]

theorem accounts_of_guarded {guard : LifecycleExpectationTracker → LifecycleTick → Prop}
    (hQ : ∀ node, Q node → node.Evident)
    (hstep : ∀ (t : LifecycleExpectationTracker) (tick : LifecycleTick), t.settings = c →
      guard t tick → Holds Q fqn t → Holds Q fqn (t.update tick.ms tick.presenceOwned).1)
    {ticks : List LifecycleTick} (hsettings : t.settings = c)
    (hguard : (lifecycleMachine c).Guarded guard t ticks) (h : Holds Q fqn t) :
    ∀ r ∈ (lifecycleMachine c).outputs t ticks, Accounts r fqn := by
  induction ticks generalizing t with
  | nil => exact fun r hr => absurd hr List.not_mem_nil
  | cons tick ticks ih =>
    have hafter := hstep t tick hsettings hguard.1 h
    intro r hr
    rcases List.mem_cons.mp hr with rfl | hr
    · apply accounts_of_holds (reports_update t tick.ms tick.presenceOwned)
      exact hafter.imp_right fun ⟨node, hnode, hnodeQ⟩ => ⟨node, hnode, hQ node hnodeQ⟩
    · exact ih ((settings_update t _ _).trans hsettings) hguard.2 hafter r hr

/-! ## Nodes that nothing measures -/

def Unread (fqn : Str) (_ : LifecycleExpectationTracker) (tick : LifecycleTick) : Prop :=
  ∀ record ∈ (collectMatches tick.ms)[fqn]?, (classifyObservedState record.state).isUnmeasured = true

theorem holds_matured_update {tick : LifecycleTick} (hunread : Unread fqn t tick)
    (h : Holds (fun node => node.unmeasuredMatured = true) fqn t) :
    Holds (fun node => node.unmeasuredMatured = true) fqn
      (t.update tick.ms tick.presenceOwned).1 := by
  have hidle (node : NodeState) (hmatured : node.unmeasuredMatured = true) : node.isIdle = false := by
    simp [NodeState.isIdle, hmatured]
  apply holds_update hidle (fun node owned hmatured => NodeState.matured_miss hmatured owned)
  apply holds_sweepMatched hidle _ _ h
  · intro node t' _ hmatured _ hcounted
    exact hcounted.counts (by simp [NodeState.Unconfirmed, hmatured])
  · intro record hrecord node hmatured
    exact NodeState.matured_observe hmatured (hunread record hrecord)

/-- The tick does not read the node as active, and makes no room where all that is known of
the node is a streak within the grace from before it left. -/
def Unhealed (fqn : Str) (t : LifecycleExpectationTracker) (tick : LifecycleTick) : Prop :=
  (∀ record ∈ (collectMatches tick.ms)[fqn]?, classifyObservedState record.state ≠ .active) ∧
    ((∃ node ∈ t.nodes[fqn]?, node.isDeparted t.settings = true ∧ node.Unconfirmed t.settings) →
      t.RoomFor tick.ms)
deriving Decidable

def Found (c : LifecycleSettings) (node : NodeState) : Prop := node.Climbs c ∧ node.Evident

theorem holds_found_update (hgrace : 0 ≤ c.grace) (habsence : 0 ≤ c.absenceGrace)
    (hsettings : t.settings = c) {tick : LifecycleTick} (hunhealed : Unhealed fqn t tick)
    (h : Holds (Found c) fqn t) :
    Holds (Found c) fqn (t.update tick.ms tick.presenceOwned).1 := by
  subst hsettings
  have hidle (node : NodeState) (hfound : Found t.settings node) : node.isIdle = false :=
    hfound.2.not_isIdle
  have hmiss (node : NodeState) (owned : Bool) (hfound : Found t.settings node) :
      Found t.settings (node.miss t.settings owned).1 :=
    ⟨hfound.1.miss owned, hfound.2.miss owned⟩
  have hobserve (record : NodeTick) (hrecord : (collectMatches tick.ms)[fqn]? = some record)
      (node : NodeState) (hfound : Found t.settings node) :
      Found t.settings (node.observe t.settings record).1 :=
    ⟨hfound.1.observe record, hfound.2.observe hgrace hfound.1 (hunhealed.1 record hrecord)⟩
  -- an entry that a tick may take out without counting it is safe only where there is room
  have hsafe (h : Holds (fun node => Found t.settings node ∧
      (node.isDeparted t.settings = true → ¬ node.Unconfirmed t.settings)) fqn t) :
      Holds (Found t.settings) fqn (t.update tick.ms tick.presenceOwned).1 := by
    apply holds_update hidle hmiss
    have hswept : Holds (fun node => Found t.settings node ∧
        (node.isDeparted t.settings = true → ¬ node.Unconfirmed t.settings)) fqn
        (t.sweepMatched tick.ms).tracker := by
      apply holds_sweepMatched (fun node hfound => hidle node hfound.1) _ _ h
      · intro node t' hsettings hfound hdeparted hcounted
        apply hcounted.counts
        rw [hsettings]
        exact hfound.2 hdeparted
      · intro record hrecord node hfound
        refine ⟨hobserve record hrecord node hfound.1, ?_⟩
        rw [NodeState.isDeparted, NodeState.absentTicks_observe, decide_eq_true_eq]
        omega
    refine hswept.imp_right ?_
    rintro ⟨node, hnode, hfound⟩
    exact ⟨node, hnode, hfound.1⟩
  rcases h with hcounts | ⟨node, hnode, hfound⟩
  · exact hsafe (.inl hcounts)
  · by_cases hrisk : node.isDeparted t.settings = true ∧ node.Unconfirmed t.settings
    · have hroom := hunhealed.2 ⟨node, hnode, hrisk⟩
      apply Or.inr
      rw [getElem?_update_of_roomFor hroom, hnode]
      cases hrecord : (collectMatches tick.ms)[fqn]? with
      | some record => exact ⟨_, rfl, hobserve record hrecord node hfound⟩
      | none =>
        have hmissed := hmiss node (presenceOwns tick.presenceOwned fqn) hfound
        refine ⟨_, if_neg ?_, hmissed⟩
        rw [hidle _ hmissed, Bool.and_false]
        exact Bool.false_ne_true
    · exact hsafe (.inr ⟨node, hnode, hfound, fun hdeparted hunconfirmed =>
        hrisk ⟨hdeparted, hunconfirmed⟩⟩)

end LifecycleExpectationTracker

end Medkit.GraphWatchdog
