import Medkit.GraphWatchdog.AggregatedFault
import Medkit.GraphWatchdog.LifecycleInvariants
import Medkit.Lib.Utf8

/-! The descriptions of the lifecycle faults. They are never longer than the cap. Labels,
details and descriptions are cut by bytes, so they stay text where the labels are ASCII. -/
namespace Medkit.GraphWatchdog

open Lib

/-! ## Joining and cutting -/

namespace AggregatedFault

def AsciiContent (affected : OMap Str Str) : Prop :=
  ∀ key detail : Str, affected[key]? = some detail → IsAscii key ∧ IsAscii detail

variable {affected : OMap Str Str} {desc key detail : Str}

theorem length_capDescription (desc : Str) : (capDescription desc).length ≤ kMaxDescriptionChars := by
  unfold capDescription
  split
  · have hmarker : (str "...").length = 3 := by decide
    rw [List.length_append, List.length_take, hmarker]
    unfold kMaxDescriptionChars
    omega
  · omega

theorem isAscii_capDescription (hdesc : IsAscii desc) : IsAscii (capDescription desc) := by
  unfold capDescription
  split
  · exact (hdesc.take _).append (isAscii_ofList rfl)
  · exact hdesc

theorem isAscii_appendEntity (hdesc : IsAscii desc) (hkey : IsAscii key) (hdetail : IsAscii detail) :
    IsAscii (appendEntity desc key detail) := by
  unfold appendEntity
  apply IsAscii.append
  · split
    · exact hdesc
    · exact hdesc.append (isAscii_ofList rfl)
  · split
    · exact hkey
    · exact hdetail

theorem isAscii_describeNamed (h : AsciiContent affected) (order : List Str) (emitted : OSet Str)
    (hdesc : IsAscii desc) : IsAscii (describeNamed affected order desc emitted).1 := by
  fun_induction describeNamed affected order desc emitted with
  | case1 => exact hdesc
  | case2 _ _ _ _ _ ih => exact ih hdesc
  | case3 _ _ _ _ _ _ _ ih => exact ih hdesc
  | case4 key order desc emitted detail hdetail =>
    exact isAscii_appendEntity hdesc (h key detail hdetail).1 (h key detail hdetail).2
  | case5 key order desc emitted detail hdetail _ _ _ _ ih =>
    exact ih (isAscii_appendEntity hdesc (h key detail hdetail).1 (h key detail hdetail).2)

theorem isAscii_describeRest (emitted : OSet Str) {entities : List (Str × Str)}
    (h : ∀ entity ∈ entities, IsAscii entity.1 ∧ IsAscii entity.2) (hdesc : IsAscii desc) :
    IsAscii (describeRest emitted entities desc) := by
  induction entities generalizing desc with
  | nil => exact hdesc
  | cons entity entities ih =>
    have hentities : ∀ entity ∈ entities, IsAscii entity.1 ∧ IsAscii entity.2 :=
      fun other hother => h other (List.mem_cons_of_mem _ hother)
    obtain ⟨hkey, hdetail⟩ := h entity List.mem_cons_self
    have hnext := isAscii_appendEntity hdesc hkey hdetail
    rw [describeRest]
    split
    · exact ih hentities hdesc
    · dsimp only
      split
      · exact hnext
      · exact ih hentities hnext

theorem isAscii_describeOrdered (h : AsciiContent affected) (order : List Str) :
    IsAscii (describeOrdered affected order) := by
  have hnamed := isAscii_describeNamed h order ∅ isAscii_nil
  have hentities : ∀ entity ∈ affected.toList, IsAscii entity.1 ∧ IsAscii entity.2 :=
    fun entity hentity => h _ _ (Std.ExtTreeMap.mem_toList_iff_getElem?_eq_some.mp hentity)
  apply isAscii_capDescription
  split
  · exact isAscii_describeRest _ hentities hnamed
  · exact hnamed

end AggregatedFault

theorem isAscii_trimTo {text : Str} (h : IsAscii text) (maxChars : Nat) :
    IsAscii (trimTo text maxChars) := by
  unfold trimTo
  split
  · exact h
  · exact (h.take _).append (isAscii_ofList rfl)

/-! ## The texts that a node keeps -/

namespace NodeState

structure AsciiTexts (node : NodeState) : Prop where
  label : IsAscii node.lastLabel
  entries : ∀ entry ∈ node.entries, IsAscii entry

variable {c : LifecycleSettings} {node node' : NodeState}

section

variable (h : node.AsciiTexts)

include h

theorem AsciiTexts.of_eq (hlabel : node'.lastLabel = node.lastLabel)
    (hentries : node'.entries = node.entries) : node'.AsciiTexts :=
  ⟨hlabel ▸ h.label, hentries ▸ h.entries⟩

theorem AsciiTexts.advanceViolationStreak : (node.advanceViolationStreak c).1.AsciiTexts := by
  unfold NodeState.advanceViolationStreak
  split
  · exact h
  · exact h.of_eq rfl rfl

theorem AsciiTexts.advanceUnmeasuredClock : (node.advanceUnmeasuredClock c).1.AsciiTexts := by
  fun_cases NodeState.advanceUnmeasuredClock c node
  · exact h
  · exact h.of_eq rfl rfl
  · exact h.of_eq rfl rfl

theorem AsciiTexts.observeUnmeasured (state : LifecycleObservedState)
    (cause : LifecycleUnmeasuredCause) : (node.observeUnmeasured c state cause).1.AsciiTexts := by
  have hcause : (node.withCause cause).AsciiTexts := by
    unfold withCause
    split
    · exact h
    · exact h.of_eq rfl rfl
  have hclock := hcause.advanceUnmeasuredClock (c := c)
  unfold NodeState.observeUnmeasured
  dsimp only [settle]
  split
  · exact hclock.of_eq rfl rfl
  · exact hclock

theorem AsciiTexts.observe {tick : NodeTick} (hentries : ∀ entry ∈ tick.entries, IsAscii entry)
    (hstate : ∀ label ∈ tick.state, IsAscii label) : (node.observe c tick).1.AsciiTexts := by
  have hmatched : { node with absentTicks := 0, entries := tick.entries : NodeState }.AsciiTexts :=
    ⟨h.label, hentries⟩
  unfold NodeState.observe
  dsimp only
  split
  · exact ⟨isAscii_nil, hentries⟩
  · apply AsciiTexts.advanceViolationStreak
    refine ⟨isAscii_trimTo ?_ _, hentries⟩
    cases hlabel : tick.state with
    | none => exact isAscii_nil
    | some label => exact hstate label hlabel
  · exact hmatched.observeUnmeasured _ _
  · exact hmatched.observeUnmeasured _ _

theorem AsciiTexts.miss (owned : Bool) : (node.miss c owned).1.AsciiTexts := by
  have habsent : node.countAbsent.AsciiTexts := by
    unfold countAbsent
    split
    · exact h.of_eq rfl rfl
    · exact h
  unfold NodeState.miss
  generalize node.countAbsent = node at habsent ⊢
  dsimp only
  split
  · split
    · split
      · exact AsciiTexts.advanceViolationStreak (habsent.of_eq rfl rfl)
      · exact habsent.of_eq rfl rfl
    · exact habsent.advanceUnmeasuredClock
    · exact habsent.advanceUnmeasuredClock
    · unfold releaseUncorroborated
      split
      · exact habsent
      · exact habsent.of_eq rfl rfl
  · exact habsent

end

theorem isAscii_joinQuoted {entries : List Str} (h : ∀ entry ∈ entries, IsAscii entry) :
    IsAscii (joinQuoted entries) := by
  have hfold (joined : Str) (hjoined : IsAscii joined) : IsAscii (entries.foldl
      (fun joined entry =>
        (if joined = [] then joined else joined ++ str ", ") ++ str "'" ++ entry ++ str "'")
      joined) := by
    induction entries generalizing joined with
    | nil => exact hjoined
    | cons entry entries ih =>
      apply ih (fun other hother => h other (List.mem_cons_of_mem _ hother))
      refine ((IsAscii.append ?_ (isAscii_ofList rfl)).append (h entry List.mem_cons_self)).append
        (isAscii_ofList rfl)
      split
      · exact hjoined
      · exact hjoined.append (isAscii_ofList rfl)
  exact hfold [] isAscii_nil

theorem isAscii_departedPhrase (departed : Bool) : IsAscii (departedPhrase departed) := by
  cases departed
  · exact isAscii_nil
  · exact isAscii_ofList rfl

theorem AsciiTexts.inactiveDetail (h : node.AsciiTexts) {fqn : Str} (hfqn : IsAscii fqn) :
    IsAscii (NodeState.inactiveDetail c fqn node) := by
  apply isAscii_trimTo
  have hjoined := isAscii_joinQuoted h.entries
  have hphrase := isAscii_departedPhrase (node.isDeparted c)
  repeat' apply IsAscii.append
  all_goals first | assumption | exact h.label | exact isAscii_ofList rfl

theorem AsciiTexts.unmeasuredDetail (h : node.AsciiTexts) {fqn : Str} (hfqn : IsAscii fqn) :
    IsAscii (NodeState.unmeasuredDetail c fqn node) := by
  apply isAscii_trimTo
  have hjoined := isAscii_joinQuoted h.entries
  have hphrase := isAscii_departedPhrase (node.isDeparted c)
  cases node.cause
  all_goals
    repeat' apply IsAscii.append
    all_goals first | assumption | exact isAscii_ofList rfl

end NodeState

/-! ## Over whole runs -/

namespace LifecycleExpectationTracker

variable {c : LifecycleSettings} {t : LifecycleExpectationTracker}

def descriptions (r : LifecycleExpectationReport) : List Str :=
  [AggregatedFault.describeOrdered r.affected r.newlyAffected,
    AggregatedFault.describeOrdered r.unreadableAffected r.newlyUnreadable,
    AggregatedFault.describeOrdered r.notManagedAffected r.newlyNotManaged]

/-- Names of nodes are ASCII, and so are the entries that match them. -/
def AsciiNames (_ : LifecycleExpectationTracker) (tick : LifecycleTick) : Prop :=
  ∀ m ∈ tick.ms, IsAscii m.fqn ∧ IsAscii m.entry
deriving Decidable

def AsciiLabels (tick : LifecycleTick) : Prop := ∀ m ∈ tick.ms, ∀ label ∈ m.state, IsAscii label

def AsciiNodes (t : LifecycleExpectationTracker) : Prop :=
  ∀ (fqn : Str) (node : NodeState), t.nodes[fqn]? = some node → IsAscii fqn ∧ node.AsciiTexts

theorem AsciiNodes.update (h : t.AsciiNodes) {tick : LifecycleTick} (hnames : AsciiNames t tick)
    (hlabels : AsciiLabels tick) : (t.update tick.ms tick.presenceOwned).1.AsciiNodes := by
  refine nodes_update (P := fun fqn node => IsAscii fqn ∧ node.AsciiTexts) h ?_ ?_ ?_
  · intro fqn record hrecord
    obtain ⟨⟨m, hm, rfl, -⟩, -⟩ := collectMatches_spec hrecord
    exact ⟨(hnames m hm).1, isAscii_nil, nofun⟩
  · intro fqn node record hrecord hnode
    obtain ⟨⟨m, hm, -, hstate⟩, hentries⟩ := collectMatches_spec hrecord
    refine ⟨hnode.1, hnode.2.observe ?_ (hstate ▸ hlabels m hm)⟩
    intro entry hentry
    obtain ⟨m', hm', -, rfl⟩ := hentries entry hentry
    exact (hnames m' hm').2
  · exact fun fqn node owned hnode => ⟨hnode.1, hnode.2.miss owned⟩

theorem asciiContent_content (h : t.AsciiNodes) (p : NodeState → Bool)
    {detail : Str → NodeState → Str}
    (hdetail : ∀ (fqn : Str) (node : NodeState), IsAscii fqn → node.AsciiTexts →
      IsAscii (detail fqn node)) : AggregatedFault.AsciiContent (content t.nodes p detail) := by
  intro fqn line hline
  rw [content, OMap.getElem?_mapMaybe] at hline
  obtain ⟨node, hnode, hline⟩ := Option.bind_eq_some_iff.mp hline
  obtain ⟨hfqn, htexts⟩ := h fqn node hnode
  split at hline
  · cases hline
    exact ⟨hfqn, hdetail fqn node hfqn htexts⟩
  · contradiction

theorem asciiContent_addCollapsedContent {affected : OMap Str Str} {leftAs : Str}
    (h : AggregatedFault.AsciiContent affected) (count : Nat) (hleft : IsAscii leftAs) :
    AggregatedFault.AsciiContent (addCollapsedContent affected count leftAs) := by
  unfold addCollapsedContent
  split
  · exact h
  · intro key line hline
    by_cases hkey : collapsedKey leftAs = key
    · subst hkey
      rw [Std.ExtTreeMap.getElem?_insert_self] at hline
      cases hline
      refine ⟨IsAscii.append (isAscii_ofList rfl) hleft, isAscii_trimTo ?_ _⟩
      have hcount := isAscii_decimal count
      repeat' apply IsAscii.append
      all_goals first | assumption | exact isAscii_ofList rfl
    · rw [OMap.getElem?_insert_of_ne hkey] at hline
      exact h key line hline

theorem asciiContent_report {s : Sweep} (h : s.tracker.AsciiNodes) :
    AggregatedFault.AsciiContent s.report.affected ∧
      AggregatedFault.AsciiContent s.report.unreadableAffected ∧
      AggregatedFault.AsciiContent s.report.notManagedAffected := by
  have hinactive := asciiContent_content h (·.inViolation s.tracker.settings)
    fun _ _ hfqn htexts => htexts.inactiveDetail (c := s.tracker.settings) hfqn
  have hunmeasured (cause : LifecycleUnmeasuredCause) :=
    asciiContent_content h (·.inUnmeasured cause)
      fun _ _ hfqn htexts => htexts.unmeasuredDetail (c := s.tracker.settings) hfqn
  exact ⟨asciiContent_addCollapsedContent hinactive _ (isAscii_ofList rfl),
    asciiContent_addCollapsedContent (hunmeasured .unreadable) _ (isAscii_ofList rfl),
    asciiContent_addCollapsedContent (hunmeasured .notManaged) _ (isAscii_ofList rfl)⟩

theorem isAscii_descriptions {tick : LifecycleTick}
    (h : (t.update tick.ms tick.presenceOwned).1.AsciiNodes) :
    ∀ desc ∈ descriptions (t.update tick.ms tick.presenceOwned).2, IsAscii desc := by
  have hnodes : (t.sweep tick.ms tick.presenceOwned).tracker.AsciiNodes := by
    intro fqn node hnode
    apply h fqn node
    rw [(sameNodes_update t tick.ms tick.presenceOwned).nodes]
    exact hnode
  obtain ⟨hinactive, hunreadable, hnotManaged⟩ := asciiContent_report hnodes
  unfold update
  dsimp only [descriptions]
  generalize (t.sweep tick.ms tick.presenceOwned).report = r at hinactive hunreadable hnotManaged ⊢
  intro desc hdesc
  simp only [List.mem_cons, List.not_mem_nil, or_false] at hdesc
  rcases hdesc with rfl | rfl | rfl
  · exact AggregatedFault.isAscii_describeOrdered hinactive _
  · exact AggregatedFault.isAscii_describeOrdered hunreadable _
  · exact AggregatedFault.isAscii_describeOrdered hnotManaged _

theorem length_descriptions (r : LifecycleExpectationReport) :
    ∀ desc ∈ descriptions r, desc.length ≤ AggregatedFault.kMaxDescriptionChars := by
  intro desc hdesc
  simp only [descriptions, List.mem_cons, List.not_mem_nil, or_false] at hdesc
  rcases hdesc with rfl | rfl | rfl <;> exact AggregatedFault.length_capDescription _

theorem ascii_of_runs {history : List (Event _ LifecycleTick _)}
    (hrun : (lifecycleMachine c).Runs AsciiNames history t)
    (hlabels : ∀ event ∈ history, AsciiLabels event.op) :
    t.AsciiNodes ∧ ∀ event ∈ history, ∀ desc ∈ descriptions event.out, IsAscii desc := by
  revert hlabels
  apply hrun.invariant (fun history t => (∀ event ∈ history, AsciiLabels event.op) →
    t.AsciiNodes ∧ ∀ event ∈ history, ∀ desc ∈ descriptions event.out, IsAscii desc)
  · exact fun _ => ⟨by simp [AsciiNodes, lifecycleMachine], by simp⟩
  · intro history t tick _ hnames ih hlabels
    have hbefore := ih fun event hevent => hlabels event (List.mem_cons_of_mem _ hevent)
    have hafter := hbefore.1.update hnames (hlabels _ List.mem_cons_self)
    refine ⟨hafter, ?_⟩
    intro event hevent
    rcases List.mem_cons.mp hevent with rfl | hevent
    · exact isAscii_descriptions hafter
    · exact hbefore.2 event hevent

theorem descriptions_bounded_and_valid {history : List (Event _ LifecycleTick _)}
    (hrun : (lifecycleMachine c).Runs AsciiNames history t) :
    ∀ event ∈ history, ∀ desc ∈ descriptions event.out,
      desc.length ≤ AggregatedFault.kMaxDescriptionChars ∧
      ((∀ event ∈ history, AsciiLabels event.op) → ValidUtf8 desc) := by
  intro event hevent desc hdesc
  refine ⟨length_descriptions event.out desc hdesc, ?_⟩
  intro hlabels
  exact ((ascii_of_runs hrun hlabels).2 event hevent desc hdesc).validUtf8

theorem descriptions_bounded_and_valid_of_planner :
    let m := lifecycleMachine { grace := 0 }
    let ticks := [plannerTick (some (str "waiting for the map server to answer"))]
    let cut := str "node /planner expected active but is waiting for the map server to... " ++
      str "(required by 'planner')"
    (∀ event ∈ m.history [] m.init ticks, cut ∈ descriptions event.out) ∧
      cut.length ≤ AggregatedFault.kMaxDescriptionChars ∧ ValidUtf8 cut := by
  intro m ticks cut
  have hcut : ∀ event ∈ m.history [] m.init ticks, cut ∈ descriptions event.out := by
    decide +kernel
  obtain ⟨hlength, hvalid⟩ := descriptions_bounded_and_valid
    (Machine.Runs.start.exec ticks (by decide +kernel)) _ List.mem_cons_self cut
    (hcut _ List.mem_cons_self)
  refine ⟨hcut, hlength, hvalid fun event hevent found hfound label hlabel => ?_⟩
  obtain rfl := List.mem_singleton.mp hevent
  obtain rfl := List.mem_singleton.mp hfound
  cases hlabel
  decide +kernel

/-- A label of 33 bytes whose fifteenth character lies across the cut. -/
theorem cut_label_not_utf8 :
    let label := str "ééééééééééééééééa"
    let r := ((lifecycleMachine { grace := 0 }).step (lifecycleMachine { grace := 0 }).init
      (plannerTick (some label))).2
    ValidUtf8 label ∧ IsAscii (str "/planner") ∧ IsAscii (str "planner") ∧
      ¬ ValidUtf8 (AggregatedFault.describeOrdered r.affected r.newlyAffected) := by
  decide +kernel

end LifecycleExpectationTracker

end Medkit.GraphWatchdog
