import Medkit.Gateway.OperationManager
import Medkit.Lib.FlaggedResource

/-! The status streams of the operation manager. A path with a tracked goal wants its
stream, `subscribed_paths_` is the flag, and the transport holds the stream: the manager
is a `FlaggedResource`, task by task. The condition of that protocol, that no wish is
dropped while a call relies on it, is not kept by the manager itself: a cleanup may evict
a goal whose send has not flagged the path yet. -/
namespace Medkit.Gateway

open Lib OperationManager
open FlaggedResource (Step Inv)

variable {m : OperationManager} {a : OperationAnswers} {task : OperationTask}
variable {others : List OperationTask}

/-! ## The manager as a flagged resource -/

def OperationTask.stage : OperationTask → Option (FlaggedResource.Stage × Str)
  | .subscribeToActionStatus actionPath => some (.flag, actionPath)
  | .transportSubscribe actionPath => some (.acquire, actionPath)
  | .transportUnsubscribe actionPath => some (.release, actionPath)
  | .recheckGoals actionPath => some (.recheck, actionPath)
  | .repairFlag actionPath => some (.repair, actionPath)
  | _ => none

def OperationManager.actions (m : OperationManager) : Set Str :=
  { actionPath | ∃ (id : Str) (info : ActionGoalInfo),
    m.trackedGoals[id]? = some info ∧ info.actionPath = actionPath }

def streams (m : OperationManager) (tasks : List OperationTask) : FlaggedResource.State Str where
  wanted := m.actions
  flagged := { actionPath | actionPath ∈ m.subscribedPaths }
  held := { actionPath | actionPath ∈ m.liveStreams }
  stages := tasks.filterMap OperationTask.stage

variable {info : ActionGoalInfo} {tasks : List OperationTask}

theorem mem_goals : info ∈ m.goals ↔ ∃ id : Str, m.trackedGoals[id]? = some info := OMap.mem_values

theorem mem_actions {actionPath : Str} :
    actionPath ∈ m.actions ↔ ∃ info ∈ m.goals, info.actionPath = actionPath := by
  constructor
  · rintro ⟨id, info, hinfo, hpath⟩
    exact ⟨info, mem_goals.mpr ⟨id, hinfo⟩, hpath⟩
  · rintro ⟨info, hinfo, hpath⟩
    obtain ⟨id, hid⟩ := mem_goals.mp hinfo
    exact ⟨id, info, hid, hpath⟩

theorem hasGoalsForAction_iff {actionPath : Str} :
    m.hasGoalsForAction actionPath = true ↔ actionPath ∈ m.actions := by
  rw [hasGoalsForAction, List.any_eq_true, mem_actions]
  simp only [decide_eq_true_eq]

theorem actions_insert {id : Str} {new : ActionGoalInfo} (hinfo : m.trackedGoals[id]? = some info)
    (hpath : new.actionPath = info.actionPath) :
    { m with trackedGoals := m.trackedGoals.insert id new }.actions = m.actions := by
  ext actionPath
  constructor
  · rintro ⟨other, found, hfound, rfl⟩
    by_cases hother : other = id
    · subst hother
      rw [Std.ExtTreeMap.getElem?_insert_self] at hfound
      exact ⟨other, info, hinfo, by rw [← Option.some.inj hfound, hpath]⟩
    · rw [OMap.getElem?_insert_of_ne (Ne.symm hother)] at hfound
      exact ⟨other, found, hfound, rfl⟩
  · rintro ⟨other, found, hfound, rfl⟩
    by_cases hother : other = id
    · subst hother
      rw [hinfo] at hfound
      exact ⟨other, new, Std.ExtTreeMap.getElem?_insert_self, by rw [hpath, Option.some.inj hfound]⟩
    · exact ⟨other, found, (OMap.getElem?_insert_of_ne (Ne.symm hother) _).trans hfound, rfl⟩

theorem actions_track {id : Str} {new : ActionGoalInfo}
    (hsame : ∀ info ∈ m.trackedGoals[id]?, info.actionPath = new.actionPath) :
    { m with trackedGoals := m.trackedGoals.insert id new }.actions =
      insert new.actionPath m.actions := by
  cases hinfo : m.trackedGoals[id]? with
  | some info =>
    have hpath := hsame info hinfo
    rw [actions_insert hinfo hpath.symm]
    have hmem : new.actionPath ∈ m.actions := ⟨id, info, hinfo, hpath⟩
    exact (Set.insert_eq_of_mem hmem).symm
  | none =>
    ext actionPath
    constructor
    · rintro ⟨other, found, hfound, rfl⟩
      by_cases hother : other = id
      · subst hother
        rw [Std.ExtTreeMap.getElem?_insert_self] at hfound
        exact .inl (congrArg _ (Option.some.inj hfound)).symm
      · rw [OMap.getElem?_insert_of_ne (Ne.symm hother)] at hfound
        exact .inr ⟨other, found, hfound, rfl⟩
    · rintro (rfl | ⟨other, found, hfound, rfl⟩)
      · exact ⟨id, new, Std.ExtTreeMap.getElem?_insert_self, rfl⟩
      · have hother : id ≠ other := by
          rintro rfl
          rw [hinfo] at hfound
          contradiction
        exact ⟨other, found, (OMap.getElem?_insert_of_ne hother _).trans hfound, rfl⟩

theorem mem_goals_cleanup {maxAge : Int} : info ∈ (m.cleanupOldGoals a maxAge).shared.goals ↔
      info ∈ m.goals ∧ isEvicted a maxAge info = false := by
  simp only [mem_goals, cleanupOldGoals, OMap.getElem?_keep]
  constructor
  · rintro ⟨id, hid⟩
    obtain ⟨hid, hkept⟩ := Option.filter_eq_some_iff.mp hid
    exact ⟨⟨id, hid⟩, by simpa using hkept⟩
  · rintro ⟨⟨id, hid⟩, hkept⟩
    exact ⟨id, Option.filter_eq_some_iff.mpr ⟨hid, by simp [hkept]⟩⟩

/-! ## Every task is a step of the protocol -/

/-- What the protocol asks of a task: an id is not tracked for two paths, no goal is
evicted while a call in flight relies on its path, and the manager is not shut down. -/
def Relied (m : OperationManager) (a : OperationAnswers) (tasks : List OperationTask) :
    OperationTask → Prop
  | .trackGoal actionPath _ _ result =>
      ∀ info ∈ m.trackedGoals[result.goalId]?, info.actionPath = actionPath
  | .cleanupOldGoals maxAge =>
      ∀ info ∈ m.evictedGoals a maxAge, ∀ entry ∈ tasks.filterMap OperationTask.stage,
        entry.2 = info.actionPath → entry.1 = .acquire
  | .shutdown | .dropStream _ | .clearGoals => False
  | _ => True

instance decidableRelied (m : OperationManager) (a : OperationAnswers) (tasks : List OperationTask)
    (task : OperationTask) : Decidable (Relied m a tasks task) := by
  cases task <;> unfold Relied <;> infer_instance

theorem streams_congr {m' : OperationManager} (hactions : m'.actions = m.actions)
    (hflags : m'.subscribedPaths = m.subscribedPaths) (hlive : m'.liveStreams = m.liveStreams) :
    streams m' tasks = streams m tasks := by
  unfold streams
  rw [hactions, hflags, hlive]

theorem filterMap_stage_checkAction (paths : List Str) :
    (paths.map OperationTask.checkAction).filterMap OperationTask.stage = [] := by
  simp [List.filterMap_eq_nil_iff, OperationTask.stage]

theorem flagged_insert (actionPath : Str) : { path | path ∈ m.subscribedPaths.insert actionPath } =
      insert actionPath { path | path ∈ m.subscribedPaths } :=
  Set.ext fun _ => OSet.mem_insert_iff

theorem flagged_erase (actionPath : Str) : { path | path ∈ m.subscribedPaths.erase actionPath } =
      { path | path ∈ m.subscribedPaths } \ {actionPath} :=
  Set.ext fun _ => OSet.mem_erase_iff.trans and_comm

theorem held_insert (actionPath : Str) : { path | path ∈ m.liveStreams.insert actionPath } =
      insert actionPath { path | path ∈ m.liveStreams } :=
  Set.ext fun _ => OSet.mem_insert_iff

theorem held_erase (actionPath : Str) : { path | path ∈ m.liveStreams.erase actionPath } =
      { path | path ∈ m.liveStreams } \ {actionPath} :=
  Set.ext fun _ => OSet.mem_erase_iff.trans and_comm

def Follows (m : OperationManager) (a : OperationAnswers) (task : OperationTask)
    (others : List OperationTask) : Prop :=
  let outcome := m.runTask task a
  let after := streams outcome.shared (outcome.tasks others)
  after = streams m (task :: others) ∨ Step (streams m (task :: others)) after

theorem Follows.step {after : FlaggedResource.State Str}
    (hstep : Step (streams m (task :: others)) after) (hafter : streams (m.runTask task a).shared
      ((m.runTask task a).tasks others) = after) :
    Follows m a task others := .inr (hafter ▸ hstep)

def otherStages (others : List OperationTask) : Multiset (FlaggedResource.Stage × Str) :=
  others.filterMap OperationTask.stage

theorem follows_trackGoal {actionPath actionType entityId : Str} {result : ActionSendGoalResult}
    (hrelied : Relied m a others (.trackGoal actionPath actionType entityId result)) :
    Follows m a (.trackGoal actionPath actionType entityId result) others := by
  let new : ActionGoalInfo :=
    { goalId := result.goalId, actionPath := actionPath, actionType := actionType
      entityId := entityId, status := .accepted, createdAt := a.now, lastUpdate := a.now }
  have hactions : { m with trackedGoals := m.trackedGoals.insert result.goalId new }.actions =
      insert actionPath m.actions := actions_track hrelied
  refine .step (.wish actionPath) ?_
  simp only [runTask, trackGoal, streams]
  rw [hactions]
  rfl

theorem follows_subscribe (htransport : m.hasTransport = true) {actionPath : Str} :
    Follows m a (.subscribeToActionStatus actionPath) others := by
  by_cases hflagged : actionPath ∈ m.subscribedPaths
  · refine .step (.settled (x := actionPath) (s := otherStages others) rfl hflagged) ?_
    simp only [runTask, subscribeToActionStatus, hflagged, htransport]
    rfl
  · refine .step (.flag (x := actionPath) (s := otherStages others) rfl) ?_
    simp only [runTask, subscribeToActionStatus, hflagged, htransport, streams]
    simp only [Bool.not_true, Bool.false_eq_true, if_false, flagged_insert]
    rfl

theorem follows_cleanup {maxAge : Int} (hrelied : Relied m a others (.cleanupOldGoals maxAge)) :
    Follows m a (.cleanupOldGoals maxAge) others := by
  have hsub : (m.cleanupOldGoals a maxAge).shared.actions ⊆ m.actions := by
    intro actionPath hpath
    obtain ⟨info, hinfo, rfl⟩ := mem_actions.mp hpath
    exact mem_actions.mpr ⟨info, (mem_goals_cleanup.mp hinfo).1, rfl⟩
  refine .step (.forget hsub ?_) ?_
  · intro actionPath hpath hgone stage hstage
    obtain ⟨info, hinfo, rfl⟩ := mem_actions.mp hpath
    have hevicted : isEvicted a maxAge info = true := by
      by_contra hkept
      exact hgone (mem_actions.mpr ⟨info, mem_goals_cleanup.mpr ⟨hinfo, by simpa using hkept⟩, rfl⟩)
    exact hrelied info (List.mem_filter.mpr ⟨hinfo, hevicted⟩) (stage, info.actionPath) hstage rfl
  · simp only [runTask, cleanupOldGoals, streams, List.filterMap_append,
      filterMap_stage_checkAction]
    rfl

theorem follows_unsubscribe (htransport : m.hasTransport = true) {actionPath : Str} :
    Follows m a (.unsubscribeFromActionStatus actionPath) others := by
  simp only [Follows, runTask]
  fun_cases OperationManager.unsubscribeFromActionStatus m actionPath with
  | case1 | case3 => exact .inl rfl
  | case2 hgoals =>
    have hwanted : actionPath ∉ m.actions := fun h => hgoals (hasGoalsForAction_iff.mpr h)
    have hstep : Step (streams m (.unsubscribeFromActionStatus actionPath :: others)) _ :=
      .unflag hwanted
    refine .inr ?_
    simp only [htransport, streams, if_true, flagged_erase]
    exact hstep

theorem follows_recheck {actionPath : Str} : Follows m a (.recheckGoals actionPath) others := by
  by_cases hgoals : m.hasGoalsForAction actionPath = true
  · refine .step (.overtaken (x := actionPath) (s := otherStages others) rfl
      (hasGoalsForAction_iff.mp hgoals)) ?_
    simp only [runTask, recheckGoals, hgoals, if_true]
    rfl
  · have hwanted : actionPath ∉ m.actions := fun h => hgoals (hasGoalsForAction_iff.mpr h)
    refine .step (.unwanted (x := actionPath) (s := otherStages others) rfl hwanted) ?_
    simp only [runTask, recheckGoals, hgoals]
    rfl

theorem streams_setGoalStatus (goalId : Str) (status : ActionGoalStatus)
    (tasks : List OperationTask) :
    streams (m.setGoalStatus a goalId status) tasks = streams m tasks := by
  unfold setGoalStatus
  split
  · rfl
  · rename_i info hinfo
    split
    · rfl
    · exact streams_congr (actions_insert hinfo rfl) rfl rfl

theorem follows (htransport : m.hasTransport = true) (hrelied : Relied m a others task) :
    Follows m a task others := by
  cases task with
  | sendActionGoal | cancelActionGoal | transportCancel | getActionResult | checkAction =>
    refine .inl ?_
    simp only [runTask, sendActionGoal, cancelActionGoal, transportCancel, getActionResult,
      checkAction]
    (repeat' split) <;> rfl
  | trackGoal => exact follows_trackGoal hrelied
  | subscribeToActionStatus => exact follows_subscribe htransport
  | transportSubscribe actionPath =>
    refine .step (.acquire (x := actionPath) (s := otherStages others) rfl) ?_
    simp only [runTask, streams, held_insert]
    rfl
  | updateGoalStatus goalId status reply => exact .inl (streams_setGoalStatus goalId status _)
  | onStatusCallback actionPath goalId status =>
    refine .inl ?_
    simp only [runTask]
    fun_cases OperationManager.onStatusCallback m a actionPath goalId status with
    | case4 info hinfo => exact streams_congr (actions_insert hinfo rfl) rfl rfl
    | _ => rfl
  | cleanupOldGoals => exact follows_cleanup hrelied
  | unsubscribeFromActionStatus => exact follows_unsubscribe htransport
  | transportUnsubscribe actionPath =>
    refine .step (.release (x := actionPath) (s := otherStages others) rfl) ?_
    simp only [runTask, transportUnsubscribe, streams, held_erase]
    rfl
  | recheckGoals => exact follows_recheck
  | repairFlag actionPath =>
    refine .step (.repair (x := actionPath) (s := otherStages others) rfl) ?_
    simp only [runTask, repairFlag, streams, flagged_erase]
    rfl
  | shutdown | dropStream | clearGoals => exact hrelied.elim

/-! ## Runs -/

theorem Relied.mono (h : Relied m a tasks task) (hsub : ∀ other ∈ others, other ∈ tasks) :
    Relied m a others task := by
  cases task with
  | cleanupOldGoals maxAge =>
    intro info hinfo entry hentry
    obtain ⟨other, hother, hstage⟩ := List.mem_filterMap.mp hentry
    exact h info hinfo entry (List.mem_filterMap.mpr ⟨other, hsub other hother, hstage⟩)
  | _ => exact h

theorem hasTransport_runTask : (m.runTask task a).shared.hasTransport = m.hasTransport := by
  cases task <;> simp only [runTask, sendActionGoal, trackGoal, subscribeToActionStatus,
    updateGoalStatus, setGoalStatus, cancelActionGoal, transportCancel, getActionResult,
    onStatusCallback, cleanupOldGoals, checkAction, unsubscribeFromActionStatus,
    transportUnsubscribe, recheckGoals, repairFlag, shutdown]
  all_goals (repeat' split) <;> rfl

def StreamsRelied (st : Threads OperationManager OperationTask) :
    ThreadOp OperationTask OperationAnswers Empty → Prop
  | .spawn task => task.opensCall = true
  | .run thread a => ∀ task ∈ st.head thread, Relied st.shared a st.tasks task
  | .boot _ => False

instance decidableStreamsRelied (st : Threads OperationManager OperationTask) :
    (op : ThreadOp OperationTask OperationAnswers Empty) → Decidable (StreamsRelied st op)
  | .spawn task => inferInstanceAs (Decidable (task.opensCall = true))
  | .run thread a =>
      inferInstanceAs (Decidable (∀ task ∈ st.head thread, Relied st.shared a st.tasks task))
  | .boot _ => inferInstanceAs (Decidable False)

structure StreamsKept (m : OperationManager) (tasks : List OperationTask) : Prop where
  transport : m.hasTransport = true
  inv : Inv (streams m tasks)

theorem StreamsKept.perm {tasks' : List OperationTask} (hperm : tasks.Perm tasks')
    (h : StreamsKept m tasks) : StreamsKept m tasks' := by
  refine ⟨h.transport, ?_⟩
  have hsame : streams m tasks' = streams m tasks := by
    unfold streams
    rw [Multiset.coe_eq_coe.mpr (hperm.filterMap OperationTask.stage)]
  exact hsame ▸ h.inv

theorem StreamsKept.run (h : StreamsKept m (task :: others)) (hrelied : Relied m a others task) :
    StreamsKept (m.runTask task a).shared ((m.runTask task a).tasks others) := by
  refine ⟨hasTransport_runTask.trans h.transport, ?_⟩
  rcases follows h.transport hrelied with hsame | hstep
  · exact hsame ▸ h.inv
  · exact h.inv.step hstep

theorem streams_start (hasNotifier : Bool) :
    streams { hasNotifier := hasNotifier } [] = ⟨∅, ∅, ∅, 0⟩ := by
  have hactions : ({ hasNotifier := hasNotifier } : OperationManager).actions = ∅ := by
    apply Set.eq_empty_of_forall_notMem
    rintro actionPath ⟨id, info, hinfo, -⟩
    rw [Std.ExtTreeMap.getElem?_empty] at hinfo
    contradiction
  unfold streams
  rw [hactions]
  simp

section Runs

variable {hasNotifier : Bool}
  {history : List (Event (Threads OperationManager OperationTask)
    (ThreadOp OperationTask OperationAnswers Empty) (Option OperationReply))}
  {st : Threads OperationManager OperationTask}
  (hrun : (program.machine { hasNotifier := hasNotifier }).Runs StreamsRelied history st)

include hrun

theorem streamsKept_of_runs : StreamsKept st.shared st.tasks := by
  refine Program.invariant StreamsKept StreamsKept.perm ⟨rfl, ?_⟩ ?_ ?_ ?_ hrun
  · exact streams_start hasNotifier ▸ Inv.start
  · intro st task hopens h
    refine ⟨h.transport, ?_⟩
    have hstage : task.stage = none := by
      cases task <;> first | rfl | contradiction
    have hsame : streams st.shared (task :: st.tasks) = streams st.shared st.tasks := by
      unfold streams
      rw [List.filterMap_cons_none hstage]
    exact hsame ▸ h.inv
  · intro st thread a task others hguard hhead hperm h
    apply h.run
    apply (hguard task hhead).mono
    exact fun other hother => hperm.mem_iff.mpr (List.mem_cons_of_mem _ hother)
  · exact fun st settings => settings.elim

theorem tracked_goals_have_streams (hreturned : st.Returned) (id : Str) (info : ActionGoalInfo)
    (hinfo : st.shared.trackedGoals[id]? = some info) :
    info.actionPath ∈ st.shared.liveStreams := by
  have h := streamsKept_of_runs hrun
  have hidle : (streams st.shared st.tasks).stages = 0 := by
    rw [show st.tasks = [] from hreturned]
    rfl
  exact h.inv.held hidle ⟨id, info, hinfo, rfl⟩

end Runs

def calibrate : Str := str "/engine/calibrate"

def sentGoal (n : Nat) : Str := str "goal" ++ decimal n

def acceptedGoal (n : Nat) : OperationAnswers where
  sent := { success := true, goalId := sentGoal n, goalAccepted := true, outcome := .ok }

def sendGoal : OperationTask :=
  .sendActionGoal calibrate (str "std/action/Calibrate") (str "engine")

def muchLater : OperationAnswers where
  now := 301000000000

def operationsAfter (ops : List (ThreadOp OperationTask OperationAnswers Empty)) :
    Threads OperationManager OperationTask :=
  (program.machine {}).exec { shared := {} } ops

def firstGoalOps : List (ThreadOp OperationTask OperationAnswers Empty) :=
  [.spawn sendGoal, .run 0 (acceptedGoal 0), .run 0 {}, .run 0 {}, .run 0 {}, .run 0 {},
    .spawn (.onStatusCallback calibrate (sentGoal 0) .succeeded), .run 1 {}]

/-- The cleanup is about to unsubscribe when a second goal is sent, and repairs that. -/
def repairedOps : List (ThreadOp OperationTask OperationAnswers Empty) :=
  firstGoalOps.append
    [.spawn (.cleanupOldGoals 300), .run 2 muchLater, .run 2 muchLater, .run 2 muchLater,
      .spawn sendGoal, .run 3 (acceptedGoal 1), .run 3 muchLater, .run 3 muchLater,
      .run 3 muchLater, .run 3 muchLater, .run 2 muchLater, .run 2 muchLater,
      .run 2 muchLater, .run 2 muchLater, .run 2 muchLater]

theorem tracked_goals_have_streams_after_repair :
    let st := operationsAfter repairedOps
    sentGoal 1 ∈ st.shared.trackedGoals ∧ ∀ (id : Str) (info : ActionGoalInfo),
      st.shared.trackedGoals[id]? = some info → info.actionPath ∈ st.shared.liveStreams := by
  have hops : (program.machine {}).Guarded StreamsRelied { shared := {} } repairedOps := by
    decide +kernel
  have hreturned : (operationsAfter repairedOps).Returned := by decide +kernel
  exact ⟨by decide +kernel,
    tracked_goals_have_streams (Machine.Runs.start.exec _ hops) hreturned⟩

/-- A second goal is tracked, succeeds and is evicted with the first one before its send
flags the path. -/
def evictedOps : List (ThreadOp OperationTask OperationAnswers Empty) :=
  firstGoalOps.append
    [.spawn sendGoal, .run 2 (acceptedGoal 1), .run 2 {},
      .spawn (.onStatusCallback calibrate (sentGoal 1) .succeeded), .run 3 {},
      .spawn (.cleanupOldGoals 300), .run 4 muchLater, .run 4 muchLater, .run 4 muchLater,
      .run 2 muchLater, .run 2 muchLater, .run 2 muchLater, .run 4 muchLater, .run 4 muchLater]

/-- The path stays flagged without a stream, so that the next goal gets none. -/
theorem flagged_path_without_stream :
    let st := operationsAfter (evictedOps.append
      [.spawn sendGoal, .run 5 (acceptedGoal 2), .run 5 muchLater, .run 5 muchLater,
        .run 5 muchLater])
    st.Returned ∧ (st.shared.trackedGoals[sentGoal 2]?.map (·.actionPath)) = some calibrate ∧
      calibrate ∈ st.shared.subscribedPaths ∧ calibrate ∉ st.shared.liveStreams := by
  decide +kernel

end Medkit.Gateway
