import Medkit.Gateway.StatusStreams

/-! The tracked status of a goal. The calls of the manager never write over a terminal
status, so a terminal frame that finds its goal stays until the stream itself says
otherwise. A frame that is delivered between the acceptance of a goal and its tracking
finds nothing and is lost. -/
namespace Medkit.Gateway

open Lib OperationManager

variable {m : OperationManager} {a : OperationAnswers} {task : OperationTask} {goalId : Str}

/-- The goal is tracked anew, or the stream gives it a status that is not terminal. -/
def OperationTask.reopens (goalId : Str) : OperationTask → Bool
  | .trackGoal _ _ _ result => result.goalId = goalId
  | .onStatusCallback _ id status => id = goalId ∧ status.isTerminal = false
  | _ => false

def OperationTask.forgets : OperationTask → Bool
  | .cleanupOldGoals _ | .clearGoals => true
  | _ => false

def GoalEnded (goalId : Str) (m : OperationManager) : Prop :=
  ∀ info : ActionGoalInfo, m.trackedGoals[goalId]? = some info → info.status.isTerminal = true

theorem ended_insert {id : Str} {new : ActionGoalInfo} (h : GoalEnded goalId m)
    (hnew : id = goalId → new.status.isTerminal = true) :
    GoalEnded goalId { m with trackedGoals := m.trackedGoals.insert id new } := by
  intro info hinfo
  by_cases hid : id = goalId
  · subst hid
    rw [Std.ExtTreeMap.getElem?_insert_self] at hinfo
    rw [← Option.some.inj hinfo]
    exact hnew rfl
  · rw [OMap.getElem?_insert_of_ne hid] at hinfo
    exact h info hinfo

def OperationTask.writesGoals : OperationTask → Bool
  | .trackGoal .. | .updateGoalStatus .. | .onStatusCallback .. | .cleanupOldGoals _
  | .clearGoals => true
  | _ => false

theorem trackedGoals_runTask (hwrites : task.writesGoals = false) :
    (m.runTask task a).shared.trackedGoals = m.trackedGoals := by
  cases task with
  | sendActionGoal | subscribeToActionStatus | cancelActionGoal | transportCancel
  | getActionResult | unsubscribeFromActionStatus =>
    simp only [runTask, sendActionGoal, subscribeToActionStatus, cancelActionGoal,
      transportCancel, getActionResult, unsubscribeFromActionStatus]
    (repeat' split) <;> rfl
  | transportSubscribe | checkAction | transportUnsubscribe | recheckGoals | repairFlag | shutdown
  | dropStream => rfl
  | trackGoal | updateGoalStatus | onStatusCallback | cleanupOldGoals | clearGoals => contradiction

theorem ended_runTask (h : GoalEnded goalId m) (hreopens : task.reopens goalId = false) :
    GoalEnded goalId (m.runTask task a).shared := by
  cases hwrites : task.writesGoals with
  | false =>
    intro info hinfo
    rw [trackedGoals_runTask hwrites] at hinfo
    exact h info hinfo
  | true =>
    cases task with
    | trackGoal actionPath actionType entityId result =>
      apply ended_insert h
      intro hid
      simp [OperationTask.reopens, hid] at hreopens
    | updateGoalStatus id status reply =>
      show GoalEnded goalId (m.setGoalStatus a id status)
      fun_cases OperationManager.setGoalStatus m a id status with
      | case1 | case2 => exact h
      | case3 info hinfo hrunning =>
        apply ended_insert h
        rintro rfl
        exact absurd (h info hinfo) hrunning
    | onStatusCallback actionPath id status =>
      simp only [runTask]
      fun_cases OperationManager.onStatusCallback m a actionPath id status with
      | case4 info hinfo =>
        apply ended_insert h
        intro hid
        simpa [OperationTask.reopens, hid] using hreopens
      | _ => exact h
    | cleanupOldGoals maxAge =>
      intro info hinfo
      simp only [runTask, cleanupOldGoals, OMap.getElem?_keep] at hinfo
      exact h info (Option.filter_eq_some_iff.mp hinfo).1
    | clearGoals =>
      intro info hinfo
      simp [runTask] at hinfo
    | _ => contradiction

theorem tracked_runTask (h : goalId ∈ m.trackedGoals) (hforgets : task.forgets = false) :
    goalId ∈ (m.runTask task a).shared.trackedGoals := by
  cases hwrites : task.writesGoals with
  | false =>
    rw [trackedGoals_runTask hwrites]
    exact h
  | true =>
    cases task with
    | trackGoal => exact Std.ExtTreeMap.mem_insert.mpr (.inr h)
    | updateGoalStatus id status reply =>
      show goalId ∈ (m.setGoalStatus a id status).trackedGoals
      fun_cases OperationManager.setGoalStatus m a id status with
      | case1 | case2 => exact h
      | case3 => exact Std.ExtTreeMap.mem_insert.mpr (.inr h)
    | onStatusCallback actionPath id status =>
      simp only [runTask]
      fun_cases OperationManager.onStatusCallback m a actionPath id status with
      | case4 => exact Std.ExtTreeMap.mem_insert.mpr (.inr h)
      | _ => exact h
    | _ => contradiction

theorem ended_of_frame {actionPath : Str} {status : ActionGoalStatus} {info : ActionGoalInfo}
    (hterminal : status.isTerminal = true) (hinfo : m.trackedGoals[goalId]? = some info)
    (hpath : info.actionPath = actionPath) :
    GoalEnded goalId (m.runTask (.onStatusCallback actionPath goalId status) a).shared := by
  simp only [runTask, onStatusCallback, hinfo, hpath, ne_eq, not_true_eq_false, if_false]
  split
  · rename_i hsame
    intro found hfound
    rw [hinfo] at hfound
    rw [← Option.some.inj hfound, hsame]
    exact hterminal
  · intro found hfound
    rw [Std.ExtTreeMap.getElem?_insert_self] at hfound
    rw [← Option.some.inj hfound]
    exact hterminal

/-! ## Runs -/

def OpensOperations (_ : Threads OperationManager OperationTask) :
    ThreadOp OperationTask OperationAnswers Empty → Prop
  | .spawn task => task.opensCall = true
  | .run _ _ | .boot _ => True

instance decidableOpensOperations (st : Threads OperationManager OperationTask) :
    (op : ThreadOp OperationTask OperationAnswers Empty) → Decidable (OpensOperations st op)
  | .spawn task => inferInstanceAs (Decidable (task.opensCall = true))
  | .run _ _ | .boot _ => inferInstanceAs (Decidable True)

abbrev OperationEvent := Event (Threads OperationManager OperationTask)
  (ThreadOp OperationTask OperationAnswers Empty) (Option OperationReply)

theorem terminal_frame_is_final {hasTransport hasNotifier : Bool}
    {newer older : List OperationEvent} {event : OperationEvent}
    {st : Threads OperationManager OperationTask}
    (hrun : (program.machine { hasTransport := hasTransport, hasNotifier := hasNotifier }).Runs
      OpensOperations (newer ++ event :: older) st)
    {actionPath : Str} {status : ActionGoalStatus} (hterminal : status.isTerminal = true)
    (hframe : event.before.ran event.op = some (.onStatusCallback actionPath goalId status))
    {info : ActionGoalInfo} (htracked : event.before.shared.trackedGoals[goalId]? = some info)
    (hpath : info.actionPath = actionPath)
    (hlater : ∀ later ∈ newer, ∀ task ∈ later.before.ran later.op, task.reopens goalId = false) :
    GoalEnded goalId st.shared ∧
      ((∀ later ∈ newer, ∀ task ∈ later.before.ran later.op, task.forgets = false) →
        goalId ∈ st.shared.trackedGoals) := by
  have hframe (P : OperationManager → Prop)
      (hrun : ∀ a, P (event.before.shared.runTask (.onStatusCallback actionPath goalId status) a).shared) :
      P (program.step event.before event.op).1.shared := by
    obtain ⟨a, hshared⟩ := Program.step_ran program hframe
    rw [hshared]
    exact hrun a
  constructor
  · apply hrun.since fun st => GoalEnded goalId st.shared
    · exact fun _ => hframe _ fun _ => ended_of_frame hterminal htracked hpath
    · intro later hmem _ hended
      apply Program.step_shared (GoalEnded goalId) hended
      · exact fun task htask _ => ended_runTask hended (hlater later hmem task htask)
      · exact fun settings => settings.elim
  · intro hkept
    apply hrun.since fun st => goalId ∈ st.shared.trackedGoals
    · intro _
      apply hframe fun m => goalId ∈ m.trackedGoals
      have hmem := Std.ExtTreeMap.mem_iff_isSome_getElem?.mpr (Option.isSome_of_eq_some htracked)
      exact fun _ => tracked_runTask hmem rfl
    · intro later hmem _ htracked
      apply Program.step_shared (fun m : OperationManager => goalId ∈ m.trackedGoals) htracked
      · exact fun task htask _ => tracked_runTask htracked (hkept later hmem task htask)
      · exact fun settings => settings.elim

def framedOps : List (ThreadOp OperationTask OperationAnswers Empty) :=
  firstGoalOps.append
    [.spawn sendGoal, .run 2 (acceptedGoal 1), .run 2 {},
      .spawn (.onStatusCallback calibrate (sentGoal 1) .succeeded)]

/-- The send goes on to set the status `EXECUTING`. -/
theorem terminal_frame_is_final_while_sending :
    let st := operationsAfter (framedOps.append [.run 3 {}, .run 2 {}, .run 2 {}])
    GoalEnded (sentGoal 1) st.shared ∧ sentGoal 1 ∈ st.shared.trackedGoals := by
  have hbefore : (program.machine {}).Runs OpensOperations _ (operationsAfter framedOps) :=
    Machine.Runs.start.exec _ (by decide)
  have hframed := hbefore.step (ThreadOp.run 3 ({} : OperationAnswers)) trivial
  have hflagged := hframed.step (ThreadOp.run 2 ({} : OperationAnswers)) trivial
  have hrun : (program.machine {}).Runs OpensOperations ([_, _] ++ _ :: _)
      (operationsAfter (framedOps.append [.run 3 {}, .run 2 {}, .run 2 {}])) :=
    hflagged.step (ThreadOp.run 2 ({} : OperationAnswers)) trivial
  have htracked : (operationsAfter framedOps).shared.trackedGoals[sentGoal 1]?.map (·.actionPath) =
      some calibrate := by decide
  obtain ⟨info, hinfo, hpath⟩ := Option.map_eq_some_iff.mp htracked
  have hterminal : ActionGoalStatus.isTerminal .succeeded = true := rfl
  obtain ⟨hended, hkept⟩ :=
    terminal_frame_is_final hrun hterminal rfl hinfo hpath (by decide)
  exact ⟨hended, hkept (by decide)⟩

/-- The terminal frame comes between the acceptance of the goal and its tracking. -/
def overtakingOps : List (ThreadOp OperationTask OperationAnswers Empty) :=
  firstGoalOps.append
    [.spawn sendGoal, .run 2 (acceptedGoal 1),
      .spawn (.onStatusCallback calibrate (sentGoal 1) .succeeded)]

theorem overtaking_terminal_frame_is_lost :
    let accepted := operationsAfter overtakingOps
    let st := operationsAfter (overtakingOps.append [.run 3 {}, .run 2 {}, .run 2 {}, .run 2 {}])
    calibrate ∈ accepted.shared.liveStreams ∧ st.Returned ∧ calibrate ∈ st.shared.liveStreams ∧
      st.shared.trackedGoals[sentGoal 1]?.map (·.status) = some .executing := by
  decide

end Medkit.Gateway
