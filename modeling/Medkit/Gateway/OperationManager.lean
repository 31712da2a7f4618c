import Medkit.Lib.Tasks
import Medkit.Lib.Tokens
import Medkit.Lib.OrderedMap

/-! The action half of the operation manager. Goals live under `goals_mutex_`, the flags
of the subscribed paths under `subscriptions_mutex_`, and the subscriptions themselves in
the transport, which is called with no lock held; each call is cut there into tasks. The
test of the goals that is made under `subscriptions_mutex_` is one task with the erase
behind it, since only goals can change in between. -/
namespace Medkit.Gateway

open Lib

/-! ## Goals -/

inductive ActionGoalStatus where
  | unknown
  | accepted
  | executing
  | canceling
  | succeeded
  | canceled
  | aborted
deriving DecidableEq

namespace ActionGoalStatus

def isTerminal : ActionGoalStatus → Bool
  | .succeeded | .canceled | .aborted => true
  | .unknown | .accepted | .executing | .canceling => false

/-- `action_status_to_string` -/
def text : ActionGoalStatus → Str
  | .accepted => str "accepted"
  | .executing => str "executing"
  | .canceling => str "canceling"
  | .succeeded => str "succeeded"
  | .canceled => str "canceled"
  | .aborted => str "aborted"
  | .unknown => str "unknown"

end ActionGoalStatus

/-- Times are nanoseconds of the system clock. -/
structure ActionGoalInfo where
  goalId : Str
  actionPath : Str
  actionType : Str
  entityId : Str
  status : ActionGoalStatus
  createdAt : Int
  lastUpdate : Int

/-! ## Answers of the transport -/

inductive CallOutcome where
  | ok
  | timeout
  | serviceUnavailable
  | transportError

structure ActionSendGoalResult where
  success : Bool := false
  goalId : Str := []
  goalAccepted : Bool := false
  outcome : CallOutcome := .transportError
  errorMessage : Str := []

inductive CancelOutcome where
  | ok
  | timeout
  | serviceUnavailable
  | transportError
  | errorResponse
  | notTracked
deriving DecidableEq

structure ActionCancelResult where
  success : Bool := false
  returnCode : Int := 0
  outcome : CancelOutcome := .transportError
  errorMessage : Str := []

structure ActionGetResultResult where
  success : Bool := false
  status : ActionGoalStatus := .unknown
  errorMessage : Str := []

structure OperationAnswers where
  now : Int := 0
  sent : ActionSendGoalResult := {}
  cancelled : ActionCancelResult := {}
  result : ActionGetResultResult := {}

/-! ## State -/

structure OperationManager where
  hasTransport : Bool := true
  hasNotifier : Bool := true
  trackedGoals : OMap Str ActionGoalInfo := ∅
  subscribedPaths : OSet Str := ∅
  /-- the paths that the transport has a subscription for -/
  liveStreams : OSet Str := ∅

inductive OperationReply where
  | sent (result : ActionSendGoalResult)
  | cancelled (result : ActionCancelResult)
  | result (result : ActionGetResultResult)
  | notified (entityId goalId actionPath status : Str)
  | warned (texts : List Str)

inductive OperationTask where
  | sendActionGoal (actionPath actionType entityId : Str)
  | trackGoal (actionPath actionType entityId : Str) (result : ActionSendGoalResult)
  | subscribeToActionStatus (actionPath : Str)
  | transportSubscribe (actionPath : Str)
  | updateGoalStatus (goalId : Str) (status : ActionGoalStatus) (reply : OperationReply)
  | cancelActionGoal (actionPath goalId : Str)
  | transportCancel (actionPath goalId : Str)
  | getActionResult (actionPath actionType goalId : Str)
  | onStatusCallback (actionPath goalId : Str) (status : ActionGoalStatus)
  | cleanupOldGoals (maxAge : Int)
  | checkAction (actionPath : Str)
  | unsubscribeFromActionStatus (actionPath : Str)
  | transportUnsubscribe (actionPath : Str)
  | recheckGoals (actionPath : Str)
  | repairFlag (actionPath : Str)
  | shutdown
  | dropStream (actionPath : Str)
  | clearGoals

abbrev OperationOutcome := Outcome OperationManager OperationTask OperationReply

namespace OperationManager

/-! ## Reading the goals -/

def goals (m : OperationManager) : List ActionGoalInfo := m.trackedGoals.toList.map Prod.snd

def hasGoalsForAction (m : OperationManager) (actionPath : Str) : Bool :=
  m.goals.any fun info => info.actionPath = actionPath

def getGoalsForAction (m : OperationManager) (actionPath : Str) : List ActionGoalInfo :=
  (m.goals.filter fun info => info.actionPath = actionPath).mergeSort
    fun a b => b.createdAt ≤ a.createdAt

/-! ## Goals -/

def uuidHexLength : Nat := 32

def isValidUuidHex (uuidHex : Str) : Bool :=
  uuidHex.length = uuidHexLength ∧ uuidHex.all fun c => isHexByte c ∨ (65 ≤ c.val ∧ c.val ≤ 70)

def sendActionGoal (m : OperationManager) (a : OperationAnswers)
    (actionPath actionType entityId : Str) : OperationOutcome :=
  if !m.hasTransport then
    { shared := m, out := some (.sent { errorMessage := str "ActionTransport not configured" }) }
  else if a.sent.success && a.sent.goalAccepted && !a.sent.goalId.isEmpty then
    { shared := m, next := [.trackGoal actionPath actionType entityId a.sent] }
  else { shared := m, out := some (.sent a.sent) }

/-- What follows in the call is subscribing and setting the status. -/
def trackGoal (m : OperationManager) (a : OperationAnswers) (actionPath actionType entityId : Str)
    (result : ActionSendGoalResult) : OperationOutcome where
  shared :=
    { m with
      trackedGoals := m.trackedGoals.insert result.goalId
        { goalId := result.goalId
          actionPath := actionPath
          actionType := actionType
          entityId := entityId
          status := .accepted
          createdAt := a.now
          lastUpdate := a.now } }
  next := [.subscribeToActionStatus actionPath,
    .updateGoalStatus result.goalId .executing (.sent result)]

/-- A terminal status is final here. -/
def setGoalStatus (m : OperationManager) (a : OperationAnswers) (goalId : Str)
    (status : ActionGoalStatus) : OperationManager :=
  match m.trackedGoals[goalId]? with
  | none => m
  | some info =>
      if info.status.isTerminal then m
      else
        { m with
          trackedGoals := m.trackedGoals.insert goalId
            { info with status := status, lastUpdate := a.now } }

def updateGoalStatus (m : OperationManager) (a : OperationAnswers) (goalId : Str)
    (status : ActionGoalStatus) (reply : OperationReply) : OperationOutcome where
  shared := m.setGoalStatus a goalId status
  out := some reply

def cancelActionGoal (m : OperationManager) (actionPath goalId : Str) : OperationOutcome :=
  if !isValidUuidHex goalId then
    { shared := m
      out := some (.cancelled
        { errorMessage := str "Invalid goal_id format: must be 32 hex characters" }) }
  else if goalId ∉ m.trackedGoals then
    { shared := m
      out := some (.cancelled
        { outcome := .notTracked, errorMessage := str "Unknown goal_id - not tracked" }) }
  else if !m.hasTransport then
    { shared := m, out := some (.cancelled { errorMessage := str "ActionTransport not configured" }) }
  else { shared := m, next := [.transportCancel actionPath goalId] }

def transportCancel (m : OperationManager) (a : OperationAnswers) (goalId : Str) :
    OperationOutcome :=
  if a.cancelled.outcome = .ok then
    { shared := m, next := [.updateGoalStatus goalId .canceling (.cancelled a.cancelled)] }
  else { shared := m, out := some (.cancelled a.cancelled) }

def getActionResult (m : OperationManager) (a : OperationAnswers) (goalId : Str) :
    OperationOutcome :=
  if !isValidUuidHex goalId then
    { shared := m
      out := some (.result
        { errorMessage := str "Invalid goal_id format: must be 32 hex characters" }) }
  else if !m.hasTransport then
    { shared := m, out := some (.result { errorMessage := str "ActionTransport not configured" }) }
  else if a.result.success then
    { shared := m, next := [.updateGoalStatus goalId a.result.status (.result a.result)] }
  else { shared := m, out := some (.result a.result) }

/-- The stream writes what it says, terminal or not. -/
def onStatusCallback (m : OperationManager) (a : OperationAnswers) (actionPath goalId : Str)
    (status : ActionGoalStatus) : OperationOutcome :=
  match m.trackedGoals[goalId]? with
  | none => { shared := m }
  | some info =>
      if info.actionPath ≠ actionPath then { shared := m }
      else if info.status = status then { shared := m }
      else
        { shared :=
            { m with
              trackedGoals := m.trackedGoals.insert goalId
                { info with status := status, lastUpdate := a.now } }
          out :=
            if m.hasNotifier then some (.notified info.entityId goalId actionPath status.text)
            else none }

/-! ## Cleaning up -/

def stuckGoalAgeMultiplier : Int := 2

def age (a : OperationAnswers) (info : ActionGoalInfo) : Int :=
  (a.now - info.lastUpdate).tdiv 1000000000

def isEvicted (a : OperationAnswers) (maxAge : Int) (info : ActionGoalInfo) : Bool :=
  if info.status.isTerminal then age a info > maxAge
  else age a info > maxAge * stuckGoalAgeMultiplier

def evictedGoals (m : OperationManager) (a : OperationAnswers) (maxAge : Int) :
    List ActionGoalInfo := m.goals.filter (isEvicted a maxAge)

def stuckWarning (info : ActionGoalInfo) : Str :=
  str "Evicting stuck action goal '" ++ info.goalId ++ str "' (status=" ++ info.status.text ++
    str ") - last_update older than 2x max_age"

def cleanupOldGoals (m : OperationManager) (a : OperationAnswers) (maxAge : Int) :
    OperationOutcome where
  shared := { m with trackedGoals := m.trackedGoals.keep fun _ info => !isEvicted a maxAge info }
  next := ((Std.ExtTreeSet.ofList ((m.evictedGoals a maxAge).map (·.actionPath)) compare : OSet Str)
    ).toList.map .checkAction
  out := some (.warned
    (((m.evictedGoals a maxAge).filter fun info => !info.status.isTerminal).map stuckWarning))

def checkAction (m : OperationManager) (actionPath : Str) : OperationOutcome where
  shared := m
  next := if (m.getGoalsForAction actionPath).isEmpty then
      [.unsubscribeFromActionStatus actionPath]
    else []

/-! ## Subscriptions -/

def subscribeToActionStatus (m : OperationManager) (actionPath : Str) : OperationOutcome :=
  if !m.hasTransport then { shared := m }
  else if actionPath ∈ m.subscribedPaths then { shared := m }
  else
    { shared := { m with subscribedPaths := m.subscribedPaths.insert actionPath }
      next := [.transportSubscribe actionPath] }

def unsubscribeFromActionStatus (m : OperationManager) (actionPath : Str) : OperationOutcome :=
  if m.hasGoalsForAction actionPath then { shared := m }
  else if actionPath ∈ m.subscribedPaths then
    { shared := { m with subscribedPaths := m.subscribedPaths.erase actionPath }
      next := if m.hasTransport then [.transportUnsubscribe actionPath] else [] }
  else { shared := m }

def transportUnsubscribe (m : OperationManager) (actionPath : Str) : OperationOutcome where
  shared := { m with liveStreams := m.liveStreams.erase actionPath }
  next := [.recheckGoals actionPath]

def recheckGoals (m : OperationManager) (actionPath : Str) : OperationOutcome where
  shared := m
  next := if m.hasGoalsForAction actionPath then [.repairFlag actionPath] else []

def repairFlag (m : OperationManager) (actionPath : Str) : OperationOutcome where
  shared := { m with subscribedPaths := m.subscribedPaths.erase actionPath }
  next := [.subscribeToActionStatus actionPath]

def shutdown (m : OperationManager) : OperationOutcome where
  shared := { m with subscribedPaths := ∅ }
  next := (if m.hasTransport then m.subscribedPaths.toList.map .dropStream else []) ++ [.clearGoals]

/-! ## The program -/

def runTask (m : OperationManager) (task : OperationTask) (a : OperationAnswers) :
    OperationOutcome :=
  match task with
  | .sendActionGoal actionPath actionType entityId =>
      m.sendActionGoal a actionPath actionType entityId
  | .trackGoal actionPath actionType entityId result =>
      m.trackGoal a actionPath actionType entityId result
  | .subscribeToActionStatus actionPath => m.subscribeToActionStatus actionPath
  | .transportSubscribe actionPath =>
      { shared := { m with liveStreams := m.liveStreams.insert actionPath } }
  | .updateGoalStatus goalId status reply => m.updateGoalStatus a goalId status reply
  | .cancelActionGoal actionPath goalId => m.cancelActionGoal actionPath goalId
  | .transportCancel _ goalId => m.transportCancel a goalId
  | .getActionResult _ _ goalId => m.getActionResult a goalId
  | .onStatusCallback actionPath goalId status => m.onStatusCallback a actionPath goalId status
  | .cleanupOldGoals maxAge => m.cleanupOldGoals a maxAge
  | .checkAction actionPath => m.checkAction actionPath
  | .unsubscribeFromActionStatus actionPath => m.unsubscribeFromActionStatus actionPath
  | .transportUnsubscribe actionPath => m.transportUnsubscribe actionPath
  | .recheckGoals actionPath => m.recheckGoals actionPath
  | .repairFlag actionPath => m.repairFlag actionPath
  | .shutdown => m.shutdown
  | .dropStream actionPath =>
      { shared := { m with liveStreams := m.liveStreams.erase actionPath } }
  | .clearGoals => { shared := { m with trackedGoals := ∅ } }

def program : Program OperationManager OperationTask OperationAnswers OperationReply Empty where
  run := runTask
  boot _ := nofun

end OperationManager

def OperationTask.opensCall : OperationTask → Bool
  | .sendActionGoal .. | .cancelActionGoal .. | .getActionResult .. | .onStatusCallback ..
  | .cleanupOldGoals _ | .unsubscribeFromActionStatus _ | .shutdown => true
  | _ => false

end Medkit.Gateway
