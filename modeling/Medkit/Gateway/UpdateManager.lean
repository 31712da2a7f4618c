import Medkit.Lib.Tasks
import Medkit.Lib.Bytes
import Medkit.Lib.OrderedMap

/-! The update manager. Its calls hold `mutex_` or call the backend, never both except
for the queries of a start, and are cut there into tasks. A started operation runs on a
thread of its own; here it goes on in the queue of the call that started it, which has
replied by then. -/
namespace Medkit.Gateway

open Lib

/-! ## Status -/

inductive UpdateStatus where
  | pending
  | inProgress
  | completed
  | failed

inductive UpdatePhase where
  | none
  | preparing
  | prepared
  | executing
  | executed
  | failed
  | deleting
deriving DecidableEq

structure UpdateSubProgress where
  name : Str
  progress : Int

structure UpdateStatusInfo where
  status : UpdateStatus := .pending
  phase : UpdatePhase := .none
  progress : Option Int := none
  subProgress : Option (List UpdateSubProgress) := none
  errorMessage : Option Str := none

/-! ## Errors -/

inductive UpdateErrorCode where
  | notFound
  | alreadyExists
  | inProgress
  | notPrepared
  | notAutomated
  | invalidRequest
  | deleting
  | noBackend
  | internal

structure UpdateError where
  code : UpdateErrorCode
  message : Str

inductive UpdateBackendError where
  | notFound
  | alreadyExists
  | invalidInput
  | internal
deriving DecidableEq

structure UpdateBackendErrorInfo where
  code : UpdateBackendError
  message : Str
deriving DecidableEq

/-! ## The backend -/

/-- How a call of the backend ends; an exception may carry a text. -/
inductive BackendResult where
  | done
  | failed (error : UpdateBackendErrorInfo)
  | threw (what : Option Str)
deriving DecidableEq

inductive ProgressReport where
  | progress (percent : Int)
  | subProgress (steps : List UpdateSubProgress)

structure UpdateAnswers where
  result : BackendResult := .done
  /-- the call goes on and reports this first -/
  report : Option ProgressReport := none
  automated : Bool := true

/-! ## State -/

structure PackageState where
  /-- where it was allocated -/
  address : Nat
  status : UpdateStatusInfo := {}
  /-- the future, if there is one -/
  activeTask : Option Nat := none

structure UpdateManager where
  hasBackend : Bool := true
  states : OMap Str PackageState := ∅
  stopped : Bool := false
  /-- the futures whose task has returned -/
  ready : List Nat := []
  nextFuture : Nat := 0
  nextAddress : Nat := 0
  /-- a task has used a state that is gone -/
  corrupted : Bool := false
  /-- what the backend has registered, as its replies say -/
  registered : OSet Str := ∅

inductive UpdateReply where
  | done
  | failed (error : UpdateError)
  | status (info : UpdateStatusInfo)
  /-- the exception of the backend leaves the call -/
  | raised

inductive UpdateOperation where
  | prepare
  | execute
  | automated

def UpdateOperation.phase : UpdateOperation → UpdatePhase
  | .prepare => .prepared
  | .execute | .automated => .executed

def UpdateOperation.name : UpdateOperation → Str
  | .prepare => str "prepare"
  | .execute => str "execute"
  | .automated => str "automated update"

inductive UpdateTask where
  | registerUpdate (id : Str)
  | registerSeed (id : Str)
  | deleteUpdate (id : Str)
  | deleteBackend (id : Str) (hadState : Bool)
  | deleteErase (id : Str)
  | deleteRestore (id : Str) (hadState : Bool) (error : UpdateBackendErrorInfo)
  | startPrepare (id : Str)
  | startExecute (id : Str)
  | startAutomated (id : Str)
  | runPrepare (id : Str) (future : Nat)
  | runExecute (id : Str) (future : Nat)
  | runAutomated (id : Str) (future : Nat)
  | backendPrepare (automated : Bool) (id : Str) (address future : Nat)
  | automatedNext (id : Str) (address future : Nat)
  | backendExecute (automated : Bool) (id : Str) (address future : Nat)
  | finish (operation : UpdateOperation) (result : BackendResult) (id : Str)
      (address future : Nat)
  | taskEnd (id : Str) (future : Nat)
  | getStatus (id : Str)
  | shutdown

abbrev UpdateOutcome := Outcome UpdateManager UpdateTask UpdateReply

def UpdateOutcome.fail (m : UpdateManager) (code : UpdateErrorCode) (message : Str) :
    UpdateOutcome :=
  { shared := m, out := some (.failed ⟨code, message⟩) }

namespace UpdateManager

/-! ## States -/

def addState (m : UpdateManager) (id : Str) (status : UpdateStatusInfo) : UpdateManager :=
  { m with
    states := m.states.insert id { address := m.nextAddress, status := status }
    nextAddress := m.nextAddress + 1 }

def modifyStatus (m : UpdateManager) (id : Str) (f : UpdateStatusInfo → UpdateStatusInfo) :
    UpdateManager :=
  { m with states := m.states.modify id fun state => { state with status := f state.status } }

def writeStatus (m : UpdateManager) (id : Str) (address : Nat)
    (f : UpdateStatusInfo → UpdateStatusInfo) : UpdateManager :=
  match m.states[id]? with
  | some state =>
      if state.address = address then m.modifyStatus id f else { m with corrupted := true }
  | none => { m with corrupted := true }

def isTaskActive (m : UpdateManager) (id : Str) : Bool :=
  match m.states[id]? with
  | none => false
  | some state => state.activeTask.any fun future => !m.ready.contains future

def setFailed (message : Str) (status : UpdateStatusInfo) : UpdateStatusInfo :=
  { status with status := .failed, phase := .failed, errorMessage := some message }

/-! ## Registration and deletion -/

def registerUpdate (m : UpdateManager) (a : UpdateAnswers) (id : Str) : UpdateOutcome :=
  if !m.hasBackend then .fail m .noBackend (str "No update backend loaded")
  else
    match a.result with
    | .done =>
        { shared := { m with registered := m.registered.insert id }, next := [.registerSeed id] }
    | .failed error =>
        match error.code with
        | .alreadyExists => .fail m .alreadyExists error.message
        | .invalidInput => .fail m .invalidRequest error.message
        | .notFound | .internal => .fail m .internal error.message
    | .threw _ => { shared := m, out := some .raised }

def registerSeed (m : UpdateManager) (id : Str) : UpdateOutcome where
  shared := if id ∈ m.states then m else m.addState id {}
  out := some .done

/-- The state is marked so that nothing is started while the backend deletes. -/
def deleteUpdate (m : UpdateManager) (id : Str) : UpdateOutcome :=
  if !m.hasBackend then .fail m .noBackend (str "No update backend loaded")
  else if id ∈ m.states then
    if m.isTaskActive id then
      .fail m .inProgress (str "Cannot delete update while operation is in progress")
    else
      { shared := m.modifyStatus id fun status => { status with phase := .deleting }
        next := [.deleteBackend id true] }
  else
    { shared := m.addState id { phase := .deleting }, next := [.deleteBackend id false] }

def deleteBackend (m : UpdateManager) (a : UpdateAnswers) (id : Str) (hadState : Bool) :
    UpdateOutcome :=
  match a.result with
  | .done => { shared := { m with registered := m.registered.erase id }, next := [.deleteErase id] }
  | .failed error => { shared := m, next := [.deleteRestore id hadState error] }
  | .threw _ => { shared := m, out := some .raised }

def deleteErase (m : UpdateManager) (id : Str) : UpdateOutcome where
  shared := { m with states := m.states.erase id }
  out := some .done

def deleteRestore (m : UpdateManager) (id : Str) (hadState : Bool)
    (error : UpdateBackendErrorInfo) : UpdateOutcome :=
  let m := if hadState then m.modifyStatus id (setFailed error.message)
    else { m with states := m.states.erase id }
  match error.code with
  | .notFound => .fail m .notFound error.message
  | .alreadyExists | .invalidInput | .internal => .fail m .internal error.message

/-! ## Starts -/

def launch (m : UpdateManager) (id : Str) (phase : UpdatePhase) (task : Nat → UpdateTask) :
    UpdateOutcome where
  shared :=
    { m with
      states := m.states.modify id fun state =>
        { state with status := { phase := phase }, activeTask := some m.nextFuture }
      nextFuture := m.nextFuture + 1 }
  next := [task m.nextFuture]
  out := some .done

/-- `start_prepare` and `start_automated` from the test of the running task on. -/
def startNew (m : UpdateManager) (id : Str) (task : Nat → UpdateTask) : UpdateOutcome :=
  if m.isTaskActive id then
    .fail m .inProgress (str "An operation is already in progress for this package")
  else
    let m := if id ∈ m.states then m else m.addState id {}
    if m.states[id]?.any fun state => state.status.phase = .deleting then
      .fail m .deleting (str "Package is being deleted")
    else m.launch id .preparing task

def startPrepare (m : UpdateManager) (a : UpdateAnswers) (id : Str) : UpdateOutcome :=
  if !m.hasBackend then .fail m .noBackend (str "No update backend loaded")
  else if m.stopped then .fail m .internal (str "UpdateManager is shutting down")
  else
    match a.result with
    | .failed error => .fail m .notFound error.message
    | .threw _ => { shared := m, out := some .raised }
    | .done => m.startNew id (.runPrepare id)

def startExecute (m : UpdateManager) (a : UpdateAnswers) (id : Str) : UpdateOutcome :=
  if !m.hasBackend then .fail m .noBackend (str "No update backend loaded")
  else if m.stopped then .fail m .internal (str "UpdateManager is shutting down")
  else
    match a.result with
    | .failed error => .fail m .notFound error.message
    | .threw _ => { shared := m, out := some .raised }
    | .done =>
        if !m.states[id]?.any fun state => state.status.phase = .prepared then
          .fail m .notPrepared (str "Package must be prepared before execution")
        else if m.isTaskActive id then
          .fail m .inProgress (str "An operation is already in progress for this package")
        else m.launch id .executing (.runExecute id)

def startAutomated (m : UpdateManager) (a : UpdateAnswers) (id : Str) : UpdateOutcome :=
  if !m.hasBackend then .fail m .noBackend (str "No update backend loaded")
  else if m.stopped then .fail m .internal (str "UpdateManager is shutting down")
  else
    match a.result with
    | .failed error => .fail m .notFound error.message
    | .threw _ => { shared := m, out := some .raised }
    | .done =>
        if !a.automated then
          .fail m .notAutomated (str "Package does not support automated updates")
        else m.startNew id (.runAutomated id)

def getStatus (m : UpdateManager) (id : Str) : Except UpdateError UpdateStatusInfo :=
  match m.states[id]? with
  | some state => .ok state.status
  | none => .error ⟨.notFound, str "No status available for package '" ++ id ++ str "'"⟩

/-! ## Operations -/

/-- The first lock of an operation. A missing state is a null pointer. -/
def enter (m : UpdateManager) (id : Str) (call : Nat → UpdateTask) : UpdateOutcome :=
  match m.states[id]? with
  | none => { shared := { m with corrupted := true } }
  | some state =>
      { shared := m.modifyStatus id fun status => { status with status := .inProgress }
        next := [call state.address] }

def runPrepare (m : UpdateManager) (id : Str) (future : Nat) : UpdateOutcome :=
  m.enter id fun address => .backendPrepare false id address future

def runExecute (m : UpdateManager) (id : Str) (future : Nat) : UpdateOutcome :=
  m.enter id fun address => .backendExecute false id address future

def runAutomated (m : UpdateManager) (id : Str) (future : Nat) : UpdateOutcome :=
  m.enter id fun address => .backendPrepare true id address future

def ProgressReport.apply (report : ProgressReport) (status : UpdateStatusInfo) :
    UpdateStatusInfo :=
  match report with
  | .progress percent => { status with progress := some percent }
  | .subProgress steps => { status with subProgress := some steps }

/-- A call of the backend that reports progress or returns. -/
def backendCall (m : UpdateManager) (a : UpdateAnswers) (call : UpdateTask) (id : Str)
    (address : Nat) (returned : BackendResult → UpdateTask) : UpdateOutcome :=
  match a.report with
  | some report =>
      { shared := m.writeStatus id address (ProgressReport.apply report), next := [call] }
  | none => { shared := m, next := [returned a.result] }

def backendPrepare (m : UpdateManager) (a : UpdateAnswers) (automated : Bool) (id : Str)
    (address future : Nat) : UpdateOutcome :=
  m.backendCall a (.backendPrepare automated id address future) id address fun result =>
    if automated then
      if result = .done then .automatedNext id address future
      else .finish .automated result id address future
    else .finish .prepare result id address future

def backendExecute (m : UpdateManager) (a : UpdateAnswers) (automated : Bool) (id : Str)
    (address future : Nat) : UpdateOutcome :=
  m.backendCall a (.backendExecute automated id address future) id address fun result =>
    .finish (if automated then .automated else .execute) result id address future

def automatedNext (m : UpdateManager) (id : Str) (address future : Nat) : UpdateOutcome where
  shared := m.writeStatus id address fun status =>
    { status with phase := .executing, progress := none, subProgress := none }
  next := [.backendExecute true id address future]

/-- The last lock of an operation. An exception is noted in the state that the id has then. -/
def finish (m : UpdateManager) (operation : UpdateOperation) (result : BackendResult) (id : Str)
    (address future : Nat) : UpdateOutcome where
  shared :=
    match result with
    | .done => m.writeStatus id address fun status =>
        { status with status := .completed, phase := operation.phase }
    | .failed error => m.writeStatus id address (setFailed error.message)
    | .threw (some what) => m.modifyStatus id (setFailed (str "Exception: " ++ what))
    | .threw none =>
        m.modifyStatus id (setFailed (str "Unknown exception during " ++ operation.name))
  next := [.taskEnd id future]

/-- The futures are taken out of the states and waited for. -/
def shutdown (m : UpdateManager) : UpdateManager :=
  { m with
    stopped := true
    states := m.states.map fun _ state => { state with activeTask := none } }

/-! ## The program -/

def runTask (m : UpdateManager) (task : UpdateTask) (a : UpdateAnswers) : UpdateOutcome :=
  match task with
  | .registerUpdate id => m.registerUpdate a id
  | .registerSeed id => m.registerSeed id
  | .deleteUpdate id => m.deleteUpdate id
  | .deleteBackend id hadState => m.deleteBackend a id hadState
  | .deleteErase id => m.deleteErase id
  | .deleteRestore id hadState error => m.deleteRestore id hadState error
  | .startPrepare id => m.startPrepare a id
  | .startExecute id => m.startExecute a id
  | .startAutomated id => m.startAutomated a id
  | .runPrepare id future => m.runPrepare id future
  | .runExecute id future => m.runExecute id future
  | .runAutomated id future => m.runAutomated id future
  | .backendPrepare automated id address future => m.backendPrepare a automated id address future
  | .automatedNext id address future => m.automatedNext id address future
  | .backendExecute automated id address future => m.backendExecute a automated id address future
  | .finish operation result id address future => m.finish operation result id address future
  | .taskEnd _ future => { shared := { m with ready := future :: m.ready } }
  | .getStatus id =>
      { shared := m
        out := some (match m.getStatus id with | .ok info => .status info | .error e => .failed e) }
  | .shutdown => { shared := m.shutdown }

def program : Program UpdateManager UpdateTask UpdateAnswers UpdateReply Empty where
  run := runTask
  boot _ := nofun

end UpdateManager

def UpdateTask.opensCall : UpdateTask → Bool
  | .registerUpdate _ | .deleteUpdate _ | .startPrepare _ | .startExecute _ | .startAutomated _
  | .getStatus _ | .shutdown => true
  | _ => false

end Medkit.Gateway
