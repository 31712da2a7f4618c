import Medkit.Correlation.Engine
import Medkit.FaultManager.FaultStorage

/-! The services of the fault manager node, for a node with a correlation engine
and any storage backend. The store and the engine are two states that the handlers
update one after the other. Calls into components that keep no state of the two
(event publisher, audit log, captures) are recorded in the order they are made; the
wall clock is read once per request. -/
namespace Medkit.FaultManager

open Lib
open Correlation (EngineConfig EngineState ProcessFaultResult MutedFaultData ClusterData)

structure FaultStorage (σ : Type) where
  reportFaultEvent : σ → FaultReport → σ × Bool
  getFault : σ → Str → Option FaultMsg
  listFaults : σ → Bool → Byte → List Str → List FaultMsg
  clearFault : σ → Str → σ × Bool
  checkTimeBasedConfirmation : σ → Int → σ × List Str

def inMemoryStorage : FaultStorage InMemoryFaultStorage where
  reportFaultEvent := InMemoryFaultStorage.reportFaultEvent
  getFault := InMemoryFaultStorage.getFault
  listFaults := InMemoryFaultStorage.listFaults
  clearFault := InMemoryFaultStorage.clearFault
  checkTimeBasedConfirmation := InMemoryFaultStorage.checkTimeBasedConfirmation

structure FaultManagerNode (σ : Type) where
  storage : FaultStorage σ
  correlation : EngineConfig
  resolveConfig : Str → DebounceConfig

structure NodeState (σ : Type) where
  store : σ
  engine : EngineState := {}

inductive FaultEventType where
  | confirmed
  | updated
  | cleared

inductive NodeEffect where
  | publishFaultEvent (eventType : FaultEventType) (fault : FaultMsg) (autoClearedCodes : List Str)
  | auditTransition (transition : Str) (fault : FaultMsg) (sourceId : Str) (occurredAtNs : Int)
  | captureOnConfirm (faultCode : Str)
  | forgetCapture (faultCode : Str)
  | rosbagPrefailed (faultCode : Str)
  | rosbagCleared (faultCode : Str)

/-! ## Request validation -/

def maxFaultCodeLength : Nat := 256

def isFaultCodeByte (b : Byte) : Bool :=
  isDigitByte b || (65 ≤ b.val && b.val ≤ 90) || (97 ≤ b.val && b.val ≤ 122) ||
    b = 95 || b = 45 || b = 46

def containsDotDot : Str → Bool
  | 46 :: 46 :: _ => true
  | _ :: rest => containsDotDot rest
  | [] => false

def validateFaultCode (faultCode : Str) : Str :=
  if faultCode.isEmpty then str "fault_code cannot be empty"
  else if faultCode.length > maxFaultCodeLength then
    str "fault_code exceeds maximum length of " ++ decimal maxFaultCodeLength
  else
    match faultCode.find? (fun b => !isFaultCodeByte b) with
    | some b =>
        str "fault_code contains invalid character '" ++ [b] ++
          str "'. Only alphanumeric, underscore, hyphen, and dot are allowed"
    | none => if containsDotDot faultCode then str "fault_code cannot contain '..'" else []

def isValidSeverity (severity : Byte) : Bool := severity ≤ severityCritical

def severityToString (severity : Byte) : Str :=
  if severity = 0 then str "INFO"
  else if severity = 1 then str "WARNING"
  else if severity = 2 then str "ERROR"
  else if severity = 3 then str "CRITICAL"
  else str "UNKNOWN"

/-! ## Reporting -/

structure ReportFaultRequest where
  faultCode : Str
  eventType : Byte
  severity : Byte
  description : Str
  sourceId : Str

structure ReportClocks where
  eventTime : Int
  steadyTimestamp : Int
  steadyNow : Int
  systemNow : Int

structure ReportFaultResponse where
  accepted : Bool
  correlation : Option ProcessFaultResult := none
  effects : List NodeEffect := []

def NodeEffect.onlyIf (happened : Bool) (effect : NodeEffect) : List NodeEffect :=
  if happened then [effect] else []

def reportEffects (request : ReportFaultRequest) (eventTime : Int) (isNew : Bool)
    (statusBefore : FaultStatus) (fault : FaultMsg) (shouldMute : Bool) : List NodeEffect :=
  let justConfirmed := fault.status = .confirmed && (isNew || statusBefore ≠ .confirmed)
  let updated := !isNew && statusBefore = .confirmed && fault.status = .confirmed
  let justHealed := !isNew && statusBefore ≠ .healed && fault.status = .healed
  let justPrefailed := fault.status = .prefailed && (isNew || statusBefore ≠ .prefailed)
  List.flatten
    [NodeEffect.onlyIf (justConfirmed && !shouldMute) (.publishFaultEvent .confirmed fault []),
      NodeEffect.onlyIf (updated && !shouldMute) (.publishFaultEvent .updated fault []),
      NodeEffect.onlyIf justHealed (.publishFaultEvent .cleared fault []),
      NodeEffect.onlyIf isNew
        (.auditTransition (str "occurred") fault request.sourceId eventTime),
      NodeEffect.onlyIf justConfirmed
        (.auditTransition (str "confirmed") fault request.sourceId eventTime),
      NodeEffect.onlyIf justHealed
        (.auditTransition (str "healed") fault (str "auto_heal") eventTime),
      NodeEffect.onlyIf justConfirmed (.captureOnConfirm request.faultCode),
      NodeEffect.onlyIf justPrefailed (.rosbagPrefailed request.faultCode)]

variable {σ : Type}

def acceptsReport (request : ReportFaultRequest) : Bool :=
  (validateFaultCode request.faultCode).isEmpty &&
    (request.eventType = eventFailed || request.eventType = eventPassed) &&
    !(request.eventType = eventFailed && !isValidSeverity request.severity) &&
    !request.sourceId.isEmpty

/-- The engine sees FAILED reports on stored faults only. -/
def correlateReport (node : FaultManagerNode σ) (engine : EngineState)
    (request : ReportFaultRequest) (clocks : ReportClocks) :
    EngineState × Option ProcessFaultResult :=
  if request.eventType = eventFailed then
    let outcome := Correlation.processFault node.correlation engine
      ⟨request.faultCode, severityToString request.severity, clocks.steadyTimestamp,
        clocks.steadyNow, clocks.systemNow⟩
    (outcome.1, some outcome.2)
  else (engine, none)

def handleReportFault (node : FaultManagerNode σ) (st : NodeState σ)
    (request : ReportFaultRequest) (clocks : ReportClocks) : NodeState σ × ReportFaultResponse :=
  if !acceptsReport request then (st, { accepted := false })
  else
    let statusBefore := match node.storage.getFault st.store request.faultCode with
      | none => FaultStatus.unset
      | some fault => fault.status
    let (store, isNew) := node.storage.reportFaultEvent st.store
      { faultCode := request.faultCode
        eventType := request.eventType
        severity := request.severity
        description := request.description
        sourceId := request.sourceId
        timestamp := clocks.eventTime
        config := node.resolveConfig request.sourceId }
    match node.storage.getFault store request.faultCode with
    | none => ({ st with store := store }, { accepted := true })
    | some fault =>
        let (engine, result) := correlateReport node st.engine request clocks
        let shouldMute := match result with
          | none => false
          | some result => result.shouldMute
        ({ store := store, engine := engine },
          { accepted := true
            correlation := result
            effects := reportEffects request clocks.eventTime isNew statusBefore fault shouldMute })

/-! ## Clearing -/

structure ClearFaultRequest where
  faultCode : Str
  skipCorrelationAutoClear : Bool := false

structure ClearFaultResponse where
  success : Bool
  message : Str
  autoClearedCodes : List Str := []
  effects : List NodeEffect := []

def clearSymptoms (storage : FaultStorage σ) (wallTime : Int) :
    List Str → σ → σ × List NodeEffect
  | [], store => (store, [])
  | code :: codes, store =>
      let store := (storage.clearFault store code).1
      let audit := match storage.getFault store code with
        | none => []
        | some symptom =>
            [NodeEffect.auditTransition (str "cleared") symptom (str "clear_service") wallTime]
      let (store, effects) := clearSymptoms storage wallTime codes store
      (store, audit ++ [.rosbagCleared code] ++ effects)

def clearedMessage (faultCode : Str) (autoClearedCodes : List Str) : Str :=
  if autoClearedCodes.isEmpty then str "Fault cleared: " ++ faultCode
  else
    str "Fault cleared: " ++ faultCode ++ str " (auto-cleared " ++
      decimal autoClearedCodes.length ++ str " symptoms)"

/-- The engine is asked only when the caller has not opted out of the cascade. -/
def correlateClear (node : FaultManagerNode σ) (engine : EngineState)
    (request : ClearFaultRequest) : EngineState × List Str :=
  if request.skipCorrelationAutoClear then (engine, [])
  else
    let outcome := Correlation.processClear node.correlation engine request.faultCode
    (outcome.1, outcome.2.autoClearedCodes)

def handleClearFault (node : FaultManagerNode σ) (st : NodeState σ)
    (request : ClearFaultRequest) (wallTime : Int) : NodeState σ × ClearFaultResponse :=
  let validationError := validateFaultCode request.faultCode
  if !validationError.isEmpty then (st, { success := false, message := validationError })
  else
    let (engine, autoClearedCodes) := correlateClear node st.engine request
    let (store, cleared) := node.storage.clearFault st.store request.faultCode
    if cleared then
      let (store, symptomEffects) := clearSymptoms node.storage wallTime autoClearedCodes store
      let published := match node.storage.getFault store request.faultCode with
        | none => []
        | some fault =>
            [.publishFaultEvent .cleared fault autoClearedCodes,
              .auditTransition (str "cleared") fault (str "clear_service") wallTime]
      ({ store := store, engine := engine },
        { success := true
          message := clearedMessage request.faultCode autoClearedCodes
          autoClearedCodes := autoClearedCodes
          effects := (request.faultCode :: autoClearedCodes).map .forgetCapture ++ symptomEffects ++
            [.rosbagCleared request.faultCode] ++ published })
    else
      ({ store := store, engine := engine },
        { success := false, message := str "Fault not found: " ++ request.faultCode })

/-! ## Listing -/

structure ListFaultsRequest where
  filterBySeverity : Bool := false
  severity : Byte := 0
  statuses : List Str := []
  includeMuted : Bool := false
  includeClusters : Bool := false

structure ClusterInfo extends ClusterData where
  count : Nat

structure ListFaultsResponse where
  faults : List FaultMsg
  mutedCount : Nat
  mutedFaults : List MutedFaultData
  clusterCount : Nat
  clusters : List ClusterInfo

def handleListFaults (node : FaultManagerNode σ) (st : NodeState σ) (request : ListFaultsRequest) :
    ListFaultsResponse :=
  let faults := node.storage.listFaults st.store request.filterBySeverity request.severity
    request.statuses
  let muted := st.engine.getMutedFaults
  { faults :=
      if request.includeMuted then faults
      else faults.filter fun fault => fault.faultCode ∉ muted.map (·.faultCode)
    mutedCount := st.engine.getMutedCount
    mutedFaults := if request.includeMuted then muted else []
    clusterCount := st.engine.getClusterCount
    clusters :=
      if request.includeClusters then
        st.engine.getClusters.map fun cluster =>
          { cluster with count := Correlation.uint32 cluster.faultCodes.length }
      else [] }

/-! ## Timers and the machine -/

/-- The confirmation timer publishes what it confirmed, unless it is muted. -/
def autoConfirmTimer (node : FaultManagerNode σ) (st : NodeState σ) (wallTime : Int) :
    NodeState σ × List NodeEffect :=
  let (store, confirmed) := node.storage.checkTimeBasedConfirmation st.store wallTime
  ({ st with store := store },
    confirmed.flatMap fun faultCode =>
      match node.storage.getFault store faultCode with
      | none => []
      | some fault =>
          [.auditTransition (str "confirmed") fault (str "auto_confirm_timer") wallTime] ++
            (if st.engine.isMuted faultCode then []
              else [.publishFaultEvent .confirmed fault []]) ++
            [.captureOnConfirm faultCode])

inductive NodeCall where
  | reportFault (request : ReportFaultRequest) (clocks : ReportClocks)
  | clearFault (request : ClearFaultRequest) (wallTime : Int)
  | listFaults (request : ListFaultsRequest)
  | cleanupTimer (steadyNow : Int)
  | autoConfirmTimer (wallTime : Int)

inductive NodeReply where
  | report (response : ReportFaultResponse)
  | clear (response : ClearFaultResponse)
  | list (response : ListFaultsResponse)
  | timer (effects : List NodeEffect)

def nodeStep (node : FaultManagerNode σ) (st : NodeState σ) : NodeCall → NodeState σ × NodeReply
  | .reportFault request clocks =>
      ((handleReportFault node st request clocks).1,
        .report (handleReportFault node st request clocks).2)
  | .clearFault request wallTime =>
      ((handleClearFault node st request wallTime).1,
        .clear (handleClearFault node st request wallTime).2)
  | .listFaults request => (st, .list (handleListFaults node st request))
  | .cleanupTimer steadyNow =>
      ({ st with engine := Correlation.cleanupExpired node.correlation st.engine steadyNow },
        .timer [])
  | .autoConfirmTimer wallTime =>
      ((autoConfirmTimer node st wallTime).1, .timer (autoConfirmTimer node st wallTime).2)

def nodeMachine (node : FaultManagerNode σ) (store : σ) :
    Machine (NodeState σ) NodeCall NodeReply where
  init := { store := store }
  step := nodeStep node

end Medkit.FaultManager
