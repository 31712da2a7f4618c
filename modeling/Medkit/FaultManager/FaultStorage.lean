import Medkit.Lib.OrderedMap
import Medkit.FaultManager.Debounce

/-! The in-memory fault store: the fault records with their debounce state, the
near-miss series of each fault code, and the value snapshots that a clear drops.
Timestamps are nanosecond counts. -/
namespace Medkit.FaultManager

open Lib

def uint32Max : Nat := 4294967295

structure FaultReport where
  faultCode : Str
  eventType : Byte
  severity : Byte
  description : Str
  sourceId : Str
  timestamp : Int
  config : DebounceConfig

def FaultReport.isFailed (r : FaultReport) : Bool := r.eventType = eventFailed

structure FaultMsg where
  faultCode : Str
  severity : Byte
  description : Str
  firstOccurred : Int
  lastOccurred : Int
  lastPassed : Int
  occurrenceCount : Nat
  status : FaultStatus
  reportingSources : List Str

structure NearMissRecord where
  faultCode : Str
  occurredAtNs : Int
  debounceCounter : Int
  confirmationThreshold : Int
  severity : Byte
  sourceId : Str
  resultingStatus : FaultStatus

structure SnapshotData where
  faultCode : Str
  topic : Str
  messageType : Str
  data : Str
  capturedAtNs : Int
  captureId : Int
deriving DecidableEq

structure FaultState where
  faultCode : Str
  severity : Byte
  description : Str
  firstOccurred : Int
  lastOccurred : Int
  occurrenceCount : Nat
  status : FaultStatus
  reportingSources : OSet Str
  debounceCounter : Int
  lastFailedTime : Int
  lastPassedTime : Int

def FaultState.toMsg (state : FaultState) : FaultMsg where
  faultCode := state.faultCode
  severity := state.severity
  description := state.description
  firstOccurred := state.firstOccurred
  lastOccurred := state.lastOccurred
  lastPassed := state.lastPassedTime
  occurrenceCount := state.occurrenceCount
  status := state.status
  reportingSources := state.reportingSources.toList

def FaultState.updateStatus (state : FaultState) (config : DebounceConfig) : FaultState :=
  { state with status := computeDebounceStatus state.debounceCounter state.status config }

/-- How every FAILED report ends: CRITICAL confirms at once, anything else goes
through the shared state machine. -/
def FaultState.settle (state : FaultState) (r : FaultReport) : FaultState :=
  if bypassesDebounce r.config r.severity then { state with status := .confirmed }
  else state.updateStatus r.config

theorem FaultState.settle_eq (state : FaultState) (r : FaultReport) :
    state.settle r = { state with
      status :=
        if bypassesDebounce r.config r.severity then .confirmed
        else computeDebounceStatus state.debounceCounter state.status r.config } := by
  unfold FaultState.settle FaultState.updateStatus
  split <;> rfl

def FaultState.created (r : FaultReport) : FaultState :=
  FaultState.settle
    { faultCode := r.faultCode
      severity := r.severity
      description := r.description
      firstOccurred := r.timestamp
      lastOccurred := r.timestamp
      occurrenceCount := 1
      status := .unset
      reportingSources := (∅ : OSet Str).insert r.sourceId
      debounceCounter := -1
      lastFailedTime := r.timestamp
      lastPassedTime := 0 } r

def FaultState.reactivated (state : FaultState) (r : FaultReport) : FaultState :=
  FaultState.settle
    { state with
      debounceCounter := -1
      firstOccurred := r.timestamp
      lastFailedTime := r.timestamp
      lastOccurred := r.timestamp
      reportingSources := state.reportingSources.insert r.sourceId
      occurrenceCount :=
        if state.occurrenceCount < uint32Max then state.occurrenceCount + 1
        else state.occurrenceCount
      severity := if r.severity > state.severity then r.severity else state.severity
      description := if r.description.isEmpty then state.description else r.description } r

/-- A live fault reported FAILED. The stored counter is brought into the band of
this report's thresholds before it moves. -/
def FaultState.failed (state : FaultState) (r : FaultReport) : FaultState :=
  FaultState.settle
    { state with
      lastOccurred := r.timestamp
      lastFailedTime := r.timestamp
      debounceCounter :=
        clampDebounceCounter (clampDebounceCounter state.debounceCounter r.config - 1) r.config
      reportingSources := state.reportingSources.insert r.sourceId
      severity := if r.severity > state.severity then r.severity else state.severity
      description := if r.description.isEmpty then state.description else r.description } r

def FaultState.passed (state : FaultState) (r : FaultReport) : FaultState :=
  FaultState.updateStatus
    { state with
      lastPassedTime := r.timestamp
      debounceCounter :=
        clampDebounceCounter (clampDebounceCounter state.debounceCounter r.config + 1) r.config }
    r.config

def FaultState.afterReport (r : FaultReport) : Option FaultState → Option FaultState
  | none => if r.isFailed then some (.created r) else none
  | some state =>
      if state.status = .cleared then
        if r.isFailed then some (state.reactivated r) else some state
      else if r.isFailed then some (state.failed r)
      else some (state.passed r)

/-- The statuses a list request asks for. Unknown ones are ignored, and a request
without a known one means CONFIRMED. -/
def statusFilter (statuses : List Str) : List Str :=
  let known := statuses.filter fun status =>
    status ∈ [FaultStatus.prefailed.text, FaultStatus.prepassed.text, FaultStatus.confirmed.text,
      FaultStatus.healed.text, FaultStatus.cleared.text]
  if known.isEmpty then [FaultStatus.confirmed.text] else known

structure InMemoryFaultStorage where
  faults : OMap Str FaultState := ∅
  nearMisses : OMap Str (List NearMissRecord) := ∅
  snapshots : List SnapshotData := []
  config : DebounceConfig := {}
  retainSnapshotsOnClear : Bool := false
  /-- 0 = unlimited -/
  maxNearMissesPerFault : Nat := 0

namespace InMemoryFaultStorage

def trimSeries (maxCount : Nat) (series : List NearMissRecord) : List NearMissRecord :=
  if series.length > maxCount then series.drop (series.length - maxCount) else series

def recordNearMiss (st : InMemoryFaultStorage) (state : FaultState) (r : FaultReport) :
    InMemoryFaultStorage :=
  let record : NearMissRecord :=
    { faultCode := state.faultCode
      occurredAtNs := r.timestamp
      debounceCounter := state.debounceCounter
      confirmationThreshold := r.config.confirmationThreshold
      severity := r.severity
      sourceId := r.sourceId
      resultingStatus := state.status }
  let series := (st.nearMisses[state.faultCode]?).getD [] ++ [record]
  let kept :=
    if st.maxNearMissesPerFault > 0 then trimSeries st.maxNearMissesPerFault series else series
  { st with nearMisses := st.nearMisses.insert state.faultCode kept }

def storeFailed (st : InMemoryFaultStorage) (r : FaultReport) (state : FaultState) :
    InMemoryFaultStorage :=
  let st := if isNearMiss true state.status then st.recordNearMiss state r else st
  { st with faults := st.faults.insert r.faultCode state }

def reportFaultEvent (st : InMemoryFaultStorage) (r : FaultReport) :
    InMemoryFaultStorage × Bool :=
  match st.faults[r.faultCode]? with
  | none =>
      if r.isFailed then (st.storeFailed r (.created r), true)
      else (st, false)
  | some state =>
      if state.status = .cleared then
        if r.isFailed then (st.storeFailed r (state.reactivated r), true)
        else (st, false)
      else if r.isFailed then (st.storeFailed r (state.failed r), false)
      else ({ st with faults := st.faults.insert r.faultCode (state.passed r) }, false)

def getFault (st : InMemoryFaultStorage) (faultCode : Str) : Option FaultMsg :=
  st.faults[faultCode]?.map FaultState.toMsg

def clearFault (st : InMemoryFaultStorage) (faultCode : Str) : InMemoryFaultStorage × Bool :=
  match st.faults[faultCode]? with
  | none => (st, false)
  | some state =>
      ({ st with
          snapshots :=
            if st.retainSnapshotsOnClear then st.snapshots
            else st.snapshots.filter (·.faultCode ≠ faultCode)
          faults := st.faults.insert faultCode { state with status := .cleared } }, true)

/-- PREFAILED for at least the configured time, in double arithmetic. -/
def dueForConfirmation (config : DebounceConfig) (currentTime : Int) (state : FaultState) : Bool :=
  let thresholdNs := config.autoConfirmAfterSec * 1e9
  let ageNs := currentTime - state.lastFailedTime
  state.status = .prefailed && decide (Float.ofInt ageNs ≥ thresholdNs)

def checkTimeBasedConfirmation (st : InMemoryFaultStorage) (currentTime : Int) :
    InMemoryFaultStorage × List Str :=
  if st.config.autoConfirmAfterSec ≤ 0.0 then (st, [])
  else
    ({ st with
        faults := st.faults.map fun _ state =>
          if dueForConfirmation st.config currentTime state then
            { state with status := .confirmed }
          else state },
      (st.faults.toList.filter fun entry =>
        dueForConfirmation st.config currentTime entry.2).map (·.1))

def reclassifyHealedAsCleared (st : InMemoryFaultStorage) : InMemoryFaultStorage × List Str :=
  let reclassified := (st.faults.toList.filter (·.2.status = .healed)).map (·.1)
  ({ st with
      faults := st.faults.map fun _ state =>
        if state.status = .healed then { state with status := .cleared } else state
      snapshots :=
        if !st.retainSnapshotsOnClear && !reclassified.isEmpty then
          st.snapshots.filter (·.faultCode ∉ reclassified)
        else st.snapshots },
    reclassified)

def setMaxNearMissesPerFault (st : InMemoryFaultStorage) (maxCount : Nat) :
    InMemoryFaultStorage × Nat :=
  let st := { st with maxNearMissesPerFault := maxCount }
  if maxCount = 0 then (st, 0)
  else
    ({ st with nearMisses := st.nearMisses.map fun _ series => trimSeries maxCount series },
      (st.nearMisses.toList.map fun entry => entry.2.length - maxCount).sum)

def getNearMisses (st : InMemoryFaultStorage) (faultCode : Str) : List NearMissRecord :=
  (st.nearMisses[faultCode]?).getD []

def listFaults (st : InMemoryFaultStorage) (filterBySeverity : Bool) (severity : Byte)
    (statuses : List Str) : List FaultMsg :=
  (st.faults.toList.filter fun entry =>
    entry.2.status.text ∈ statusFilter statuses &&
      !(filterBySeverity && entry.2.severity ≠ severity)).map (·.2.toMsg)

/-! ## The fault records after each call -/

variable (st : InMemoryFaultStorage)

@[simp] theorem storeFailed_faults (r : FaultReport) (state : FaultState) :
    (st.storeFailed r state).faults = st.faults.insert r.faultCode state := by
  unfold storeFailed
  dsimp only
  split <;> rfl

theorem reportFaultEvent_faults (r : FaultReport) (code : Str) :
    (st.reportFaultEvent r).1.faults[code]? =
      if r.faultCode = code then FaultState.afterReport r st.faults[code]?
      else st.faults[code]? := by
  unfold reportFaultEvent FaultState.afterReport
  by_cases hcode : r.faultCode = code
  · subst hcode
    rw [if_pos rfl]
    cases hst : st.faults[r.faultCode]? with
    | none => dsimp only; split_ifs <;> simp [hst]
    | some state => dsimp only; split_ifs <;> simp [hst]
  · rw [if_neg hcode]
    split <;> split_ifs <;> simp [Std.ExtTreeMap.getElem?_insert, hcode]

theorem clearFault_faults (cleared code : Str) : (st.clearFault cleared).1.faults[code]? =
      if cleared = code then st.faults[code]?.map fun state => { state with status := .cleared }
      else st.faults[code]? := by
  unfold clearFault
  by_cases hcode : cleared = code
  · subst hcode
    rw [if_pos rfl]
    split <;> simp_all
  · rw [if_neg hcode]
    split <;> simp [Std.ExtTreeMap.getElem?_insert, hcode]

theorem checkTimeBasedConfirmation_faults (currentTime : Int) (code : Str) :
    (st.checkTimeBasedConfirmation currentTime).1.faults[code]? =
      st.faults[code]?.map fun state =>
        if ¬ st.config.autoConfirmAfterSec ≤ 0.0 ∧
            dueForConfirmation st.config currentTime state then
          { state with status := .confirmed }
        else state := by
  unfold checkTimeBasedConfirmation
  by_cases hoff : st.config.autoConfirmAfterSec ≤ 0.0
  · simp [hoff]
  · simp [hoff]

end InMemoryFaultStorage

end Medkit.FaultManager
