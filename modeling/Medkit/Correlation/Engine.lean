import Medkit.Correlation.Config
import Medkit.Lib.Machine

/-! The correlation engine as a sequential machine: its lock makes every public
method one step. Time points are nanoseconds, `timestamp` is the argument of a
report and `now` the steady clock read while the call runs, so the two are
independent. The cluster counter is a natural number: 2^64 clusters are not
created in the life of a process. -/
namespace Medkit.Correlation

open Lib

structure ProcessFaultResult where
  shouldMute : Bool := false
  isRootCause : Bool := false
  rootCauseCode : Str := []
  ruleId : Str := []
  delayMs : Nat := 0
  clusterId : Str := []
  retroactiveMuteCodes : List Str := []

structure ProcessClearResult where
  autoClearedCodes : List Str := []

structure MutedFaultData where
  faultCode : Str
  rootCauseCode : Str
  ruleId : Str
  delayMs : Nat
deriving DecidableEq

structure ClusterData where
  clusterId : Str
  ruleId : Str
  ruleName : Str
  label : Str
  representativeCode : Str
  representativeSeverity : Str
  faultCodes : List Str
  firstAt : Int
  lastAt : Int
deriving DecidableEq

structure PendingRootCause where
  faultCode : Str
  ruleId : Str
  timestamp : Int
  windowMs : Nat

structure PendingCluster where
  data : ClusterData
  steadyFirstAt : Int
  faultSeverities : OMap Str Str

structure EngineState where
  pendingRootCauses : List PendingRootCause := []
  rootToSymptoms : OMap Str (List Str) := ∅
  mutedFaults : OMap Str MutedFaultData := ∅
  activeClusters : OMap Str ClusterData := ∅
  faultToCluster : OMap Str Str := ∅
  pendingClusters : OMap Str PendingCluster := ∅
  clusterCounter : Nat := 0

structure FaultReport where
  faultCode : Str
  severity : Str
  timestamp : Int
  now : Int
  nowSystem : Int

/-- `duration_cast` to milliseconds truncates towards zero. -/
def elapsedMs (since now : Int) : Int := (now - since).tdiv 1000000

def uint32 (n : Int) : Nat := (n % 2 ^ 32).toNat

def EngineState.dropExpiredRootCauses (st : EngineState) (now : Int) : EngineState :=
  { st with pendingRootCauses := st.pendingRootCauses.filter fun prc =>
      elapsedMs prc.timestamp now ≤ prc.windowMs }

section Reports

variable (config : EngineConfig)

/-! ## Root causes and symptoms -/

def rootCauseRule (faultCode : Str) : Option CorrelationRule :=
  config.rules.find? fun rule =>
    rule.mode = .hierarchical && matchesAny faultCode rule.rootCauseCodes

def tryAsRootCause (faultCode : Str) : Option Str :=
  (rootCauseRule config faultCode).map (·.id)

def EngineState.registerRootCause (st : EngineState) (report : FaultReport) (ruleId : Str) :
    EngineState :=
  match config.rules.find? (·.id = ruleId) with
  | none => st
  | some rule =>
      { st with
        pendingRootCauses := st.pendingRootCauses ++
          [⟨report.faultCode, rule.id, report.timestamp, rule.windowMs⟩]
        rootToSymptoms := st.rootToSymptoms.insert report.faultCode [] }

def matchesSymptom (rule : CorrelationRule) (faultCode : Str) : Bool :=
  rule.symptomPatternIds.any (config.matchesPattern faultCode) ||
    (!rule.inlineSymptomCodes.isEmpty && matchesAny faultCode rule.inlineSymptomCodes)

def symptomRule (report : FaultReport) (prc : PendingRootCause) : Option CorrelationRule :=
  config.rules.find? fun rule =>
    rule.id = prc.ruleId && rule.mode = .hierarchical &&
      matchesSymptom config rule report.faultCode &&
      elapsedMs prc.timestamp report.timestamp ≤ rule.windowMs

def findRootCause (pending : List PendingRootCause) (report : FaultReport) :
    Option (PendingRootCause × CorrelationRule) :=
  pending.findSome? fun prc => (symptomRule config report prc).map (prc, ·)

def EngineState.symptoms (st : EngineState) (rootCause : Str) : List Str :=
  st.rootToSymptoms[rootCause]?.getD []

def symptomResult (report : FaultReport) (prc : PendingRootCause) (rule : CorrelationRule) :
    ProcessFaultResult :=
  { shouldMute := rule.muteSymptoms
    rootCauseCode := prc.faultCode
    ruleId := rule.id
    delayMs := uint32 (elapsedMs prc.timestamp report.timestamp) }

def EngineState.recordSymptom (st : EngineState) (report : FaultReport) (prc : PendingRootCause)
    (rule : CorrelationRule) : EngineState :=
  let symptoms := st.symptoms prc.faultCode
  { st with
    rootToSymptoms := st.rootToSymptoms.insert prc.faultCode
      (if report.faultCode ∈ symptoms then symptoms else symptoms ++ [report.faultCode])
    mutedFaults :=
      if rule.muteSymptoms then
        st.mutedFaults.insert report.faultCode
          ⟨report.faultCode, prc.faultCode, rule.id, (symptomResult report prc rule).delayMs⟩
      else st.mutedFaults }

def tryAsSymptom (st : EngineState) (report : FaultReport) :
    Option (EngineState × ProcessFaultResult) :=
  match findRootCause config st.pendingRootCauses report with
  | none => none
  | some (prc, rule) => some (st.recordSymptom report prc rule, symptomResult report prc rule)

/-! ## Auto-clusters -/

def clusterRule (faultCode : Str) : Option CorrelationRule :=
  config.rules.find? fun rule =>
    rule.mode = .autoCluster && rule.matchPatternIds.any (config.matchesPattern faultCode)

def generateClusterId (ruleId : Str) (counter : Nat) : Str :=
  ruleId ++ str "_" ++ decimal counter

/-- The rule's pending cluster, unless its window has passed. -/
def EngineState.openCluster (st : EngineState) (rule : CorrelationRule) (timestamp : Int) :
    Option PendingCluster :=
  match st.pendingClusters[rule.id]? with
  | none => none
  | some pending =>
      if elapsedMs pending.steadyFirstAt timestamp > rule.windowMs then none else some pending

def newCluster (rule : CorrelationRule) (clusterId : Str) (report : FaultReport) :
    PendingCluster where
  data :=
    { clusterId := clusterId
      ruleId := rule.id
      ruleName := rule.name
      label := rule.name
      representativeCode := report.faultCode
      representativeSeverity := report.severity
      faultCodes := [report.faultCode]
      firstAt := report.nowSystem
      lastAt := report.nowSystem }
  steadyFirstAt := report.timestamp
  faultSeverities := Std.ExtTreeMap.ofList [(report.faultCode, report.severity)] compare

/-- A pending cluster of the rule whose window has passed is replaced; the
entries of its members in `faultToCluster` are not touched. -/
def EngineState.startCluster (st : EngineState) (rule : CorrelationRule) (report : FaultReport) :
    EngineState × ProcessFaultResult :=
  let counter := st.clusterCounter + 1
  let clusterId := generateClusterId rule.id counter
  ({ st with
      clusterCounter := counter
      pendingClusters := st.pendingClusters.insert rule.id (newCluster rule clusterId report)
      faultToCluster := st.faultToCluster.insert report.faultCode clusterId },
    { clusterId := clusterId })

def repeatResult (rule : CorrelationRule) (cluster : ClusterData) (faultCode : Str) :
    ProcessFaultResult :=
  { clusterId := cluster.clusterId
    shouldMute := rule.showAsSingle && faultCode ≠ cluster.representativeCode &&
      rule.minCount ≤ cluster.faultCodes.length }

def updatesRepresentative (rule : CorrelationRule) (cluster : ClusterData) (severity : Str) : Bool :=
  match rule.representative with
  | .first => false
  | .mostRecent => true
  | .highestSeverity => severityRank severity > severityRank cluster.representativeSeverity

def PendingCluster.join (pending : PendingCluster) (rule : CorrelationRule) (report : FaultReport) :
    PendingCluster :=
  let update := updatesRepresentative rule pending.data report.severity
  { pending with
    data :=
      { pending.data with
        faultCodes := pending.data.faultCodes ++ [report.faultCode]
        lastAt := report.nowSystem
        representativeCode :=
          if update then report.faultCode else pending.data.representativeCode
        representativeSeverity :=
          if update then report.severity else pending.data.representativeSeverity }
    faultSeverities := pending.faultSeverities.insert report.faultCode report.severity }

/-- The part of a join that depends on the threshold. The cluster counts as newly
activated only while no active cluster has its id. -/
def EngineState.activate (st : EngineState) (rule : CorrelationRule) (cluster : ClusterData)
    (faultCode : Str) : EngineState × ProcessFaultResult :=
  if rule.minCount ≤ cluster.faultCodes.length then
    let newlyActivated := !st.activeClusters.contains cluster.clusterId
    ({ st with activeClusters := st.activeClusters.insert cluster.clusterId cluster },
      { clusterId := cluster.clusterId
        retroactiveMuteCodes :=
          if newlyActivated && rule.showAsSingle then
            cluster.faultCodes.filter fun code =>
              code ≠ cluster.representativeCode && code ≠ faultCode
          else []
        shouldMute := rule.showAsSingle && faultCode ≠ cluster.representativeCode })
  else (st, { clusterId := cluster.clusterId })

def EngineState.joinCluster (st : EngineState) (rule : CorrelationRule) (pending : PendingCluster)
    (report : FaultReport) : EngineState × ProcessFaultResult :=
  let pending := pending.join rule report
  let st := { st with
    pendingClusters := st.pendingClusters.insert rule.id pending
    faultToCluster := st.faultToCluster.insert report.faultCode pending.data.clusterId }
  st.activate rule pending.data report.faultCode

def tryAutoCluster (st : EngineState) (report : FaultReport) :
    Option (EngineState × ProcessFaultResult) :=
  match clusterRule config report.faultCode with
  | none => none
  | some rule =>
      match st.openCluster rule report.timestamp with
      | none => some (st.startCluster rule report)
      | some pending =>
          if report.faultCode ∈ pending.data.faultCodes then
            some (st, repeatResult rule pending.data report.faultCode)
          else some (st.joinCluster rule pending report)

def processFault (st : EngineState) (report : FaultReport) : EngineState × ProcessFaultResult :=
  let st := st.dropExpiredRootCauses report.now
  match tryAsSymptom config st report with
  | some outcome => outcome
  | none =>
      match tryAsRootCause config report.faultCode with
      | some ruleId =>
          (st.registerRootCause config report ruleId, { isRootCause := true, ruleId := ruleId })
      | none =>
          match tryAutoCluster config st report with
          | some outcome => outcome
          | none => (st, {})

end Reports

section Clears

variable (config : EngineConfig)

/-! ## Clearing a fault -/

/-- The rule lookup of `process_clear`: first through the pending entry of the
root cause, then through every hierarchical rule its code matches. -/
def autoClears (st : EngineState) (faultCode : Str) : Bool :=
  (match st.pendingRootCauses.find? (·.faultCode = faultCode) with
    | none => false
    | some prc => config.rules.any fun rule => rule.id = prc.ruleId && rule.autoClearWithRoot) ||
  config.rules.any fun rule =>
    rule.mode = .hierarchical && rule.autoClearWithRoot && matchesAny faultCode rule.rootCauseCodes

def EngineState.clearRootCause (st : EngineState) (faultCode : Str) : EngineState :=
  { st with
    mutedFaults := st.mutedFaults.eraseAll (st.symptoms faultCode)
    rootToSymptoms := st.rootToSymptoms.erase faultCode
    pendingRootCauses := st.pendingRootCauses.filter (·.faultCode ≠ faultCode) }

def highestSeverity (severities : OMap Str Str) : List Str → Str → Int → Str
  | [], bestCode, _ => bestCode
  | code :: codes, bestCode, bestRank =>
      let rank := match severities[code]? with
        | none => 0
        | some severity => severityRank severity
      if rank > bestRank then highestSeverity severities codes code rank
      else highestSeverity severities codes bestCode bestRank

def electRepresentative (representative : Representative) (codes : List Str)
    (severities : OMap Str Str) : Str :=
  match representative with
  | .first => codes.headD []
  | .highestSeverity => highestSeverity severities codes (codes.headD []) (-1)
  | .mostRecent => codes.getLastD []

def PendingCluster.remove (pending : PendingCluster) (ruleId faultCode : Str) :
    Option PendingCluster :=
  let codes := pending.data.faultCodes.filter (· ≠ faultCode)
  let severities := pending.faultSeverities.erase faultCode
  let data := { pending.data with faultCodes := codes }
  if codes.isEmpty then none
  else if pending.data.representativeCode = faultCode then
    match config.rules.find? (·.id = ruleId) with
    | none => some { pending with data := data, faultSeverities := severities }
    | some rule =>
        let code := electRepresentative rule.representative codes severities
        some { pending with
          data := { data with
            representativeCode := code
            representativeSeverity := severities[code]?.getD [] }
          faultSeverities := severities }
  else some { pending with data := data, faultSeverities := severities }

/-- The active cluster takes its new representative from the pending cluster with
its id, if there still is one. -/
def ClusterData.syncRepresentative (cluster : ClusterData) (pendings : OMap Str PendingCluster)
    (clusterId : Str) : ClusterData :=
  match pendings.toList.find? (·.2.data.clusterId = clusterId) with
  | none => cluster
  | some entry =>
      { cluster with
        representativeCode := entry.2.data.representativeCode
        representativeSeverity := entry.2.data.representativeSeverity }

def removeFromActive (active : OMap Str ClusterData) (pendings : OMap Str PendingCluster)
    (clusterId faultCode : Str) : OMap Str ClusterData :=
  match active[clusterId]? with
  | none => active
  | some cluster =>
      let codes := cluster.faultCodes.filter (· ≠ faultCode)
      let cluster' := { cluster with faultCodes := codes }
      if codes.isEmpty then active.erase clusterId
      else if cluster.representativeCode = faultCode then
        active.insert clusterId (cluster'.syncRepresentative pendings clusterId)
      else active.insert clusterId cluster'

def removeFromPending (pendings : OMap Str PendingCluster) (clusterId faultCode : Str) :
    OMap Str PendingCluster :=
  OMap.mapMaybe (fun ruleId pending =>
    if pending.data.clusterId ≠ clusterId then some pending
    else pending.remove config ruleId faultCode) pendings

def EngineState.clearFromCluster (st : EngineState) (faultCode : Str) : EngineState :=
  match st.faultToCluster[faultCode]? with
  | none => st
  | some clusterId =>
      let pendings := removeFromPending config st.pendingClusters clusterId faultCode
      { st with
        pendingClusters := pendings
        activeClusters := removeFromActive st.activeClusters pendings clusterId faultCode
        faultToCluster := st.faultToCluster.erase faultCode }

def processClear (st : EngineState) (faultCode : Str) : EngineState × ProcessClearResult :=
  let cleared := (st.clearRootCause faultCode).clearFromCluster config faultCode
  ({ cleared with mutedFaults := cleared.mutedFaults.erase faultCode },
    { autoClearedCodes := if autoClears config st faultCode then st.symptoms faultCode else [] })

/-! ## Queries and expiry -/

def EngineState.isMuted (st : EngineState) (faultCode : Str) : Bool :=
  st.mutedFaults.contains faultCode

def EngineState.getMutedFaults (st : EngineState) : List MutedFaultData :=
  st.mutedFaults.toList.map Prod.snd

def EngineState.getMutedCount (st : EngineState) : Nat := uint32 st.mutedFaults.size

def EngineState.getClusters (st : EngineState) : List ClusterData :=
  st.activeClusters.toList.map Prod.snd

def EngineState.getClusterCount (st : EngineState) : Nat := uint32 st.activeClusters.size

def pendingExpired (now : Int) (ruleId : Str) (pending : PendingCluster) : Bool :=
  match config.rules.find? (·.id = ruleId) with
  | none => false
  | some rule => elapsedMs pending.steadyFirstAt now > rule.windowMs

/-- Members of an expired pending cluster that never became active are forgotten. -/
def EngineState.forgottenCodes (st : EngineState) (now : Int) : List Str :=
  (st.pendingClusters.toList.filter fun entry => pendingExpired config now entry.1 entry.2).flatMap
    fun entry =>
      if st.activeClusters.contains entry.2.data.clusterId then [] else entry.2.data.faultCodes

def cleanupExpired (st : EngineState) (now : Int) : EngineState :=
  { st.dropExpiredRootCauses now with
    faultToCluster := st.faultToCluster.eraseAll (st.forgottenCodes config now)
    pendingClusters := OMap.keep (fun ruleId pending => !pendingExpired config now ruleId pending)
      st.pendingClusters }

/-! ## The machine -/

inductive EngineCall where
  | processFault (report : FaultReport)
  | processClear (faultCode : Str)
  | cleanupExpired (now : Int)

inductive EngineReply where
  | fault (result : ProcessFaultResult)
  | clear (result : ProcessClearResult)
  | done

abbrev EngineEvent := Event EngineState EngineCall EngineReply

def engineStep (st : EngineState) : EngineCall → EngineState × EngineReply
  | .processFault report =>
      ((processFault config st report).1, .fault (processFault config st report).2)
  | .processClear faultCode =>
      ((processClear config st faultCode).1, .clear (processClear config st faultCode).2)
  | .cleanupExpired now => (cleanupExpired config st now, .done)

def engine : Machine EngineState EngineCall EngineReply where
  init := {}
  step := engineStep config

end Clears

/-! ## A sample configuration -/

/-- Drive faults are symptoms of a motor fault, and a cluster of their own when
there is no motor fault. -/
def stallConfig : EngineConfig where
  enabled := true
  patterns := Std.ExtTreeMap.ofList [(str "drive", ⟨[str "DRIVE_*"]⟩)] compare
  rules :=
    [{ id := str "stall", name := str "Motor stall", rootCauseCodes := [str "MOTOR_*"]
       symptomPatternIds := [str "drive"] },
     { id := str "burst", name := str "Drive burst", mode := .autoCluster
       matchPatternIds := [str "drive"], minCount := 2 }]
  isEnabled := rfl
  isValid := by decide

def errorAt (code : String) (ms : Int) : EngineCall :=
  .processFault ⟨str code, str "ERROR", ms * 1000000, ms * 1000000, ms * 1000000⟩

end Medkit.Correlation
