import Medkit.FaultManager.Node
import Medkit.Correlation.ClearResidue

/-! Muting across the node's services. A mute is set by a FAILED report that the
engine classifies as a symptom, and lifted when the engine processes a clear; a
clear that opts out of the cascade never reaches the engine, so it lifts nothing. -/
namespace Medkit.FaultManager

open Lib
open Correlation (EngineConfig EngineState ProcessFaultResult)

variable {σ : Type} {node : FaultManagerNode σ} {st : NodeState σ}

abbrev NodeEvent (σ : Type) := Event (NodeState σ) NodeCall NodeReply

def IsMutedSymptom (result : ProcessFaultResult) : Prop :=
  result.shouldMute = true ∧ result.clusterId = []
deriving Decidable

/-- After the latest successful clear of the code, on its own or along with a root
cause, a FAILED report of it was classified as a muted symptom; the newest event
comes first. -/
def MutedSince (code : Str) : List (NodeEvent σ) → Prop
  | [] => False
  | event :: history =>
      match event.op, event.out with
      | .reportFault request _, .report response =>
          (request.faultCode = code ∧ request.eventType = eventFailed ∧
            ∃ result ∈ response.correlation, IsMutedSymptom result) ∨ MutedSince code history
      | .clearFault request _, .clear response =>
          ¬ (response.success = true ∧
            (request.faultCode = code ∨ code ∈ response.autoClearedCodes)) ∧
          MutedSince code history
      | _, _ => MutedSince code history

instance MutedSince.decidable (code : Str) :
    (history : List (NodeEvent σ)) → Decidable (MutedSince code history)
  | [] => inferInstanceAs (Decidable False)
  | event :: history =>
      have := MutedSince.decidable code history
      match event with
      | ⟨_, .reportFault _ _, .report _⟩ =>
          inferInstanceAs (Decidable ((_ ∧ _ ∧ ∃ result ∈ _, _) ∨ MutedSince code history))
      | ⟨_, .clearFault _ _, .clear _⟩ =>
          inferInstanceAs (Decidable (¬ (_ ∧ (_ ∨ _)) ∧ MutedSince code history))
      | ⟨_, .reportFault _ _, .clear _⟩ => this
      | ⟨_, .reportFault _ _, .list _⟩ => this
      | ⟨_, .reportFault _ _, .timer _⟩ => this
      | ⟨_, .clearFault _ _, .report _⟩ => this
      | ⟨_, .clearFault _ _, .list _⟩ => this
      | ⟨_, .clearFault _ _, .timer _⟩ => this
      | ⟨_, .listFaults _, _⟩ => this
      | ⟨_, .cleanupTimer _, _⟩ => this
      | ⟨_, .autoConfirmTimer _, _⟩ => this

/-- A clear that opts out of the cascade is for a code that is not muted. -/
def SkipsOnlyUnmuted (st : NodeState σ) : NodeCall → Prop
  | .clearFault request _ =>
      request.skipCorrelationAutoClear = true → st.engine.isMuted request.faultCode = false
  | _ => True

/-! ## The mutes after each request -/

variable {engine : EngineState} {code : Str} {config : EngineConfig}

theorem isMuted_iff :
    engine.isMuted code = true ↔ ∃ data, engine.mutedFaults[code]? = some data := by
  unfold EngineState.isMuted
  rw [Std.ExtTreeMap.contains_eq_isSome_getElem?, Option.isSome_iff_exists]

theorem isMuted_outcome {after : EngineState} {report : Correlation.FaultReport}
    {result : ProcessFaultResult}
    (hout : Correlation.FaultOutcome config engine report after result)
    (hmuted : after.isMuted code = true) :
    (report.faultCode = code ∧ IsMutedSymptom result) ∨ engine.isMuted code = true := by
  cases hout with
  | @symptom prc rule hfound =>
    cases hmute : rule.muteSymptoms with
    | false =>
      rw [isMuted_iff] at hmuted ⊢
      exact .inr (by simpa [EngineState.recordSymptom, hmute] using hmuted)
    | true =>
      by_cases hcode : report.faultCode = code
      · exact .inl ⟨hcode, hmute, rfl⟩
      · rw [isMuted_iff] at hmuted ⊢
        simp only [EngineState.recordSymptom, hmute, if_true,
          Std.ExtTreeMap.getElem?_insert] at hmuted
        simpa [hcode] using hmuted
  | rootCause | started | repeated | joined | activated | uncorrelated => exact .inr hmuted

theorem isMuted_correlateReport {request : ReportFaultRequest} {clocks : ReportClocks}
    (hmuted : (correlateReport node engine request clocks).1.isMuted code = true) :
    (request.faultCode = code ∧ request.eventType = eventFailed ∧
      ∃ result ∈ (correlateReport node engine request clocks).2, IsMutedSymptom result) ∨
    engine.isMuted code = true := by
  unfold correlateReport at hmuted ⊢
  split_ifs at hmuted ⊢ with hfailed
  · have hout := Correlation.processFault_outcome node.correlation engine
      ⟨request.faultCode, severityToString request.severity, clocks.steadyTimestamp,
        clocks.steadyNow, clocks.systemNow⟩
    rcases isMuted_outcome hout hmuted with ⟨hcode, hresult⟩ | hbefore
    · exact .inl ⟨hcode, hfailed, _, rfl, hresult⟩
    · exact .inr hbefore
  · exact .inr hmuted

theorem handleReportFault_cases (node : FaultManagerNode σ) (st : NodeState σ)
    (request : ReportFaultRequest) (clocks : ReportClocks) :
    (handleReportFault node st request clocks).1.engine = st.engine ∨
    ((handleReportFault node st request clocks).1.engine =
        (correlateReport node st.engine request clocks).1 ∧
      (handleReportFault node st request clocks).2.correlation =
        (correlateReport node st.engine request clocks).2) := by
  unfold handleReportFault
  split_ifs
  · exact .inl rfl
  · dsimp only
    split
    · exact .inl rfl
    · exact .inr ⟨rfl, rfl⟩

theorem isMuted_handleReportFault {request : ReportFaultRequest} {clocks : ReportClocks}
    (hmuted : (handleReportFault node st request clocks).1.engine.isMuted code = true) :
    (request.faultCode = code ∧ request.eventType = eventFailed ∧
      ∃ result ∈ (handleReportFault node st request clocks).2.correlation,
        IsMutedSymptom result) ∨
    st.engine.isMuted code = true := by
  rcases handleReportFault_cases node st request clocks with hengine | ⟨hengine, hresult⟩
  · exact .inr (hengine ▸ hmuted)
  · rw [hengine] at hmuted
    rw [hresult]
    exact isMuted_correlateReport hmuted

theorem isMuted_correlateClear {request : ClearFaultRequest}
    (hmuted : (correlateClear node engine request).1.isMuted code = true) :
    engine.isMuted code = true ∧ code ∉ (correlateClear node engine request).2 ∧
      (request.skipCorrelationAutoClear = false → request.faultCode ≠ code) := by
  unfold correlateClear at hmuted ⊢
  split_ifs at hmuted ⊢ with hskip
  · exact ⟨hmuted, by simp, fun h => absurd (hskip.symm.trans h) (by decide)⟩
  · rw [Correlation.isMuted_processClear] at hmuted
    refine ⟨hmuted.2, ?_, fun _ heq => hmuted.1 (.inl heq.symm)⟩
    intro hcode
    apply hmuted.1
    dsimp only [Correlation.processClear] at hcode
    split_ifs at hcode
    · exact .inr hcode
    · cases hcode

theorem handleClearFault_cases (node : FaultManagerNode σ) (st : NodeState σ)
    (request : ClearFaultRequest) (wallTime : Int) :
    ((handleClearFault node st request wallTime).1.engine = st.engine ∧
      (handleClearFault node st request wallTime).2.success = false) ∨
    ((handleClearFault node st request wallTime).1.engine =
        (correlateClear node st.engine request).1 ∧
      ∀ code ∈ (handleClearFault node st request wallTime).2.autoClearedCodes,
        code ∈ (correlateClear node st.engine request).2) := by
  unfold handleClearFault
  dsimp only
  split_ifs
  · exact .inl ⟨rfl, rfl⟩
  · exact .inr ⟨rfl, fun _ hcode => hcode⟩
  · exact .inr ⟨rfl, by simp⟩

theorem isMuted_handleClearFault {request : ClearFaultRequest} {wallTime : Int}
    (hskips : SkipsOnlyUnmuted st (.clearFault request wallTime))
    (hmuted : (handleClearFault node st request wallTime).1.engine.isMuted code = true) :
    st.engine.isMuted code = true ∧
      ¬ ((handleClearFault node st request wallTime).2.success = true ∧
        (request.faultCode = code ∨
          code ∈ (handleClearFault node st request wallTime).2.autoClearedCodes)) := by
  rcases handleClearFault_cases node st request wallTime with
    ⟨hengine, hfailed⟩ | ⟨hengine, hcodes⟩
  · rw [hengine] at hmuted
    exact ⟨hmuted, fun h => absurd (hfailed.symm.trans h.1) (by decide)⟩
  · rw [hengine] at hmuted
    obtain ⟨hbefore, hkept, hother⟩ := isMuted_correlateClear hmuted
    refine ⟨hbefore, ?_⟩
    rintro ⟨-, rfl | hcode⟩
    · cases hskip : request.skipCorrelationAutoClear with
      | false => exact hother hskip rfl
      | true => exact absurd ((hskips hskip).symm.trans hbefore) (by decide)
    · exact hkept (hcodes code hcode)

/-! ## The listed mutes -/

def MutesKeyed (engine : EngineState) : Prop :=
  ∀ (code : Str) (data : Correlation.MutedFaultData), engine.mutedFaults[code]? = some data →
    data.faultCode = code

theorem MutesKeyed.outcome {after : EngineState} {report : Correlation.FaultReport}
    {result : ProcessFaultResult} (h : MutesKeyed engine)
    (hout : Correlation.FaultOutcome config engine report after result) : MutesKeyed after := by
  cases hout with
  | @symptom prc rule hfound =>
    intro code data hdata
    simp only [EngineState.recordSymptom] at hdata
    split_ifs at hdata
    · rw [Std.ExtTreeMap.getElem?_insert] at hdata
      split_ifs at hdata with hcode
      · cases hdata
        simpa using hcode
      · exact h code data hdata
    · exact h code data hdata
  | rootCause | started | repeated | joined | activated | uncorrelated => exact h

theorem MutesKeyed.processFault (h : MutesKeyed engine) (report : Correlation.FaultReport) :
    MutesKeyed (Correlation.processFault config engine report).1 := by
  have hlive : MutesKeyed (engine.dropExpiredRootCauses report.now) := h
  exact hlive.outcome (Correlation.processFault_outcome config engine report)

theorem MutesKeyed.processClear (h : MutesKeyed engine) (faultCode : Str) :
    MutesKeyed (Correlation.processClear config engine faultCode).1 := by
  intro code data hdata
  rw [Correlation.processClear_mutedFaults] at hdata
  split_ifs at hdata
  exact h code data hdata

theorem MutesKeyed.isMuted_of_listed (h : MutesKeyed engine)
    (hcode : code ∈ engine.getMutedFaults.map (·.faultCode)) : engine.isMuted code = true := by
  obtain ⟨data, hdata, rfl⟩ := List.mem_map.mp hcode
  obtain ⟨key, hkey⟩ := OMap.mem_values.mp hdata
  rw [isMuted_iff]
  exact ⟨data, h key data hkey ▸ hkey⟩

theorem engine_nodeStep {P : EngineState → Prop}
    (hfault : ∀ engine report, P engine → P (Correlation.processFault node.correlation engine report).1)
    (hclear : ∀ engine faultCode, P engine →
      P (Correlation.processClear node.correlation engine faultCode).1)
    (hcleanup : ∀ engine now, P engine → P (Correlation.cleanupExpired node.correlation engine now))
    (h : P st.engine) (call : NodeCall) : P (nodeStep node st call).1.engine := by
  cases call with
  | reportFault request clocks =>
    rcases handleReportFault_cases node st request clocks with hengine | ⟨hengine, -⟩
    · rw [nodeStep, hengine]
      exact h
    · rw [nodeStep, hengine, correlateReport]
      split_ifs
      · exact hfault _ _ h
      · exact h
  | clearFault request wallTime =>
    rcases handleClearFault_cases node st request wallTime with ⟨hengine, -⟩ | ⟨hengine, -⟩
    · rw [nodeStep, hengine]
      exact h
    · rw [nodeStep, hengine, correlateClear]
      split_ifs
      · exact h
      · exact hclear _ _ h
  | listFaults request => exact h
  | cleanupTimer steadyNow => exact hcleanup _ _ h
  | autoConfirmTimer wallTime => exact h

theorem MutesKeyed.step (h : MutesKeyed st.engine) (call : NodeCall) :
    MutesKeyed (nodeStep node st call).1.engine :=
  engine_nodeStep (fun _ report h => h.processFault report)
    (fun _ faultCode h => h.processClear faultCode) (fun _ _ h => h) h call

theorem isMuted_of_omitted {request : ListFaultsRequest} (hkeyed : MutesKeyed st.engine)
    (hinclude : request.includeMuted = false) {fault : FaultMsg}
    (hfault : fault ∈ node.storage.listFaults st.store request.filterBySeverity request.severity
      request.statuses) (homitted : fault ∉ (handleListFaults node st request).faults) :
    st.engine.isMuted fault.faultCode = true := by
  apply hkeyed.isMuted_of_listed
  by_contra hnot
  apply homitted
  simp only [handleListFaults, hinclude, Bool.false_eq_true, if_false, List.mem_filter,
    decide_eq_true_eq]
  exact ⟨hfault, hnot⟩

/-! ## Whole runs -/

theorem mutedSince_of_run {store : σ} {history : List (NodeEvent σ)}
    (hrun : (nodeMachine node store).Runs SkipsOnlyUnmuted history st) :
    ∀ code, st.engine.isMuted code = true → MutedSince code history := by
  apply hrun.invariant
    (fun history st => ∀ code, st.engine.isMuted code = true → MutedSince code history)
  · intro code hmuted
    simp [nodeMachine, EngineState.isMuted] at hmuted
  · intro history st call _ hskips h code hmuted
    cases call with
    | reportFault request clocks =>
      exact (isMuted_handleReportFault hmuted).imp_right (h code)
    | clearFault request wallTime =>
      obtain ⟨hbefore, hkept⟩ := isMuted_handleClearFault hskips hmuted
      exact ⟨hkept, h code hbefore⟩
    | listFaults request => exact h code hmuted
    | cleanupTimer steadyNow => exact h code hmuted
    | autoConfirmTimer wallTime => exact h code hmuted

theorem mutesKeyed_of_reachable {store : σ} (hst : (nodeMachine node store).Reachable st) :
    MutesKeyed st.engine := by
  apply hst.invariant (fun st => MutesKeyed st.engine)
  · intro code data hdata
    simp [nodeMachine] at hdata
  · intro st call h
    exact h.step call

theorem engine_reachable {store : σ} (hst : (nodeMachine node store).Reachable st) :
    (Correlation.engine node.correlation).Reachable st.engine := by
  apply hst.invariant (fun st => (Correlation.engine node.correlation).Reachable st.engine)
  · exact Machine.reachable_init _
  · intro st call h
    apply engine_nodeStep _ _ _ h call
    · exact fun _ report h => h.step (.processFault report)
    · exact fun _ faultCode h => h.step (.processClear faultCode)
    · exact fun _ now h => h.step (.cleanupExpired now)

/-- On any backend, no order of the node's requests and timers breaks the books of its engine. -/
theorem engine_books_kept (node : FaultManagerNode σ) (store : σ) (calls : List NodeCall) :
    let engine := ((nodeMachine node store).exec (nodeMachine node store).init calls).engine
    Correlation.RootInvariant node.correlation engine ∧
      Correlation.ClusterInvariant node.correlation engine ∧ MutesKeyed engine := by
  have hst := (nodeMachine node store).reachable_exec calls
  have hengine := engine_reachable hst
  exact ⟨Correlation.rootInvariant_of_reachable hengine,
    Correlation.clusterInvariant_of_reachable hengine, mutesKeyed_of_reachable hst⟩

/-- A successful clear lifts the mute of its code, and a list request hides a
confirmed fault only for a classification that came after the latest clear. -/
theorem cleared_codes_are_shown (node : FaultManagerNode σ) (store : σ)
    (history : List (NodeEvent σ)) (st : NodeState σ)
    (hrun : (nodeMachine node store).Runs SkipsOnlyUnmuted history st) :
    (∀ (request : ClearFaultRequest) (wallTime : Int),
      SkipsOnlyUnmuted st (.clearFault request wallTime) →
      (handleClearFault node st request wallTime).2.success = true →
      (handleClearFault node st request wallTime).1.engine.isMuted request.faultCode = false) ∧
    ∀ (request : ListFaultsRequest), request.includeMuted = false →
      ∀ fault ∈ node.storage.listFaults st.store request.filterBySeverity request.severity
          request.statuses,
        fault.status = .confirmed → fault ∉ (handleListFaults node st request).faults →
        MutedSince fault.faultCode history := by
  constructor
  · intro request wallTime hskips hsuccess
    rw [← Bool.not_eq_true]
    intro hmuted
    exact (isMuted_handleClearFault hskips hmuted).2 ⟨hsuccess, .inl rfl⟩
  · intro request hinclude fault hfault _ homitted
    apply mutedSince_of_run hrun
    exact isMuted_of_omitted (mutesKeyed_of_reachable hrun.reachable) hinclude hfault homitted

/-! ## The cascade -/

def InMemoryFaultStorage.Cleared (store : InMemoryFaultStorage) (code : Str) : Prop :=
  ∀ fault ∈ store.getFault code, fault.status = .cleared

theorem cleared_clearFault {store : InMemoryFaultStorage} {cleared : Str}
    (h : cleared = code ∨ store.Cleared code) : (store.clearFault cleared).1.Cleared code := by
  unfold InMemoryFaultStorage.Cleared InMemoryFaultStorage.getFault at h ⊢
  rw [InMemoryFaultStorage.clearFault_faults]
  split
  · simp [FaultState.toMsg]
  · exact h.resolve_left ‹_›

theorem cleared_clearSymptoms {wallTime : Int} {codes : List Str} {store : InMemoryFaultStorage}
    (h : code ∈ codes ∨ store.Cleared code) :
    (clearSymptoms inMemoryStorage wallTime codes store).1.Cleared code := by
  induction codes generalizing store with
  | nil => exact h.resolve_left List.not_mem_nil
  | cons first codes ih =>
    apply ih
    rw [List.mem_cons, or_assoc] at h
    rcases h with rfl | hcode | hcleared
    · exact .inr (cleared_clearFault (.inl rfl))
    · exact .inl hcode
    · exact .inr (cleared_clearFault (.inr hcleared))

/-- After a successful clear, its code and all codes it reports as auto-cleared are CLEARED in the
store, and the latter are not muted in the engine. -/
theorem cascade_reaches_store_and_engine (config : EngineConfig) (resolve : Str → DebounceConfig)
    (st : NodeState InMemoryFaultStorage) (request : ClearFaultRequest) (wallTime : Int) :
    let result := handleClearFault ⟨inMemoryStorage, config, resolve⟩ st request wallTime
    result.2.success = false ∧ result.2.autoClearedCodes = [] ∨
      result.1.store.Cleared request.faultCode ∧
        ∀ code ∈ result.2.autoClearedCodes,
          result.1.store.Cleared code ∧ result.1.engine.isMuted code = false := by
  unfold handleClearFault
  dsimp only
  split_ifs
  · exact .inl ⟨rfl, rfl⟩
  · refine .inr ⟨cleared_clearSymptoms (.inr (cleared_clearFault (.inl rfl))), ?_⟩
    intro code hcode
    refine ⟨cleared_clearSymptoms (.inl hcode), ?_⟩
    rw [← Bool.not_eq_true]
    intro hmuted
    exact (isMuted_correlateClear hmuted).2.1 hcode
  · exact .inl ⟨rfl, rfl⟩

/-! ## Sample runs -/

def stallNode : FaultManagerNode InMemoryFaultStorage where
  storage := inMemoryStorage
  correlation := Correlation.stallConfig
  resolveConfig := fun _ => {}

def failedAt (code : String) (ms : Int) : NodeCall :=
  .reportFault ⟨str code, eventFailed, 2, str "stalled", str "/drive"⟩
    ⟨ms * 1000000, ms * 1000000, ms * 1000000, ms * 1000000⟩

def mutedAndCleared : List NodeCall :=
  [failedAt "MOTOR_1" 0, failedAt "DRIVE_A" 10, .clearFault ⟨str "DRIVE_A", false⟩ 20000000,
    failedAt "DRIVE_A" 30]

theorem cleared_codes_are_shown_until_muted_again :
    (handleListFaults stallNode ((nodeMachine stallNode {}).exec { store := {} } mutedAndCleared)
        {}).faults.map (·.faultCode) = [str "MOTOR_1"] ∧
    ∀ fault ∈ stallNode.storage.listFaults
        ((nodeMachine stallNode {}).exec { store := {} } mutedAndCleared).store false 0 [],
      fault.status = .confirmed →
      fault ∉ (handleListFaults stallNode
        ((nodeMachine stallNode {}).exec { store := {} } mutedAndCleared) {}).faults →
      MutedSince fault.faultCode
        ((nodeMachine stallNode {}).history [] { store := {} } mutedAndCleared) :=
  ⟨by decide,
    (cleared_codes_are_shown stallNode {} _ _
      (Machine.Runs.start.exec mutedAndCleared
        (by exact ⟨trivial, trivial, nofun, trivial, trivial⟩))).2 {} rfl⟩

def clearedWithoutCascade : List NodeCall :=
  [failedAt "MOTOR_1" 0, failedAt "DRIVE_A" 10, .clearFault ⟨str "DRIVE_A", true⟩ 20000000,
    failedAt "DRIVE_A" 1000]

theorem cleared_code_stays_muted :
    ((nodeMachine stallNode {}).outputs { store := {} } clearedWithoutCascade).map
        (fun | .clear response => response.success | _ => false) = [false, false, true, false] ∧
    ((nodeMachine stallNode {}).exec { store := {} } clearedWithoutCascade).engine.isMuted
        (str "DRIVE_A") = true ∧
    (stallNode.storage.listFaults
        ((nodeMachine stallNode {}).exec { store := {} } clearedWithoutCascade).store false 0
        []).map (fun fault => (fault.faultCode, fault.status)) =
      [(str "DRIVE_A", .confirmed), (str "MOTOR_1", .confirmed)] ∧
    (handleListFaults stallNode
        ((nodeMachine stallNode {}).exec { store := {} } clearedWithoutCascade) {}).faults.map
        (·.faultCode) = [str "MOTOR_1"] ∧
    ¬ MutedSince (str "DRIVE_A")
      ((nodeMachine stallNode {}).history [] { store := {} } clearedWithoutCascade) :=
  ⟨by decide, by decide, by decide, by decide, by decide⟩

end Medkit.FaultManager
