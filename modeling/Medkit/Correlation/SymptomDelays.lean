import Medkit.Correlation.RootCauses

/-! The delay a symptom is reported with. It is the time since the root cause, narrowed to 32
bits after a test against the window from above only: a symptom whose timestamp was taken
before that of its root cause gets a delay far beyond the window. The list of pending root
causes may also hold the reported code itself. -/
namespace Medkit.Correlation

open Lib

variable {config : EngineConfig} {st : EngineState} {report : FaultReport}

def WithinWindow (config : EngineConfig) (ruleId : Str) (delayMs : Nat) : Prop :=
  ∃ rule ∈ config.rules, rule.id = ruleId ∧ delayMs ≤ rule.windowMs

structure SoundSymptom (config : EngineConfig) (muted : MutedFaultData) : Prop where
  within : WithinWindow config muted.ruleId muted.delayMs
  other : muted.faultCode ≠ muted.rootCauseCode

def SoundMutes (config : EngineConfig) (st : EngineState) : Prop :=
  ∀ (code : Str) (muted : MutedFaultData), st.mutedFaults[code]? = some muted →
    SoundSymptom config muted

structure SoundResult (config : EngineConfig) (faultCode : Str) (result : ProcessFaultResult) :
    Prop where
  within : result.rootCauseCode ≠ [] → WithinWindow config result.ruleId result.delayMs
  other : result.shouldMute → result.rootCauseCode ≠ [] → faultCode ≠ result.rootCauseCode

/-- No hierarchical rule has the code both among its root causes and among their symptoms. -/
def EngineConfig.Separates (config : EngineConfig) (faultCode : Str) : Prop :=
  ∀ rule ∈ config.rules, rule.mode = .hierarchical →
    ¬ (matchesAny faultCode rule.rootCauseCodes ∧ matchesSymptom config rule faultCode)

/-- The report is not older than a pending root cause it would be a symptom of, and its code
does not stand on both sides of a rule. -/
def EngineCall.InOrder (config : EngineConfig) (st : EngineState) : EngineCall → Prop
  | .processFault report =>
      (∀ prc ∈ st.pendingRootCauses, (symptomRule config report prc).isSome →
        prc.timestamp ≤ report.timestamp) ∧ config.Separates report.faultCode
  | _ => True

variable {prc : PendingRootCause} {rule : CorrelationRule}

theorem symptomRule_spec (h : symptomRule config report prc = some rule) :
    matchesSymptom config rule report.faultCode = true ∧
      elapsedMs prc.timestamp report.timestamp ≤ rule.windowMs := by
  have hmatch := List.find?_some h
  simp only [Bool.and_eq_true, decide_eq_true_eq] at hmatch
  exact ⟨hmatch.1.2, hmatch.2⟩

theorem symptomRule_of_found {pending : List PendingRootCause}
    (h : findRootCause config pending report = some (prc, rule)) :
    symptomRule config report prc = some rule := by
  obtain ⟨prc', -, hfound⟩ := List.exists_of_findSome?_eq_some h
  obtain ⟨rule', hrule, heq⟩ := Option.map_eq_some_iff.mp hfound
  cases heq
  exact hrule

theorem uint32_le {n : Int} {bound : Nat} (hnonneg : 0 ≤ n) (hle : n ≤ bound) :
    uint32 n ≤ bound := by
  unfold uint32
  omega

theorem elapsedMs_nonneg {since now : Int} (h : since ≤ now) : 0 ≤ elapsedMs since now :=
  Int.tdiv_nonneg (by omega) (by decide)

theorem sound_of_found (hroots : RootInvariant config st)
    (hfound : findRootCause config st.pendingRootCauses report = some (prc, rule))
    (horder : (EngineCall.processFault report).InOrder config st) :
    WithinWindow config rule.id (symptomResult report prc rule).delayMs ∧
      report.faultCode ≠ prc.faultCode := by
  obtain ⟨hprc, hrule, -, hmode⟩ := findRootCause_spec hfound
  have hsymptom := symptomRule_of_found hfound
  obtain ⟨hmatch, hwindow⟩ := symptomRule_spec hsymptom
  obtain ⟨hnewer, hseparate⟩ := horder
  refine ⟨⟨rule, hrule, rfl, ?_⟩, ?_⟩
  · apply uint32_le _ hwindow
    exact elapsedMs_nonneg (hnewer prc hprc (by rw [hsymptom]; rfl))
  · intro hself
    have hroot := (rootCauseRule_spec (hroots.rule_of_found hfound)).2.2
    rw [← hself] at hroot
    exact hseparate rule hrule hmode ⟨hroot, hmatch⟩

theorem soundResult_of_unnamed {faultCode : Str} {result : ProcessFaultResult}
    (h : result.rootCauseCode = []) : SoundResult config faultCode result :=
  ⟨fun hnamed => absurd h hnamed, fun _ hnamed => absurd h hnamed⟩

theorem outcome_sound {st' : EngineState} {result : ProcessFaultResult}
    (hroots : RootInvariant config st) (hmutes : SoundMutes config st)
    (horder : (EngineCall.processFault report).InOrder config st)
    (hout : FaultOutcome config st report st' result) :
    SoundMutes config st' ∧ SoundResult config report.faultCode result := by
  cases hout with
  | symptom hfound =>
    rename_i prc rule
    obtain ⟨hwithin, hother⟩ := sound_of_found hroots hfound horder
    refine ⟨?_, fun _ => hwithin, fun _ _ => hother⟩
    intro code muted hmuted
    simp only [EngineState.recordSymptom] at hmuted
    split_ifs at hmuted
    · rw [Std.ExtTreeMap.getElem?_insert] at hmuted
      split_ifs at hmuted
      · cases hmuted
        exact ⟨hwithin, hother⟩
      · exact hmutes code muted hmuted
    · exact hmutes code muted hmuted
  | rootCause | started | repeated | joined | activated | uncorrelated =>
    exact ⟨hmutes, soundResult_of_unnamed rfl⟩

theorem SoundMutes.of_getElem? {st' : EngineState} (h : SoundMutes config st)
    (hsub : ∀ (code : Str) (muted : MutedFaultData), st'.mutedFaults[code]? = some muted →
      st.mutedFaults[code]? = some muted) : SoundMutes config st' :=
  fun code muted hmuted => h code muted (hsub code muted hmuted)

theorem engineStep_sound (hroots : RootInvariant config st) (hmutes : SoundMutes config st)
    {call : EngineCall} (horder : call.InOrder config st) :
    SoundMutes config (engineStep config st call).1 ∧
      ∀ report, call = .processFault report →
        SoundResult config report.faultCode (processFault config st report).2 := by
  cases call with
  | processFault report =>
    -- expiry only shortens the list that the condition is about
    have horder' : (EngineCall.processFault report).InOrder config
        (st.dropExpiredRootCauses report.now) :=
      ⟨fun prc hprc => horder.1 prc (List.mem_of_mem_filter hprc), horder.2⟩
    obtain ⟨hsound, hresult⟩ := outcome_sound (hroots.dropExpired report.now) hmutes horder'
      (processFault_outcome config st report)
    refine ⟨hsound, ?_⟩
    rintro report' heq
    cases heq
    exact hresult
  | processClear faultCode =>
    refine ⟨hmutes.of_getElem? ?_, fun report heq => by cases heq⟩
    intro code muted hmuted
    rw [engineStep, processClear_mutedFaults] at hmuted
    split_ifs at hmuted
    exact hmuted
  | cleanupExpired now => exact ⟨hmutes, fun report heq => by cases heq⟩

/-- In a run whose reports reach the engine in order, every named root cause lies within its
rule's window, and no fault is a muted symptom of itself. -/
theorem symptoms_within_window {h : List EngineEvent}
    (hr : (engine config).Runs (fun st call => call.InOrder config st) h st) :
    (∀ (code : Str) (muted : MutedFaultData), st.mutedFaults[code]? = some muted →
      (∃ rule ∈ config.rules, rule.id = muted.ruleId ∧ muted.delayMs ≤ rule.windowMs) ∧
        muted.faultCode ≠ muted.rootCauseCode) ∧
    ∀ event ∈ h, ∀ (report : FaultReport) (result : ProcessFaultResult),
      event.op = .processFault report → event.out = .fault result → result.rootCauseCode ≠ [] →
      (∃ rule ∈ config.rules, rule.id = result.ruleId ∧ result.delayMs ≤ rule.windowMs) ∧
        (result.shouldMute → report.faultCode ≠ result.rootCauseCode) := by
  have hinv := hr.invariant
    (fun h st => SoundMutes config st ∧ ∀ event ∈ h, ∀ report result,
      event.op = .processFault report → event.out = .fault result →
        SoundResult config report.faultCode result)
    ⟨by simp [SoundMutes, engine], by simp⟩
    (by
      rintro h st call hreach horder ⟨hmutes, hresults⟩
      obtain ⟨hsound, hresult⟩ :=
        engineStep_sound (rootInvariant_of_reachable hreach) hmutes horder
      refine ⟨hsound, ?_⟩
      intro event hevent report result hop hout
      rcases List.mem_cons.mp hevent with rfl | hevent
      · cases hop
        cases hout
        exact hresult report rfl
      · exact hresults event hevent report result hop hout)
  refine ⟨fun code muted hmuted => ⟨(hinv.1 code muted hmuted).within, (hinv.1 code muted
    hmuted).other⟩, ?_⟩
  intro event hevent report result hop hout hnamed
  have hsound := hinv.2 event hevent report result hop hout
  exact ⟨hsound.within hnamed, fun hmuted => hsound.other hmuted hnamed⟩

theorem symptoms_within_window_of_stall :
    let st := (engine stallConfig).exec {} [errorAt "MOTOR_STALL" 10, errorAt "DRIVE_SLIP" 25]
    ∃ muted, st.mutedFaults[str "DRIVE_SLIP"]? = some muted ∧ muted.delayMs = 15 ∧
      ∃ rule ∈ stallConfig.rules, rule.id = muted.ruleId ∧ muted.delayMs ≤ rule.windowMs := by
  intro st
  have horder : ∀ (st : EngineState) (code : String) (ms : Int),
      stallConfig.Separates (str code) → (∀ prc ∈ st.pendingRootCauses, prc.timestamp ≤ ms * 1000000) →
      (errorAt code ms).InOrder stallConfig st :=
    fun st code ms hseparate hnewer => ⟨fun prc hprc _ => hnewer prc hprc, hseparate⟩
  have hseparate : stallConfig.Separates (str "MOTOR_STALL") ∧
      stallConfig.Separates (str "DRIVE_SLIP") := by
    unfold EngineConfig.Separates
    decide
  have hr : (engine stallConfig).Runs (fun st call => call.InOrder stallConfig st) _ st :=
    Machine.Runs.start.exec [errorAt "MOTOR_STALL" 10, errorAt "DRIVE_SLIP" 25]
      ⟨horder _ _ _ hseparate.1 (by decide), horder _ _ _ hseparate.2 (by decide), trivial⟩
  have hmuted : ∃ muted, st.mutedFaults[str "DRIVE_SLIP"]? = some muted ∧ muted.delayMs = 15 := by
    exact ⟨⟨str "DRIVE_SLIP", str "MOTOR_STALL", str "stall", 15⟩, by decide, rfl⟩
  obtain ⟨muted, hget, hdelay⟩ := hmuted
  exact ⟨muted, hget, hdelay, ((symptoms_within_window hr).1 _ muted hget).1⟩

def echoConfig : EngineConfig where
  enabled := true
  rules :=
    [{ id := str "echo", name := str "Echo", rootCauseCodes := [str "MOTOR_*"]
       inlineSymptomCodes := [str "*"] }]
  isEnabled := rfl
  isValid := by decide

/-- A symptom whose timestamp was taken five milliseconds before that of the root cause it
waited behind, and a root cause that is reported again within its window. -/
theorem symptom_beyond_window_and_of_itself :
    (∃ muted, ((engine stallConfig).exec {} [errorAt "MOTOR_STALL" 10, errorAt "DRIVE_SLIP" 5]
        ).mutedFaults[str "DRIVE_SLIP"]? = some muted ∧ muted.delayMs = 4294967291 ∧
      ∀ rule ∈ stallConfig.rules, rule.windowMs < muted.delayMs) ∧
    ∃ muted, ((engine echoConfig).exec {} [errorAt "MOTOR_STALL" 10, errorAt "MOTOR_STALL" 20]
        ).mutedFaults[str "MOTOR_STALL"]? = some muted ∧
      muted.rootCauseCode = str "MOTOR_STALL" := by
  refine ⟨⟨⟨str "DRIVE_SLIP", str "MOTOR_STALL", str "stall", 4294967291⟩, ?_, rfl, ?_⟩,
    ⟨⟨str "MOTOR_STALL", str "MOTOR_STALL", str "echo", 10⟩, ?_, rfl⟩⟩
  all_goals decide

end Medkit.Correlation
