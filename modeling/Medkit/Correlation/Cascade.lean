import Medkit.Correlation.SymptomLists

/-! The cascade of a clear against the history of the run. A root cause hands back
the symptoms classified under it since it and they were last cleared, provided
that its list was not emptied by another report of it, that no listed symptom was
cleared on its own, and that no second rule adds the cascade the first one lacks. -/
namespace Medkit.Correlation

open Lib

variable {config : EngineConfig} {st : EngineState} {report : FaultReport}

/-- The result classifies its report as a symptom of `root` under a hierarchical
rule that clears symptoms with their root cause. -/
def IsSymptomOf (config : EngineConfig) (root : Str) (result : ProcessFaultResult) : Prop :=
  result.isRootCause = false ∧ result.rootCauseCode = root ∧
    ∃ rule ∈ config.rules, rule.id = result.ruleId ∧ rule.mode = .hierarchical ∧
      rule.autoClearWithRoot = true
deriving Decidable

/-- Some report of `code` was classified as a symptom of `root` after the latest
clear of either of them; the newest event comes first. -/
def ClassifiedSince (config : EngineConfig) (root code : Str) : List EngineEvent → Prop
  | [] => False
  | event :: history =>
      match event.op, event.out with
      | .processFault report, .fault result =>
          (report.faultCode = code ∧ IsSymptomOf config root result) ∨
            ClassifiedSince config root code history
      | .processClear faultCode, _ =>
          faultCode ≠ root ∧ faultCode ≠ code ∧ ClassifiedSince config root code history
      | _, _ => ClassifiedSince config root code history

instance ClassifiedSince.decidable (config : EngineConfig) (root code : Str) :
    (history : List EngineEvent) → Decidable (ClassifiedSince config root code history)
  | [] => inferInstanceAs (Decidable False)
  | ⟨_, .processFault _, .fault _⟩ :: history =>
      have := ClassifiedSince.decidable config root code history
      inferInstanceAs (Decidable ((_ ∧ _) ∨ ClassifiedSince config root code history))
  | ⟨_, .processFault _, .clear _⟩ :: history => ClassifiedSince.decidable config root code history
  | ⟨_, .processFault _, .done⟩ :: history => ClassifiedSince.decidable config root code history
  | ⟨_, .processClear _, _⟩ :: history =>
      have := ClassifiedSince.decidable config root code history
      inferInstanceAs (Decidable (_ ∧ _ ∧ ClassifiedSince config root code history))
  | ⟨_, .cleanupExpired _, _⟩ :: history => ClassifiedSince.decidable config root code history

/-- The first rule a root cause matches clears symptoms with it. -/
def EngineConfig.ClearsWithRoot (config : EngineConfig) (root : Str) : Prop :=
  ∃ rule ∈ rootCauseRule config root, rule.autoClearWithRoot = true
deriving Decidable

/-- A call after which the symptom lists still say what the history says. -/
def KeepsLists (config : EngineConfig) (st : EngineState) : EngineCall → Prop
  | .processFault report =>
      ∀ rule ∈ asRootCause config st report, rule.autoClearWithRoot = true →
        st.symptoms report.faultCode = []
  | .processClear faultCode =>
      (∀ entry ∈ st.rootToSymptoms.toList, entry.1 ≠ faultCode → config.ClearsWithRoot entry.1 →
        faultCode ∉ entry.2) ∧
      (config.AutoClearsRoot faultCode → ¬ config.ClearsWithRoot faultCode →
        st.symptoms faultCode = [])
  | .cleanupExpired _ => True

instance (config : EngineConfig) (st : EngineState) (call : EngineCall) :
    Decidable (KeepsLists config st call) :=
  match call with
  | .processFault _ => inferInstanceAs (Decidable (∀ rule ∈ _, _))
  | .processClear _ => inferInstanceAs (Decidable ((∀ entry ∈ _, _) ∧ _))
  | .cleanupExpired _ => inferInstanceAs (Decidable True)

variable {root : Str} {result : ProcessFaultResult}

theorem EngineConfig.ClearsWithRoot.autoClearsRoot (h : config.ClearsWithRoot root) :
    config.AutoClearsRoot root := by
  obtain ⟨rule, hrule, hclears⟩ := h
  obtain ⟨hmem, hmode, hmatch⟩ := rootCauseRule_spec hrule
  exact ⟨rule, hmem, hmode, hclears, hmatch⟩

/-! ## Results of a report -/

theorem EngineConfig.ruleId_ne_nil {rule : CorrelationRule} (hrule : rule ∈ config.rules) :
    rule.id ≠ [] :=
  (((validateConfig_valid_iff _ config.isEnabled).mp config.isValid).2 rule hrule).id_ne

theorem not_isSymptomOf_of_ruleId_nil (h : result.ruleId = []) :
    ¬ IsSymptomOf config root result := by
  rintro ⟨-, -, rule, hrule, hid, -⟩
  exact config.ruleId_ne_nil hrule (hid.trans h)

theorem RootInvariant.isSymptomOf_iff {prc : PendingRootCause} {rule : CorrelationRule}
    (h : RootInvariant config st)
    (hfound : findRootCause config st.pendingRootCauses report = some (prc, rule)) :
    IsSymptomOf config root (symptomResult report prc rule) ↔
      prc.faultCode = root ∧ config.ClearsWithRoot root := by
  have hfirst := h.rule_of_found hfound
  have hrule := (findRootCause_spec hfound).2.1
  constructor
  · rintro ⟨-, rfl, other, hother, hid, -, hclears⟩
    obtain rfl := config.rule_ext hother hrule hid
    exact ⟨rfl, other, hfirst, hclears⟩
  · rintro ⟨rfl, first, hfirst', hclears⟩
    rw [Option.mem_def, hfirst] at hfirst'
    cases hfirst'
    exact ⟨rfl, rfl, rule, hrule, rfl, (rootCauseRule_spec hfirst).2.1, hclears⟩

/-- On the lists that matter, a report adds exactly the symptom it reports. -/
theorem RootInvariant.mem_symptoms_outcome {after : EngineState} (h : RootInvariant config st)
    (hkeeps : KeepsLists config st (.processFault report))
    (hout : FaultOutcome config (st.dropExpiredRootCauses report.now) report after result)
    (hroot : config.ClearsWithRoot root) (code : Str) : code ∈ after.symptoms root ↔
      (report.faultCode = code ∧ IsSymptomOf config root result) ∨ code ∈ st.symptoms root := by
  have hlive := h.dropExpired report.now
  cases hout with
  | symptom hfound =>
    rw [mem_symptoms_recordSymptom, hlive.isSymptomOf_iff hfound, or_comm]
    constructor
    · rintro (⟨rfl, rfl⟩ | hlisted)
      · exact .inl ⟨rfl, rfl, hroot⟩
      · exact .inr hlisted
    · rintro (⟨rfl, rfl, -⟩ | hlisted)
      · exact .inl ⟨rfl, rfl⟩
      · exact .inr hlisted
  | @rootCause rule hnone hrule =>
    rw [mem_symptoms_insert_nil rfl]
    have hnot : ¬ IsSymptomOf config root { isRootCause := true, ruleId := rule.id } := by
      rintro ⟨hfalse, -⟩
      cases hfalse
    constructor
    · exact fun hlisted => .inr hlisted.2
    · rintro (⟨-, hsymptom⟩ | hlisted)
      · exact absurd hsymptom hnot
      · refine ⟨?_, hlisted⟩
        rintro rfl
        obtain ⟨first, hfirst, hclears⟩ := hroot
        have hempty := hkeeps first (by rw [asRootCause, asSymptom, hnone]; exact hfirst) hclears
        rw [hempty] at hlisted
        cases hlisted
  | started | repeated | joined | activated | uncorrelated =>
    constructor
    · exact .inr
    · rintro (⟨-, hsymptom⟩ | hlisted)
      · exact absurd hsymptom (not_isSymptomOf_of_ruleId_nil rfl)
      · exact hlisted

theorem RootInvariant.clearsWithRoot_of_outcome {after : EngineState} (h : RootInvariant config st)
    (hout : FaultOutcome config st report after result) (hsymptom : IsSymptomOf config root result)
    : config.ClearsWithRoot root := by
  cases hout with
  | symptom hfound => exact ((h.isSymptomOf_iff hfound).mp hsymptom).2
  | rootCause => exact absurd hsymptom.1 (by simp)
  | started | repeated | joined | activated | uncorrelated =>
    exact absurd hsymptom (not_isSymptomOf_of_ruleId_nil rfl)

/-! ## Whole runs -/

/-- The list of a root cause that clears its symptoms is what the history says,
and the history classifies symptoms under no other root cause. -/
structure ListsMatch (config : EngineConfig) (history : List EngineEvent) (st : EngineState) :
    Prop where
  listed : ∀ root, config.ClearsWithRoot root → ∀ code,
    code ∈ st.symptoms root ↔ ClassifiedSince config root code history
  only : ∀ root code, ClassifiedSince config root code history → config.ClearsWithRoot root

theorem ListsMatch.step {history : List EngineEvent} (h : ListsMatch config history st)
    (hroots : RootInvariant config st) (call : EngineCall) (hkeeps : KeepsLists config st call) :
    ListsMatch config (⟨st, call, (engineStep config st call).2⟩ :: history)
      (engineStep config st call).1 := by
  cases call with
  | processFault report =>
    have hout := processFault_outcome config st report
    constructor
    · intro root hroot code
      rw [engineStep, hroots.mem_symptoms_outcome hkeeps hout hroot code, h.listed root hroot code]
      rfl
    · rintro root code (⟨-, hsymptom⟩ | hbefore)
      · exact (hroots.dropExpired report.now).clearsWithRoot_of_outcome hout hsymptom
      · exact h.only root code hbefore
  | processClear faultCode =>
    constructor
    · intro root hroot code
      rw [engineStep, mem_symptoms_processClear, h.listed root hroot code]
      constructor
      · rintro ⟨hne, hbefore⟩
        refine ⟨Ne.symm hne, ?_, hbefore⟩
        rintro rfl
        obtain ⟨entry, hentry, rfl, hlisted⟩ :=
          mem_toList_of_mem_symptoms ((h.listed root hroot _).mpr hbefore)
        exact hkeeps.1 entry hentry hne hroot hlisted
      · rintro ⟨hne, -, hbefore⟩
        exact ⟨Ne.symm hne, hbefore⟩
    · rintro root code ⟨-, -, hbefore⟩
      exact h.only root code hbefore
  | cleanupExpired now => exact ⟨h.listed, h.only⟩

theorem listsMatch_of_run {history : List EngineEvent}
    (hrun : (engine config).Runs (KeepsLists config) history st) : ListsMatch config history st := by
  apply hrun.invariant (ListsMatch config)
  · constructor
    · intro root _ code
      simp [engine, EngineState.symptoms, ClassifiedSince]
    · intro root code hnone
      cases hnone
  · intro history st call hst hkeeps h
    exact h.step (rootInvariant_of_reachable hst) call hkeeps

/-- The cascade of a clear is what the history classified as symptoms of the
cleared root cause. -/
theorem auto_cleared_codes_follow_history (config : EngineConfig) (history : List EngineEvent)
    (st : EngineState) (hrun : (engine config).Runs (KeepsLists config) history st) (root : Str)
    (hclear : KeepsLists config st (.processClear root)) (code : Str) :
    code ∈ (processClear config st root).2.autoClearedCodes ↔
      ClassifiedSince config root code history := by
  have hmatch := listsMatch_of_run hrun
  rw [(rootInvariant_of_reachable hrun.reachable).mem_autoClearedCodes]
  by_cases hroot : config.ClearsWithRoot root
  · rw [hmatch.listed root hroot code]
    constructor
    · exact fun h => h.2
    · exact fun h => ⟨hroot.autoClearsRoot, h⟩
  · constructor
    · rintro ⟨hauto, hlisted⟩
      rw [hclear.2 hauto hroot] at hlisted
      cases hlisted
    · intro hsince
      exact absurd (hmatch.only root code hsince) hroot

def rootCauseReturns : List EngineCall :=
  [errorAt "MOTOR_1" 0, errorAt "DRIVE_A" 10, .processClear (str "MOTOR_1"), errorAt "MOTOR_1" 100,
    errorAt "DRIVE_B" 110]

theorem auto_cleared_codes_follow_history_of_return :
    (processClear stallConfig ((engine stallConfig).exec {} rootCauseReturns)
        (str "MOTOR_1")).2.autoClearedCodes = [str "DRIVE_B"] ∧
      ∀ code, code ∈ (processClear stallConfig ((engine stallConfig).exec {} rootCauseReturns)
          (str "MOTOR_1")).2.autoClearedCodes ↔
        ClassifiedSince stallConfig (str "MOTOR_1") code
          ((engine stallConfig).history [] {} rootCauseReturns) :=
  ⟨by decide,
    auto_cleared_codes_follow_history stallConfig _ _
      (Machine.Runs.start.exec rootCauseReturns
        (by exact ⟨by decide, by decide, by decide, by decide,
          by decide, trivial⟩))
      (str "MOTOR_1") (by decide)⟩

def symptomThenRootCause : List EngineCall :=
  [errorAt "MOTOR_1" 0, errorAt "DRIVE_A" 10, errorAt "MOTOR_1" 20]

def symptomClearedFirst : List EngineCall :=
  [errorAt "MOTOR_1" 0, errorAt "DRIVE_A" 10, .processClear (str "DRIVE_A")]

theorem auto_cleared_codes_miss_and_add :
    (ClassifiedSince stallConfig (str "MOTOR_1") (str "DRIVE_A")
        ((engine stallConfig).history [] {} symptomThenRootCause) ∧
      (processClear stallConfig ((engine stallConfig).exec {} symptomThenRootCause)
        (str "MOTOR_1")).2.autoClearedCodes = []) ∧
    ¬ ClassifiedSince stallConfig (str "MOTOR_1") (str "DRIVE_A")
        ((engine stallConfig).history [] {} symptomClearedFirst) ∧
      (processClear stallConfig ((engine stallConfig).exec {} symptomClearedFirst)
        (str "MOTOR_1")).2.autoClearedCodes = [str "DRIVE_A"] :=
  ⟨⟨by decide, by decide⟩, by decide, by decide⟩

end Medkit.Correlation
