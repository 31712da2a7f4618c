import Medkit.Correlation.EngineSteps

/-! Root causes, their symptom lists and the muted faults: what each call does to
the three, and which codes clearing a root cause hands back. -/
namespace Medkit.Correlation

open Lib

variable {config : EngineConfig} {st : EngineState} {report : FaultReport}

/-! ## The rule of a pending root cause -/

/-- Every pending root cause is filed under the first rule its code matches. -/
def RootInvariant (config : EngineConfig) (st : EngineState) : Prop :=
  ∀ prc ∈ st.pendingRootCauses,
    ∃ rule, rootCauseRule config prc.faultCode = some rule ∧ rule.id = prc.ruleId

theorem RootInvariant.mono {st' : EngineState} (h : RootInvariant config st)
    (hsub : st'.pendingRootCauses ⊆ st.pendingRootCauses) : RootInvariant config st' :=
  fun prc hprc => h prc (hsub hprc)

theorem RootInvariant.outcome {st' : EngineState} {result : ProcessFaultResult}
    (h : RootInvariant config st) (hout : FaultOutcome config st report st' result) :
    RootInvariant config st' := by
  cases hout with
  | rootCause hnone hrule =>
    intro prc hprc
    rw [List.mem_append, List.mem_singleton] at hprc
    rcases hprc with hprc | rfl
    · exact h prc hprc
    · exact ⟨_, hrule, rfl⟩
  | symptom | started | repeated | joined | activated | uncorrelated => exact h

theorem RootInvariant.dropExpired (h : RootInvariant config st) (now : Int) :
    RootInvariant config (st.dropExpiredRootCauses now) :=
  h.mono (List.filter_subset_self _)

theorem RootInvariant.step (h : RootInvariant config st) (call : EngineCall) :
    RootInvariant config (engineStep config st call).1 := by
  cases call with
  | processFault report => exact (h.dropExpired report.now).outcome (processFault_outcome _ _ _)
  | processClear faultCode =>
    apply h.mono
    rw [engineStep, processClear_pendingRootCauses]
    exact List.filter_subset_self _
  | cleanupExpired now => exact h.dropExpired now

theorem rootInvariant_of_reachable (hst : (engine config).Reachable st) :
    RootInvariant config st :=
  hst.invariant _ (by simp [RootInvariant, engine]) fun _ call h => h.step call

/-- The rule that makes a report a symptom is the first one the root cause matches. -/
theorem RootInvariant.rule_of_found {prc : PendingRootCause} {rule : CorrelationRule}
    (h : RootInvariant config st)
    (hfound : findRootCause config st.pendingRootCauses report = some (prc, rule)) :
    rootCauseRule config prc.faultCode = some rule := by
  obtain ⟨hprc, hrule, hid, -⟩ := findRootCause_spec hfound
  obtain ⟨first, hfirst, hfirstId⟩ := h prc hprc
  rw [hfirst, config.rule_ext (rootCauseRule_spec hfirst).1 hrule (hfirstId.trans hid.symm)]

/-! ## Codes handed back by a clear -/

def EngineConfig.AutoClearsRoot (config : EngineConfig) (faultCode : Str) : Prop :=
  ∃ rule ∈ config.rules, rule.mode = .hierarchical ∧ rule.autoClearWithRoot = true ∧
    matchesAny faultCode rule.rootCauseCodes = true
deriving Decidable

/-- The lookup through the pending entry finds nothing that matching the rules
would not find. -/
theorem RootInvariant.autoClears_iff (h : RootInvariant config st) (faultCode : Str) :
    autoClears config st faultCode = true ↔ config.AutoClearsRoot faultCode := by
  unfold autoClears EngineConfig.AutoClearsRoot
  rw [Bool.or_eq_true, List.any_eq_true]
  constructor
  · rintro (hpending | ⟨rule, hrule, hmatch⟩)
    · split at hpending
      · cases hpending
      · rename_i prc hprc
        obtain ⟨rule, hrule, hclears⟩ := List.any_eq_true.mp hpending
        obtain ⟨hid, hclears⟩ : rule.id = prc.ruleId ∧ rule.autoClearWithRoot = true := by
          simpa using hclears
        obtain ⟨first, hfirst, hfirstId⟩ := h prc (List.mem_of_find?_eq_some hprc)
        obtain ⟨hfirstMem, hmode, hmatch⟩ := rootCauseRule_spec hfirst
        have hcode : prc.faultCode = faultCode := by simpa using List.find?_some hprc
        obtain rfl := config.rule_ext hfirstMem hrule (hfirstId.trans hid.symm)
        exact ⟨first, hrule, hmode, hclears, hcode ▸ hmatch⟩
    · simp only [Bool.and_eq_true, decide_eq_true_eq] at hmatch
      exact ⟨rule, hrule, hmatch.1.1, hmatch.1.2, hmatch.2⟩
  · rintro ⟨rule, hrule, hmode, hclears, hmatch⟩
    exact .inr ⟨rule, hrule, by simp [hmode, hclears, hmatch]⟩

theorem RootInvariant.mem_autoClearedCodes (h : RootInvariant config st) (faultCode code : Str) :
    code ∈ (processClear config st faultCode).2.autoClearedCodes ↔
      config.AutoClearsRoot faultCode ∧ code ∈ st.symptoms faultCode := by
  rw [← h.autoClears_iff faultCode]
  unfold processClear
  dsimp only
  split_ifs with hclears <;> simp [hclears]

/-! ## Symptom lists -/

theorem mem_toList_of_mem_symptoms {root code : Str} (h : code ∈ st.symptoms root) :
    ∃ entry ∈ st.rootToSymptoms.toList, entry.1 = root ∧ code ∈ entry.2 := by
  unfold EngineState.symptoms at h
  cases hcodes : st.rootToSymptoms[root]? with
  | none => simp [hcodes] at h
  | some codes =>
    rw [hcodes] at h
    exact ⟨(root, codes), Std.ExtTreeMap.mem_toList_iff_getElem?_eq_some.mpr hcodes, rfl, h⟩

theorem mem_symptoms_recordSymptom {prc : PendingRootCause} {rule : CorrelationRule}
    {root code : Str} :
    code ∈ (st.recordSymptom report prc rule).symptoms root ↔
      code ∈ st.symptoms root ∨ (root = prc.faultCode ∧ code = report.faultCode) := by
  unfold EngineState.symptoms EngineState.recordSymptom
  dsimp only
  rw [Std.ExtTreeMap.getElem?_insert]
  by_cases hroot : prc.faultCode = root
  · subst hroot
    simp only [Std.ReflCmp.compare_self, if_true, Option.getD_some, true_and]
    unfold EngineState.symptoms
    split_ifs with hlisted
    · constructor
      · exact .inl
      · rintro (h | rfl)
        · exact h
        · exact hlisted
    · rw [List.mem_append, List.mem_singleton]
  · simp [hroot, Ne.symm hroot]

theorem mem_symptoms_insert_nil {st' : EngineState} {faultCode root code : Str}
    (h : st'.rootToSymptoms = st.rootToSymptoms.insert faultCode []) :
    code ∈ st'.symptoms root ↔ root ≠ faultCode ∧ code ∈ st.symptoms root := by
  unfold EngineState.symptoms
  rw [h, Std.ExtTreeMap.getElem?_insert]
  by_cases hroot : faultCode = root
  · simp [hroot]
  · simp [hroot, Ne.symm hroot]

theorem mem_symptoms_processClear {faultCode root code : Str} :
    code ∈ (processClear config st faultCode).1.symptoms root ↔
      root ≠ faultCode ∧ code ∈ st.symptoms root := by
  unfold EngineState.symptoms
  rw [processClear_rootToSymptoms, Std.ExtTreeMap.getElem?_erase]
  by_cases hroot : faultCode = root
  · simp [hroot]
  · simp [hroot, Ne.symm hroot]

end Medkit.Correlation
