import Medkit.Correlation.RootCauses

/-! Symptom lists against the mutes and the clears they stand for. Clearing a root
cause walks its symptom list, while every muted fault records its own root cause:
the two agree as long as no root cause is reported again while it mutes faults and
no symptom moves from one root cause to another. -/
namespace Medkit.Correlation

open Lib

variable {config : EngineConfig} {st : EngineState} {report : FaultReport}

/-! ## How a report is going to be classified -/

def asSymptom (config : EngineConfig) (st : EngineState) (report : FaultReport) :
    Option (PendingRootCause × CorrelationRule) :=
  findRootCause config (st.dropExpiredRootCauses report.now).pendingRootCauses report

def asRootCause (config : EngineConfig) (st : EngineState) (report : FaultReport) :
    Option CorrelationRule :=
  if (asSymptom config st report).isSome then none else rootCauseRule config report.faultCode

/-! ## Mutes -/

def EngineState.ListedElsewhere (st : EngineState) (code root : Str) : Prop :=
  ∃ entry ∈ st.rootToSymptoms.toList, entry.1 ≠ root ∧ code ∈ entry.2
deriving Decidable

def EngineState.MutedElsewhere (st : EngineState) (code root : Str) : Prop :=
  ∃ data ∈ st.mutedFaults[code]?, data.rootCauseCode ≠ root
deriving Decidable

def EngineState.MutesUnder (st : EngineState) (root : Str) : Prop :=
  ∃ data ∈ st.getMutedFaults, data.rootCauseCode = root
deriving Decidable

/-- A report that keeps the mutes and the symptom lists in step: a new muted
symptom is on no other list, a symptom that is not muted is not muted under
another root cause, and a root cause mutes nothing when it is reported. -/
def KeepsAttribution (config : EngineConfig) (st : EngineState) : EngineCall → Prop
  | .processFault report =>
      (∀ found ∈ asSymptom config st report,
        (found.2.muteSymptoms = true → ¬ st.ListedElsewhere report.faultCode found.1.faultCode) ∧
        (found.2.muteSymptoms = false → ¬ st.MutedElsewhere report.faultCode found.1.faultCode)) ∧
      ∀ rule ∈ asRootCause config st report, ¬ st.MutesUnder report.faultCode
  | .processClear _ => True
  | .cleanupExpired _ => True

instance (config : EngineConfig) (st : EngineState) (call : EngineCall) :
    Decidable (KeepsAttribution config st call) :=
  match call with
  | .processFault _ => inferInstanceAs (Decidable ((∀ found ∈ _, _) ∧ ∀ rule ∈ _, _))
  | .processClear _ => inferInstanceAs (Decidable True)
  | .cleanupExpired _ => inferInstanceAs (Decidable True)

theorem listedElsewhere_iff {code root : Str} :
    st.ListedElsewhere code root ↔ ∃ other, other ≠ root ∧ code ∈ st.symptoms other := by
  constructor
  · rintro ⟨⟨other, codes⟩, hentry, hne, hcode⟩
    refine ⟨other, hne, ?_⟩
    rw [EngineState.symptoms, Std.ExtTreeMap.mem_toList_iff_getElem?_eq_some.mp hentry]
    exact hcode
  · rintro ⟨other, hne, hcode⟩
    obtain ⟨entry, hentry, rfl, hlisted⟩ := mem_toList_of_mem_symptoms hcode
    exact ⟨entry, hentry, hne, hlisted⟩

theorem not_mutesUnder {code root : Str} {data : MutedFaultData} (h : ¬ st.MutesUnder root)
    (hdata : st.mutedFaults[code]? = some data) : data.rootCauseCode ≠ root := by
  intro heq
  exact h ⟨data, OMap.mem_values.mpr ⟨code, hdata⟩, heq⟩

/-- A muted fault is on the list of the root cause it records and on no other. -/
def Attributed (st : EngineState) : Prop :=
  ∀ code data, st.mutedFaults[code]? = some data →
    ∀ root, code ∈ st.symptoms root ↔ data.rootCauseCode = root

theorem Attributed.congr {st' : EngineState} (h : Attributed st)
    (hmuted : st'.mutedFaults = st.mutedFaults)
    (hsymptoms : st'.rootToSymptoms = st.rootToSymptoms) : Attributed st' := by
  intro code data hdata root
  rw [hmuted] at hdata
  rw [EngineState.symptoms, hsymptoms]
  exact h code data hdata root

theorem Attributed.recordSymptom {prc : PendingRootCause} {rule : CorrelationRule}
    (h : Attributed st)
    (hmute : rule.muteSymptoms = true → ¬ st.ListedElsewhere report.faultCode prc.faultCode)
    (hshow : rule.muteSymptoms = false → ¬ st.MutedElsewhere report.faultCode prc.faultCode) :
    Attributed (st.recordSymptom report prc rule) := by
  intro code data hdata root
  rw [mem_symptoms_recordSymptom]
  -- the lists and the mutes of other codes are as before
  by_cases hcode : code = report.faultCode
  · subst hcode
    cases hrule : rule.muteSymptoms with
    | true =>
      have hroot : data.rootCauseCode = prc.faultCode := by
        simp only [EngineState.recordSymptom, hrule, if_true, Std.ExtTreeMap.getElem?_insert_self,
          Option.some.injEq] at hdata
        rw [← hdata]
      have hnot := hmute hrule
      rw [listedElsewhere_iff] at hnot
      rw [hroot]
      constructor
      · rintro (hlisted | ⟨hroot, -⟩)
        · by_contra hne
          exact hnot ⟨root, Ne.symm hne, hlisted⟩
        · exact hroot.symm
      · intro hroot
        exact .inr ⟨hroot.symm, rfl⟩
    | false =>
      have hbefore : st.mutedFaults[report.faultCode]? = some data := by
        simpa [EngineState.recordSymptom, hrule] using hdata
      have hroot : data.rootCauseCode = prc.faultCode := by
        by_contra hne
        exact hshow hrule ⟨data, hbefore, hne⟩
      rw [h _ data hbefore root, hroot]
      constructor
      · rintro (heq | ⟨heq, -⟩)
        · exact heq
        · exact heq.symm
      · exact .inl
  · have hbefore : st.mutedFaults[code]? = some data := by
      simp only [EngineState.recordSymptom] at hdata
      split_ifs at hdata
      · rw [Std.ExtTreeMap.getElem?_insert] at hdata
        simpa [Ne.symm hcode] using hdata
      · exact hdata
    rw [h code data hbefore root]
    simp [hcode]

theorem Attributed.processClear (h : Attributed st) (faultCode : Str) :
    Attributed (processClear config st faultCode).1 := by
  intro code data hdata root
  rw [processClear_mutedFaults] at hdata
  split_ifs at hdata with hgone
  rw [mem_symptoms_processClear, h code data hdata root]
  constructor
  · exact fun hroot => hroot.2
  · intro hroot
    refine ⟨?_, hroot⟩
    rintro rfl
    exact hgone (.inr ((h code data hdata root).mpr hroot))

theorem Attributed.outcome {after : EngineState} {result : ProcessFaultResult} (h : Attributed st)
    (hkeeps : KeepsAttribution config st (.processFault report))
    (hout : FaultOutcome config (st.dropExpiredRootCauses report.now) report after result) :
    Attributed after := by
  have hlive : Attributed (st.dropExpiredRootCauses report.now) := h.congr rfl rfl
  cases hout with
  | symptom hfound =>
    obtain ⟨hmute, hshow⟩ := hkeeps.1 _ hfound
    exact hlive.recordSymptom hmute hshow
  | @rootCause rule hnone hrule =>
    have hfree : ¬ st.MutesUnder report.faultCode := by
      apply hkeeps.2 rule
      rw [asRootCause, asSymptom, hnone]
      exact hrule
    intro code data hdata root
    rw [mem_symptoms_insert_nil rfl]
    have hbefore := h code data hdata root
    constructor
    · exact fun hlisted => hbefore.mp hlisted.2
    · intro hroot
      refine ⟨?_, hbefore.mpr hroot⟩
      rintro rfl
      exact not_mutesUnder hfree hdata hroot
  | started | repeated | joined | activated | uncorrelated => exact hlive.congr rfl rfl

theorem attributed_of_run {h : List EngineEvent}
    (hrun : (engine config).Runs (KeepsAttribution config) h st) : Attributed st := by
  apply hrun.invariant (fun _ st => Attributed st)
  · intro code data hdata
    simp [engine] at hdata
  · intro _ st call _ hkeeps hst
    cases call with
    | processFault report => exact hst.outcome hkeeps (processFault_outcome config st report)
    | processClear faultCode => exact hst.processClear faultCode
    | cleanupExpired now => exact hst.congr rfl rfl

/-- Clearing a root cause unmutes itself and exactly the faults muted under it. -/
theorem clear_unmutes_own_symptoms (config : EngineConfig)
    (history : List EngineEvent) (st : EngineState)
    (hrun : (engine config).Runs (KeepsAttribution config) history st) (root code : Str) :
    (processClear config st root).1.mutedFaults[code]? =
      st.mutedFaults[code]?.filter fun data => code ≠ root && data.rootCauseCode ≠ root := by
  rw [processClear_mutedFaults]
  cases hdata : st.mutedFaults[code]? with
  | none => simp
  | some data =>
    have hlisted := attributed_of_run hrun code data hdata root
    rw [Option.filter_some]
    by_cases hcode : code = root
    · simp [hcode]
    · by_cases hroot : data.rootCauseCode = root
      · simp [hlisted, hroot]
      · simp [hlisted, hcode, hroot]

def twoRootCauses : List EngineCall :=
  [errorAt "MOTOR_1" 0, errorAt "DRIVE_A" 10, errorAt "MOTOR_2" 600, errorAt "DRIVE_B" 610]

theorem clear_unmutes_own_symptoms_of_two_roots :
    ((engine stallConfig).exec {} twoRootCauses).isMuted (str "DRIVE_A") = true ∧
      (processClear stallConfig ((engine stallConfig).exec {} twoRootCauses)
        (str "MOTOR_2")).1.mutedFaults[str "DRIVE_A"]? =
      ((engine stallConfig).exec {} twoRootCauses).mutedFaults[str "DRIVE_A"]?.filter fun data =>
        str "DRIVE_A" ≠ str "MOTOR_2" && data.rootCauseCode ≠ str "MOTOR_2" :=
  ⟨by decide,
    clear_unmutes_own_symptoms stallConfig _ _
      (Machine.Runs.start.exec twoRootCauses
        (by exact ⟨by decide, by decide, by decide, by decide,
          trivial⟩))
      (str "MOTOR_2") (str "DRIVE_A")⟩

def repeatedRootCause : EngineState :=
  (engine stallConfig).exec {} [errorAt "MOTOR_1" 0, errorAt "DRIVE_A" 10, errorAt "MOTOR_1" 20]

def movedSymptom : EngineState :=
  (engine stallConfig).exec {} [errorAt "MOTOR_1" 0, errorAt "DRIVE_A" 10, errorAt "MOTOR_2" 600,
    errorAt "DRIVE_A" 610]

theorem clear_unmutes_by_list :
    ((engine stallConfig).Reachable repeatedRootCause ∧
      repeatedRootCause.mutedFaults[str "DRIVE_A"]?.map (·.rootCauseCode) = some (str "MOTOR_1") ∧
      (processClear stallConfig repeatedRootCause (str "MOTOR_1")).1.isMuted (str "DRIVE_A") =
        true) ∧
    (engine stallConfig).Reachable movedSymptom ∧
      movedSymptom.mutedFaults[str "DRIVE_A"]?.map (·.rootCauseCode) = some (str "MOTOR_2") ∧
      (processClear stallConfig movedSymptom (str "MOTOR_1")).1.isMuted (str "DRIVE_A") = false :=
  ⟨⟨Machine.reachable_exec _ _, by decide, by decide⟩,
    Machine.reachable_exec _ _, by decide, by decide⟩

end Medkit.Correlation
