import Medkit.Correlation.ClusterInvariant
import Medkit.Correlation.RootCauses

/-! What a clear leaves behind. A cleared code and the symptoms cleared along with
it are gone from the muted faults, but `faultToCluster` names one cluster per code
and the symptoms themselves are never looked up there, so both can survive in a
cluster. -/
namespace Medkit.Correlation

open Lib

variable {config : EngineConfig} {st : EngineState}

def EngineState.IsPendingRoot (st : EngineState) (code : Str) : Prop :=
  ∃ prc ∈ st.pendingRootCauses, prc.faultCode = code
deriving Decidable

def EngineState.InPending (st : EngineState) (code : Str) : Prop :=
  ∃ pending ∈ st.pendingClusters.toList.map Prod.snd, code ∈ pending.data.faultCodes
deriving Decidable

def EngineState.InActive (st : EngineState) (code : Str) : Prop :=
  ∃ cluster ∈ st.getClusters, code ∈ cluster.faultCodes
deriving Decidable

def EngineState.Occurs (st : EngineState) (code : Str) : Prop :=
  st.isMuted code = true ∨ st.IsPendingRoot code ∨ st.InPending code ∨ st.InActive code
deriving Decidable

variable {code faultCode : Str}

theorem inPending_iff : st.InPending code ↔
      ∃ (ruleId : Str) (pending : PendingCluster), st.pendingClusters[ruleId]? = some pending ∧
        code ∈ pending.data.faultCodes := by
  unfold EngineState.InPending
  simp only [OMap.mem_values, ← exists_and_right]
  exact exists_comm

theorem inActive_iff : st.InActive code ↔
      ∃ (clusterId : Str) (cluster : ClusterData),
        st.activeClusters[clusterId]? = some cluster ∧ code ∈ cluster.faultCodes := by
  unfold EngineState.InActive EngineState.getClusters
  simp only [OMap.mem_values, ← exists_and_right]
  exact exists_comm

/-! ## The four places after a clear -/

theorem isMuted_processClear : (processClear config st faultCode).1.isMuted code = true ↔
      ¬ (code = faultCode ∨ code ∈ st.symptoms faultCode) ∧ st.isMuted code = true := by
  unfold EngineState.isMuted
  rw [Std.ExtTreeMap.contains_eq_isSome_getElem?, processClear_mutedFaults,
    Std.ExtTreeMap.contains_eq_isSome_getElem?]
  split_ifs with h <;> simp [h]

theorem isPendingRoot_processClear : (processClear config st faultCode).1.IsPendingRoot code ↔
      code ≠ faultCode ∧ st.IsPendingRoot code := by
  unfold EngineState.IsPendingRoot
  rw [processClear_pendingRootCauses]
  simp only [List.mem_filter, decide_eq_true_eq]
  constructor
  · rintro ⟨prc, ⟨hprc, hne⟩, rfl⟩
    exact ⟨hne, prc, hprc, rfl⟩
  · rintro ⟨hne, prc, hprc, rfl⟩
    exact ⟨prc, ⟨hprc, hne⟩, rfl⟩

theorem ClusterInvariant.inPending_processClear (h : ClusterInvariant config st) :
    (Correlation.processClear config st faultCode).1.InPending code ↔
      code ≠ faultCode ∧ st.InPending code := by
  simp only [inPending_iff]
  constructor
  · rintro ⟨ruleId, after, hafter, hcode⟩
    obtain ⟨before, hbefore, ⟨hother, rfl⟩ | ⟨-, hremove⟩⟩ := pending_of_processClear hafter
    · refine ⟨?_, ruleId, after, hbefore, hcode⟩
      rintro rfl
      exact hother ((h.pending ruleId after hbefore).mapped code hcode)
    · rw [(remove_eq_some hremove).faultCodes, List.mem_filter, decide_eq_true_eq] at hcode
      exact ⟨hcode.2, ruleId, before, hbefore, hcode.1⟩
  · rintro ⟨hne, ruleId, pending, hpending, hcode⟩
    have hleft : code ∈ pending.data.faultCodes.filter (· ≠ faultCode) := by
      simpa using ⟨hcode, hne⟩
    simp only [processClear_pendingClusters]
    by_cases hid : st.faultToCluster[faultCode]? = some pending.data.clusterId
    · cases hremove : pending.remove config ruleId faultCode with
      | none =>
        rw [remove_eq_none hremove] at hleft
        cases hleft
      | some after =>
        refine ⟨ruleId, after, by simp [hpending, hid, hremove], ?_⟩
        rw [(remove_eq_some hremove).faultCodes]
        exact hleft
    · exact ⟨ruleId, pending, by simp [hpending, hid], hcode⟩

/-- Only the active cluster that `faultToCluster` names loses the cleared code. -/
theorem inActive_processClear : (processClear config st faultCode).1.InActive code ↔
      ∃ (clusterId : Str) (cluster : ClusterData),
        st.activeClusters[clusterId]? = some cluster ∧ code ∈ cluster.faultCodes ∧
          ¬ (code = faultCode ∧ st.faultToCluster[faultCode]? = some clusterId) := by
  rw [inActive_iff]
  constructor
  · rintro ⟨clusterId, after, hafter, hcode⟩
    obtain ⟨cluster, hcluster, ⟨hother, rfl⟩ | ⟨-, hremoved⟩⟩ := active_of_processClear hafter
    · exact ⟨clusterId, after, hcluster, hcode, fun h => hother h.2⟩
    · rw [hremoved.faultCodes, List.mem_filter, decide_eq_true_eq] at hcode
      exact ⟨clusterId, cluster, hcluster, hcode.1, fun h => hcode.2 h.1⟩
  · rintro ⟨clusterId, cluster, hcluster, hcode, hkept⟩
    simp only [processClear_activeClusters]
    by_cases hid : st.faultToCluster[faultCode]? = some clusterId
    · have hne : code ≠ faultCode := fun heq => hkept ⟨heq, hid⟩
      obtain ⟨after, hafter⟩ := remove_isSome cluster
        (Correlation.processClear config st faultCode).1.pendingClusters clusterId hcode hne
      refine ⟨clusterId, after, by simp [hcluster, hid, hafter], ?_⟩
      rw [(removedCode_of_remove cluster hafter).faultCodes]
      simpa using ⟨hcode, hne⟩
    · exact ⟨clusterId, cluster, by simp [hcluster, hid], hcode⟩

/-! ## When nothing is left -/

/-- The state before a clear keeps the cleared code in one active cluster at most,
the one `faultToCluster` names, and keeps none of the symptoms that are cleared
along with it as a root cause or in a cluster. -/
structure ClearsCleanly (config : EngineConfig) (st : EngineState) (faultCode : Str) : Prop where
  mapped : ∀ cluster ∈ st.getClusters, faultCode ∈ cluster.faultCodes →
    st.faultToCluster[faultCode]? = some cluster.clusterId
  symptoms : config.AutoClearsRoot faultCode → ∀ code ∈ st.symptoms faultCode, code ≠ faultCode →
    ¬ st.IsPendingRoot code ∧ ¬ st.InPending code ∧ ¬ st.InActive code

theorem ClusterInvariant.not_occurs_self_iff (h : ClusterInvariant config st) (faultCode : Str) :
    ¬ (Correlation.processClear config st faultCode).1.Occurs faultCode ↔
      ∀ cluster ∈ st.getClusters, faultCode ∈ cluster.faultCodes →
        st.faultToCluster[faultCode]? = some cluster.clusterId := by
  unfold EngineState.Occurs
  rw [isMuted_processClear, isPendingRoot_processClear, h.inPending_processClear,
    inActive_processClear]
  simp only [ne_eq, not_true_eq_false, false_and, true_or, false_or, true_and]
  constructor
  · intro hnone cluster hcluster hcode
    obtain ⟨clusterId, hactive⟩ := OMap.mem_values.mp hcluster
    rw [(h.active clusterId cluster hactive).clusterId_eq]
    by_contra hne
    exact hnone ⟨clusterId, cluster, hactive, hcode, hne⟩
  · rintro hmapped ⟨clusterId, cluster, hactive, hcode, hne⟩
    have hentry := hmapped cluster (OMap.mem_values.mpr ⟨clusterId, hactive⟩) hcode
    rw [(h.active clusterId cluster hactive).clusterId_eq] at hentry
    exact hne hentry

theorem ClusterInvariant.occurs_other_iff (h : ClusterInvariant config st)
    (hcode : code ∈ st.symptoms faultCode) (hne : code ≠ faultCode) :
    (Correlation.processClear config st faultCode).1.Occurs code ↔
      st.IsPendingRoot code ∨ st.InPending code ∨ st.InActive code := by
  unfold EngineState.Occurs
  rw [isMuted_processClear, isPendingRoot_processClear, h.inPending_processClear,
    inActive_processClear, inActive_iff]
  simp [hcode, hne]

/-- A clear wipes the code and the symptoms cleared with it out of the engine
exactly when the state before it was clean. -/
theorem process_clear_leaves_nothing (config : EngineConfig) (st : EngineState) (faultCode : Str)
    (hst : (engine config).Reachable st) :
    (∀ code ∈ faultCode :: (processClear config st faultCode).2.autoClearedCodes,
        ¬ (processClear config st faultCode).1.Occurs code) ↔
      ClearsCleanly config st faultCode := by
  have hclusters := clusterInvariant_of_reachable hst
  have hroots := rootInvariant_of_reachable hst
  simp only [List.mem_cons, forall_eq_or_imp, hroots.mem_autoClearedCodes,
    hclusters.not_occurs_self_iff faultCode]
  constructor
  · rintro ⟨hown, hothers⟩
    refine ⟨hown, ?_⟩
    intro hauto code hcode hne
    have hgone := hothers code ⟨hauto, hcode⟩
    rw [hclusters.occurs_other_iff hcode hne] at hgone
    simpa only [not_or] using hgone
  · intro hclean
    refine ⟨hclean.mapped, ?_⟩
    rintro code ⟨hauto, hcode⟩
    by_cases hne : code = faultCode
    · subst hne
      exact (hclusters.not_occurs_self_iff code).mpr hclean.mapped
    · rw [hclusters.occurs_other_iff hcode hne]
      simpa only [not_or] using hclean.symptoms hauto code hcode hne

def mutedDrive : EngineState :=
  (engine stallConfig).exec {} [errorAt "MOTOR_1" 0, errorAt "DRIVE_A" 10]

theorem process_clear_leaves_nothing_of_root :
    mutedDrive.isMuted (str "DRIVE_A") = true ∧
      (processClear stallConfig mutedDrive (str "MOTOR_1")).2.autoClearedCodes = [str "DRIVE_A"] ∧
      ∀ code ∈ str "MOTOR_1" ::
          (processClear stallConfig mutedDrive (str "MOTOR_1")).2.autoClearedCodes,
        ¬ (processClear stallConfig mutedDrive (str "MOTOR_1")).1.Occurs code :=
  ⟨by decide, by decide,
    (process_clear_leaves_nothing stallConfig mutedDrive (str "MOTOR_1")
      (Machine.reachable_exec _ _)).mpr ⟨by decide, by decide⟩⟩

/-- The window of the first cluster has passed when `DRIVE_A` comes back, so it is
in the old active cluster and in a new pending one. -/
def overlappingClusters : EngineState :=
  (engine stallConfig).exec {} [errorAt "DRIVE_A" 0, errorAt "DRIVE_B" 0, errorAt "DRIVE_A" 1000]

def clusteredSymptom : EngineState :=
  (engine stallConfig).exec {} [errorAt "DRIVE_A" 0, errorAt "MOTOR_1" 5, errorAt "DRIVE_A" 10]

theorem cleared_code_stays_in_cluster :
    ((engine stallConfig).Reachable overlappingClusters ∧
      (processClear stallConfig overlappingClusters (str "DRIVE_A")).1.InActive (str "DRIVE_A")) ∧
    (engine stallConfig).Reachable clusteredSymptom ∧
      str "DRIVE_A" ∈ (processClear stallConfig clusteredSymptom (str "MOTOR_1")).2.autoClearedCodes ∧
      (processClear stallConfig clusteredSymptom (str "MOTOR_1")).1.InPending (str "DRIVE_A") :=
  ⟨⟨Machine.reachable_exec _ _, by decide⟩, Machine.reachable_exec _ _,
    by decide, by decide⟩

end Medkit.Correlation
