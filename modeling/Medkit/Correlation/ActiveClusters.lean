import Medkit.Correlation.ClusterInvariant

/-! The representative of an active cluster. An active cluster is a copy of a
pending one that lives on after it: the copy never runs empty and never lists a
code twice, but a cleared representative is only replaced while the pending
cluster is still there to name another. -/
namespace Medkit.Correlation

open Lib

variable {config : EngineConfig} {st : EngineState} {report : FaultReport}

/-! ## Who follows a cleared representative -/

def PendingCluster.successor (config : EngineConfig) (pending : PendingCluster)
    (ruleId faultCode : Str) : Str :=
  if pending.data.representativeCode ≠ faultCode then pending.data.representativeCode
  else
    match config.rules.find? (·.id = ruleId) with
    | none => faultCode
    | some rule => electRepresentative rule.representative
        (pending.data.faultCodes.filter (· ≠ faultCode)) (pending.faultSeverities.erase faultCode)

/-- A clear of an active cluster's representative that leaves other members finds
a pending cluster with the same id whose next representative is one of them. -/
def KeepsRepresentative (config : EngineConfig) (st : EngineState) : EngineCall → Prop
  | .processClear faultCode =>
      ∀ clusterId ∈ st.faultToCluster[faultCode]?, ∀ cluster ∈ st.activeClusters[clusterId]?,
        cluster.representativeCode = faultCode →
        cluster.faultCodes.filter (· ≠ faultCode) ≠ [] →
        ∃ entry ∈ st.pendingClusters.toList, entry.2.data.clusterId = clusterId ∧
          entry.2.successor config entry.1 faultCode ∈ cluster.faultCodes.filter (· ≠ faultCode)
  | .processFault _ => True
  | .cleanupExpired _ => True

instance (config : EngineConfig) (st : EngineState) (call : EngineCall) :
    Decidable (KeepsRepresentative config st call) :=
  match call with
  | .processClear _ => inferInstanceAs (Decidable (∀ clusterId ∈ _, ∀ cluster ∈ _, _))
  | .processFault _ => inferInstanceAs (Decidable True)
  | .cleanupExpired _ => inferInstanceAs (Decidable True)

theorem remove_successor {pending after : PendingCluster} {ruleId faultCode : Str}
    (hrule : ∃ rule ∈ config.rules, rule.id = ruleId)
    (h : pending.remove config ruleId faultCode = some after) :
    after.data.representativeCode = pending.successor config ruleId faultCode := by
  obtain ⟨rule, hmem, rfl⟩ := hrule
  unfold PendingCluster.successor
  by_cases hrep : pending.data.representativeCode = faultCode
  · rw [((remove_eq_some h).elected rule hmem rfl hrep).1, if_neg (not_not.mpr hrep),
      find?_rule_eq hmem, (remove_eq_some h).faultCodes, (remove_eq_some h).faultSeverities]
  · rw [((remove_eq_some h).kept hrep).1, if_pos hrep]

/-- An id belongs to one pending cluster, so searching for it finds that one. -/
theorem ClusterInvariant.find?_pending {ruleId : Str} {pending : PendingCluster}
    (h : ClusterInvariant config st) (hpending : st.pendingClusters[ruleId]? = some pending) :
    st.pendingClusters.toList.find? (·.2.data.clusterId = pending.data.clusterId) =
      some (ruleId, pending) := by
  have hmem := Std.ExtTreeMap.mem_toList_iff_getElem?_eq_some.mpr hpending
  have hsome : (st.pendingClusters.toList.find?
      (·.2.data.clusterId = pending.data.clusterId)).isSome := by
    rw [List.find?_isSome]
    exact ⟨_, hmem, by simp⟩
  obtain ⟨⟨otherId, other⟩, hfound⟩ := Option.isSome_iff_exists.mp hsome
  have hother := Std.ExtTreeMap.mem_toList_iff_getElem?_eq_some.mp
    (List.mem_of_find?_eq_some hfound)
  have hid : other.data.clusterId = pending.data.clusterId := by
    simpa using List.find?_some hfound
  have hissued := (h.pending otherId other hother).issued
  rw [hid] at hissued
  obtain rfl := hissued.rule_unique (h.pending ruleId pending hpending).issued
  rw [hpending] at hother
  cases hother
  exact hfound

/-! ## The representative along a run -/

def Represented (st : EngineState) : Prop :=
  ∀ (clusterId : Str) (cluster : ClusterData), st.activeClusters[clusterId]? = some cluster →
    cluster.representativeCode ∈ cluster.faultCodes

theorem Represented.outcome {after : EngineState} {result : ProcessFaultResult}
    (h : Represented st) (hclusters : ClusterInvariant config st)
    (hout : FaultOutcome config st report after result) : Represented after := by
  cases hout with
  | activated hfree hrule hopen hmem hreached =>
    intro clusterId cluster hcluster
    rw [Std.ExtTreeMap.getElem?_insert] at hcluster
    split_ifs at hcluster
    · cases hcluster
      exact ((hclusters.pending _ _ (openCluster_eq_some hopen)).join hrule hmem).representative
    · exact h clusterId cluster hcluster
  | symptom | rootCause | started | repeated | joined | uncorrelated => exact h

theorem Represented.processClear {faultCode : Str} (h : Represented st)
    (hclusters : ClusterInvariant config st)
    (hkeeps : KeepsRepresentative config st (.processClear faultCode)) :
    Represented (processClear config st faultCode).1 := by
  intro key after hafter
  obtain ⟨cluster, hcluster, ⟨-, rfl⟩ | ⟨hmapped, hremoved⟩⟩ := active_of_processClear hafter
  · exact h key after hcluster
  have hcodes := hremoved.faultCodes
  rw [hcodes]
  by_cases hrep : cluster.representativeCode = faultCode
  · -- the successor comes from the pending cluster, which keeps its id
    obtain ⟨⟨ruleId, pending⟩, hentry, hid, hnext⟩ :=
      hkeeps key hmapped cluster hcluster hrep (hcodes ▸ hremoved.nonempty)
    have hpending := Std.ExtTreeMap.mem_toList_iff_getElem?_eq_some.mp hentry
    dsimp only at hid hnext
    cases hremove : pending.remove config ruleId faultCode with
    | none =>
      have hsub := hclusters.copied cluster ruleId pending hpending (hid ▸ hcluster)
      have hgone := List.filter_subset (fun code => decide (code ≠ faultCode)) hsub
      rw [remove_eq_none hremove] at hgone
      exact absurd (hcodes.trans (List.subset_nil.mp hgone)) hremoved.nonempty
    | some remaining =>
      have hremaining : (Correlation.processClear config st faultCode).1.pendingClusters[ruleId]? =
          some remaining := by
        rw [processClear_pendingClusters, hpending]
        simp [hid, hmapped, hremove]
      have hfound := (hclusters.processClear faultCode).find?_pending hremaining
      rw [(remove_eq_some hremove).clusterId, hid] at hfound
      rw [hremoved.synced hrep _ hfound,
        remove_successor (hclusters.pending ruleId pending hpending).rule hremove]
      exact hnext
  · rw [hremoved.kept hrep]
    simpa using ⟨h key cluster hcluster, hrep⟩

theorem represented_of_run {history : List EngineEvent}
    (hrun : (engine config).Runs (KeepsRepresentative config) history st) : Represented st := by
  apply hrun.invariant (fun _ st => Represented st)
  · intro clusterId cluster hcluster
    simp [engine] at hcluster
  · intro _ st call hst hkeeps h
    have hclusters := clusterInvariant_of_reachable hst
    cases call with
    | processFault report =>
      have hlive : ClusterInvariant config (st.dropExpiredRootCauses report.now) :=
        hclusters.congr rfl rfl rfl rfl
      have hrepresented : Represented (st.dropExpiredRootCauses report.now) := h
      exact hrepresented.outcome hlive (processFault_outcome config st report)
    | processClear faultCode => exact h.processClear hclusters hkeeps
    | cleanupExpired now => exact h

/-- Every active cluster has members, lists each once, and is represented by one
of them. -/
theorem active_clusters_represented (config : EngineConfig)
    (history : List EngineEvent) (st : EngineState)
    (hrun : (engine config).Runs (KeepsRepresentative config) history st) (cluster : ClusterData)
    (hcluster : cluster ∈ st.getClusters) :
    cluster.faultCodes ≠ [] ∧ cluster.faultCodes.Nodup ∧
      cluster.representativeCode ∈ cluster.faultCodes := by
  obtain ⟨clusterId, hactive⟩ := OMap.mem_values.mp hcluster
  have hok := (clusterInvariant_of_reachable hrun.reachable).active clusterId cluster hactive
  exact ⟨hok.nonempty, hok.nodup, represented_of_run hrun clusterId cluster hactive⟩

def representativeReplaced : List EngineCall :=
  [errorAt "DRIVE_A" 0, errorAt "DRIVE_B" 10, errorAt "DRIVE_C" 20, .processClear (str "DRIVE_A")]

theorem active_clusters_represented_after_clear :
    ((engine stallConfig).exec {} representativeReplaced).getClusters.map
        (fun cluster => (cluster.representativeCode, cluster.faultCodes)) =
      [(str "DRIVE_B", [str "DRIVE_B", str "DRIVE_C"])] ∧
    ∀ cluster ∈ ((engine stallConfig).exec {} representativeReplaced).getClusters,
      cluster.faultCodes ≠ [] ∧ cluster.faultCodes.Nodup ∧
        cluster.representativeCode ∈ cluster.faultCodes :=
  ⟨by decide,
    active_clusters_represented stallConfig _ _
      (Machine.Runs.start.exec representativeReplaced
        (by exact ⟨trivial, trivial, trivial, by decide, trivial⟩))⟩

def representativeOrphaned : EngineState :=
  (engine stallConfig).exec {} [errorAt "DRIVE_A" 0, errorAt "DRIVE_B" 10,
    .cleanupExpired 1000000000, .processClear (str "DRIVE_A")]

theorem cleared_representative_stays :
    (engine stallConfig).Reachable representativeOrphaned ∧
      representativeOrphaned.getClusters.map
          (fun cluster => (cluster.representativeCode, cluster.faultCodes)) =
        [(str "DRIVE_A", [str "DRIVE_B"])] :=
  ⟨Machine.reachable_exec _ _, by decide⟩

end Medkit.Correlation
