import Medkit.Correlation.Engine

/-! What a single call can do to the engine: the six ways a report ends, and what
clearing and expiry leave of the cluster maps. -/
namespace Medkit.Correlation

open Lib

variable {config : EngineConfig} {st : EngineState} {report : FaultReport}

/-! ## Lookups -/

theorem find?_rule_eq {rule : CorrelationRule} (hrule : rule ∈ config.rules) :
    config.rules.find? (·.id = rule.id) = some rule := by
  have hsome : (config.rules.find? (·.id = rule.id)).isSome := by
    rw [List.find?_isSome]
    exact ⟨rule, hrule, by simp⟩
  obtain ⟨found, hfound⟩ := Option.isSome_iff_exists.mp hsome
  have hid := List.find?_some hfound
  simp only [decide_eq_true_eq] at hid
  rw [hfound, config.rule_ext (List.mem_of_find?_eq_some hfound) hrule hid]

variable {faultCode : Str} (cluster : ClusterData)

theorem rootCauseRule_spec {rule : CorrelationRule}
    (h : rootCauseRule config faultCode = some rule) :
    rule ∈ config.rules ∧ rule.mode = .hierarchical ∧
      matchesAny faultCode rule.rootCauseCodes = true := by
  have hmatch := List.find?_some h
  simp only [Bool.and_eq_true, decide_eq_true_eq] at hmatch
  exact ⟨List.mem_of_find?_eq_some h, hmatch⟩

theorem clusterRule_mem {rule : CorrelationRule} (h : clusterRule config faultCode = some rule) :
    rule ∈ config.rules :=
  List.mem_of_find?_eq_some h

theorem findRootCause_spec {pending : List PendingRootCause} {prc : PendingRootCause}
    {rule : CorrelationRule} (h : findRootCause config pending report = some (prc, rule)) :
    prc ∈ pending ∧ rule ∈ config.rules ∧ rule.id = prc.ruleId ∧ rule.mode = .hierarchical := by
  obtain ⟨prc', hmem, hfound⟩ := List.exists_of_findSome?_eq_some h
  obtain ⟨rule', hrule, heq⟩ := Option.map_eq_some_iff.mp hfound
  cases heq
  have hmatch := List.find?_some hrule
  simp only [Bool.and_eq_true, decide_eq_true_eq] at hmatch
  exact ⟨hmem, List.mem_of_find?_eq_some hrule, hmatch.1.1⟩

theorem openCluster_eq_some {rule : CorrelationRule} {timestamp : Int} {pending : PendingCluster}
    (h : st.openCluster rule timestamp = some pending) :
    st.pendingClusters[rule.id]? = some pending := by
  unfold EngineState.openCluster at h
  split at h
  · cases h
  · split at h
    · cases h
    · rename_i hpending _
      rw [hpending]
      exact h

/-! ## Reports -/

def Unclaimed (config : EngineConfig) (st : EngineState) (report : FaultReport) : Prop :=
  findRootCause config st.pendingRootCauses report = none ∧
    rootCauseRule config report.faultCode = none

inductive FaultOutcome (config : EngineConfig) (st : EngineState) (report : FaultReport) :
    EngineState → ProcessFaultResult → Prop
  | symptom {prc rule}
      (hfound : findRootCause config st.pendingRootCauses report = some (prc, rule)) :
      FaultOutcome config st report (st.recordSymptom report prc rule)
        (symptomResult report prc rule)
  | rootCause {rule} (hnone : findRootCause config st.pendingRootCauses report = none)
      (hrule : rootCauseRule config report.faultCode = some rule) :
      FaultOutcome config st report
        { st with
          pendingRootCauses := st.pendingRootCauses ++
            [⟨report.faultCode, rule.id, report.timestamp, rule.windowMs⟩]
          rootToSymptoms := st.rootToSymptoms.insert report.faultCode [] }
        { isRootCause := true, ruleId := rule.id }
  | started {rule} (hfree : Unclaimed config st report)
      (hrule : clusterRule config report.faultCode = some rule)
      (hclosed : st.openCluster rule report.timestamp = none) :
      FaultOutcome config st report (st.startCluster rule report).1 (st.startCluster rule report).2
  | repeated {rule pending} (hfree : Unclaimed config st report)
      (hrule : clusterRule config report.faultCode = some rule)
      (hopen : st.openCluster rule report.timestamp = some pending)
      (hmem : report.faultCode ∈ pending.data.faultCodes) :
      FaultOutcome config st report st (repeatResult rule pending.data report.faultCode)
  | joined {rule pending} (hfree : Unclaimed config st report)
      (hrule : clusterRule config report.faultCode = some rule)
      (hopen : st.openCluster rule report.timestamp = some pending)
      (hmem : report.faultCode ∉ pending.data.faultCodes)
      (hbelow : ¬ rule.minCount ≤ pending.data.faultCodes.length + 1) :
      FaultOutcome config st report
        { st with
          pendingClusters := st.pendingClusters.insert rule.id (pending.join rule report)
          faultToCluster := st.faultToCluster.insert report.faultCode pending.data.clusterId }
        { clusterId := pending.data.clusterId }
  | activated {rule pending} (hfree : Unclaimed config st report)
      (hrule : clusterRule config report.faultCode = some rule)
      (hopen : st.openCluster rule report.timestamp = some pending)
      (hmem : report.faultCode ∉ pending.data.faultCodes)
      (hreached : rule.minCount ≤ pending.data.faultCodes.length + 1) :
      FaultOutcome config st report
        { st with
          pendingClusters := st.pendingClusters.insert rule.id (pending.join rule report)
          faultToCluster := st.faultToCluster.insert report.faultCode pending.data.clusterId
          activeClusters := st.activeClusters.insert pending.data.clusterId
            (pending.join rule report).data }
        { clusterId := pending.data.clusterId
          retroactiveMuteCodes :=
            if !st.activeClusters.contains pending.data.clusterId && rule.showAsSingle then
              (pending.join rule report).data.faultCodes.filter fun code =>
                code ≠ (pending.join rule report).data.representativeCode &&
                  code ≠ report.faultCode
            else []
          shouldMute := rule.showAsSingle &&
            report.faultCode ≠ (pending.join rule report).data.representativeCode }
  | uncorrelated (hfree : Unclaimed config st report) :
      FaultOutcome config st report st {}

@[simp] theorem join_clusterId (pending : PendingCluster) (rule : CorrelationRule)
    (report : FaultReport) : (pending.join rule report).data.clusterId = pending.data.clusterId := rfl

@[simp] theorem join_ruleId (pending : PendingCluster) (rule : CorrelationRule)
    (report : FaultReport) : (pending.join rule report).data.ruleId = pending.data.ruleId := rfl

@[simp] theorem join_faultCodes (pending : PendingCluster) (rule : CorrelationRule)
    (report : FaultReport) : (pending.join rule report).data.faultCodes =
      pending.data.faultCodes ++ [report.faultCode] := rfl

theorem registerRootCause_eq {rule : CorrelationRule} (hrule : rule ∈ config.rules) :
    st.registerRootCause config report rule.id =
      { st with
        pendingRootCauses := st.pendingRootCauses ++
          [⟨report.faultCode, rule.id, report.timestamp, rule.windowMs⟩]
        rootToSymptoms := st.rootToSymptoms.insert report.faultCode [] } := by
  unfold EngineState.registerRootCause
  rw [find?_rule_eq hrule]

theorem joinCluster_outcome {rule : CorrelationRule} {pending : PendingCluster}
    (hfree : Unclaimed config st report) (hrule : clusterRule config report.faultCode = some rule)
    (hopen : st.openCluster rule report.timestamp = some pending)
    (hmem : report.faultCode ∉ pending.data.faultCodes) :
    FaultOutcome config st report (st.joinCluster rule pending report).1
      (st.joinCluster rule pending report).2 := by
  by_cases hreached : rule.minCount ≤ pending.data.faultCodes.length + 1
  · have h := FaultOutcome.activated hfree hrule hopen hmem hreached
    simpa [EngineState.joinCluster, EngineState.activate, hreached] using h
  · have h := FaultOutcome.joined hfree hrule hopen hmem hreached
    simpa [EngineState.joinCluster, EngineState.activate, hreached] using h

theorem processFault_outcome (config : EngineConfig) (st : EngineState) (report : FaultReport) :
    FaultOutcome config (st.dropExpiredRootCauses report.now) report
      (processFault config st report).1 (processFault config st report).2 := by
  unfold processFault
  dsimp only
  generalize st.dropExpiredRootCauses report.now = live
  unfold tryAsSymptom tryAsRootCause tryAutoCluster
  cases hfound : findRootCause config live.pendingRootCauses report with
  | some found => exact .symptom hfound
  | none =>
    cases hroot : rootCauseRule config report.faultCode with
    | some rule =>
      have h := FaultOutcome.rootCause hfound hroot
      rw [← registerRootCause_eq (rootCauseRule_spec hroot).1] at h
      exact h
    | none =>
      cases hrule : clusterRule config report.faultCode with
      | none => exact .uncorrelated ⟨hfound, hroot⟩
      | some rule =>
        cases hopen : live.openCluster rule report.timestamp with
        | none => simpa [hopen] using FaultOutcome.started ⟨hfound, hroot⟩ hrule hopen
        | some pending =>
          by_cases hmem : report.faultCode ∈ pending.data.faultCodes
          · simpa [hopen, hmem] using FaultOutcome.repeated ⟨hfound, hroot⟩ hrule hopen hmem
          · simpa [hopen, hmem] using joinCluster_outcome ⟨hfound, hroot⟩ hrule hopen hmem

/-! ## Clears -/

theorem highestSeverity_mem (severities : OMap Str Str) (codes : List Str) (bestCode : Str)
    (bestRank : Int) :
    highestSeverity severities codes bestCode bestRank = bestCode ∨
      highestSeverity severities codes bestCode bestRank ∈ codes := by
  induction codes generalizing bestCode bestRank with
  | nil => exact .inl rfl
  | cons code codes ih =>
    unfold highestSeverity
    dsimp only
    split_ifs
    · rcases ih code _ with h | h
      · exact .inr (by rw [h]; exact List.mem_cons_self)
      · exact .inr (List.mem_cons_of_mem _ h)
    · exact (ih bestCode bestRank).imp_right (List.mem_cons_of_mem _)

theorem electRepresentative_mem (representative : Representative) {codes : List Str}
    (severities : OMap Str Str) (hcodes : codes ≠ []) :
    electRepresentative representative codes severities ∈ codes := by
  cases codes with
  | nil => exact absurd rfl hcodes
  | cons code codes =>
    cases representative with
    | first => exact List.mem_cons_self
    | mostRecent =>
      have hlast := List.getLast_mem hcodes
      simpa only [electRepresentative, List.getLast_eq_getLastD, List.getLastD_cons] using hlast
    | highestSeverity =>
      rcases highestSeverity_mem severities (code :: codes) code (-1) with h | h
      · simp [electRepresentative, h]
      · exact h

structure RemovedMember (config : EngineConfig) (ruleId faultCode : Str)
    (before after : PendingCluster) : Prop where
  faultCodes : after.data.faultCodes = before.data.faultCodes.filter (· ≠ faultCode)
  nonempty : after.data.faultCodes ≠ []
  clusterId : after.data.clusterId = before.data.clusterId
  ruleId_eq : after.data.ruleId = before.data.ruleId
  faultSeverities : after.faultSeverities = before.faultSeverities.erase faultCode
  kept : before.data.representativeCode ≠ faultCode →
    after.data.representativeCode = before.data.representativeCode ∧
      after.data.representativeSeverity = before.data.representativeSeverity
  elected : ∀ rule ∈ config.rules, rule.id = ruleId →
    before.data.representativeCode = faultCode →
    after.data.representativeCode =
        electRepresentative rule.representative after.data.faultCodes after.faultSeverities ∧
      after.data.representativeSeverity =
        after.faultSeverities[after.data.representativeCode]?.getD []

section Remove

variable {pending after : PendingCluster} {ruleId : Str}

theorem remove_eq_some (h : pending.remove config ruleId faultCode = some after) :
    RemovedMember config ruleId faultCode pending after := by
  unfold PendingCluster.remove at h
  dsimp only at h
  split_ifs at h with hempty hrep
  · split at h
    · rename_i hnone
      cases h
      refine ⟨rfl, by simpa using hempty, rfl, rfl, rfl, fun hne => absurd hrep hne, ?_⟩
      rintro rule hrule rfl
      simp [find?_rule_eq hrule] at hnone
    · rename_i found hfound
      cases h
      refine ⟨rfl, by simpa using hempty, rfl, rfl, rfl, fun hne => absurd hrep hne, ?_⟩
      rintro rule hrule rfl -
      obtain rfl : rule = found := Option.some.inj ((find?_rule_eq hrule).symm.trans hfound)
      exact ⟨rfl, rfl⟩
  · cases h
    exact ⟨rfl, by simpa using hempty, rfl, rfl, rfl, fun _ => ⟨rfl, rfl⟩,
      fun _ _ _ heq => absurd heq hrep⟩

theorem remove_eq_none (h : pending.remove config ruleId faultCode = none) :
    pending.data.faultCodes.filter (· ≠ faultCode) = [] := by
  unfold PendingCluster.remove at h
  dsimp only at h
  split_ifs at h with hempty
  · simpa using hempty
  · split at h <;> cases h

theorem RemovedMember.representative_mem {rule : CorrelationRule} (hrule : rule ∈ config.rules)
    (h : RemovedMember config rule.id faultCode pending after)
    (hmem : pending.data.representativeCode ∈ pending.data.faultCodes) :
    after.data.representativeCode ∈ after.data.faultCodes := by
  by_cases hrep : pending.data.representativeCode = faultCode
  · rw [(h.elected rule hrule rfl hrep).1]
    exact electRepresentative_mem _ _ h.nonempty
  · rw [(h.kept hrep).1, h.faultCodes]
    simpa using ⟨hmem, hrep⟩

end Remove

@[simp] theorem syncRepresentative_faultCodes (pendings : OMap Str PendingCluster)
    (clusterId : Str) :
    (cluster.syncRepresentative pendings clusterId).faultCodes = cluster.faultCodes := by
  unfold ClusterData.syncRepresentative
  split <;> rfl

@[simp] theorem syncRepresentative_clusterId (pendings : OMap Str PendingCluster)
    (clusterId : Str) :
    (cluster.syncRepresentative pendings clusterId).clusterId = cluster.clusterId := by
  unfold ClusterData.syncRepresentative
  split <;> rfl

@[simp] theorem syncRepresentative_ruleId (pendings : OMap Str PendingCluster) (clusterId : Str) :
    (cluster.syncRepresentative pendings clusterId).ruleId = cluster.ruleId := by
  unfold ClusterData.syncRepresentative
  split <;> rfl

/-- What a clear leaves of the active cluster that it finds. -/
def ClusterData.remove (pendings : OMap Str PendingCluster) (clusterId faultCode : Str) :
    Option ClusterData :=
  let left := { cluster with faultCodes := cluster.faultCodes.filter (· ≠ faultCode) }
  if left.faultCodes.isEmpty then none
  else if cluster.representativeCode = faultCode then
    some (left.syncRepresentative pendings clusterId)
  else some left

structure RemovedCode (pendings : OMap Str PendingCluster) (clusterId faultCode : Str)
    (before after : ClusterData) : Prop where
  faultCodes : after.faultCodes = before.faultCodes.filter (· ≠ faultCode)
  nonempty : after.faultCodes ≠ []
  clusterId_eq : after.clusterId = before.clusterId
  ruleId : after.ruleId = before.ruleId
  kept : before.representativeCode ≠ faultCode →
    after.representativeCode = before.representativeCode
  synced : before.representativeCode = faultCode →
    ∀ entry ∈ pendings.toList.find? (·.2.data.clusterId = clusterId),
      after.representativeCode = entry.2.data.representativeCode

theorem removedCode_of_remove {pendings : OMap Str PendingCluster} {clusterId : Str}
    {after : ClusterData} (h : cluster.remove pendings clusterId faultCode = some after) :
    RemovedCode pendings clusterId faultCode cluster after := by
  unfold ClusterData.remove at h
  dsimp only at h
  split_ifs at h with hempty hrep
  · cases h
    refine ⟨by simp, by simpa using hempty, by simp, by simp, fun hne => absurd hrep hne, ?_⟩
    rintro - entry hentry
    rw [ClusterData.syncRepresentative, Option.mem_def.mp hentry]
  · cases h
    exact ⟨rfl, by simpa using hempty, rfl, rfl, fun _ => rfl, fun heq => absurd heq hrep⟩

theorem remove_isSome (pendings : OMap Str PendingCluster) (clusterId : Str) {code : Str}
    (hcode : code ∈ cluster.faultCodes) (hne : code ≠ faultCode) :
    ∃ after, cluster.remove pendings clusterId faultCode = some after := by
  have hleft : cluster.faultCodes.filter (· ≠ faultCode) ≠ [] :=
    List.ne_nil_of_mem (List.mem_filter.mpr ⟨hcode, by simpa using hne⟩)
  unfold ClusterData.remove
  dsimp only
  rw [if_neg (by simpa using hleft)]
  split_ifs
  · exact ⟨_, rfl⟩
  · exact ⟨_, rfl⟩

section ProcessClear

variable (config st) (faultCode : Str)

theorem clearFromCluster_frame :
    (st.clearFromCluster config faultCode).mutedFaults = st.mutedFaults ∧
      (st.clearFromCluster config faultCode).rootToSymptoms = st.rootToSymptoms ∧
      (st.clearFromCluster config faultCode).pendingRootCauses = st.pendingRootCauses ∧
      (st.clearFromCluster config faultCode).clusterCounter = st.clusterCounter := by
  unfold EngineState.clearFromCluster
  split <;> exact ⟨rfl, rfl, rfl, rfl⟩

theorem processClear_mutedFaults (code : Str) :
    (processClear config st faultCode).1.mutedFaults[code]? =
      if code = faultCode ∨ code ∈ st.symptoms faultCode then none else st.mutedFaults[code]? := by
  have hframe := (clearFromCluster_frame config (st.clearRootCause faultCode) faultCode).1
  simp only [processClear, hframe, Std.ExtTreeMap.getElem?_erase]
  simp only [EngineState.clearRootCause, OMap.getElem?_eraseAll]
  by_cases hcode : code = faultCode
  · simp [hcode]
  · simp [hcode, Ne.symm hcode]

@[simp] theorem processClear_rootToSymptoms :
    (processClear config st faultCode).1.rootToSymptoms = st.rootToSymptoms.erase faultCode :=
  (clearFromCluster_frame config (st.clearRootCause faultCode) faultCode).2.1

@[simp] theorem processClear_pendingRootCauses :
    (processClear config st faultCode).1.pendingRootCauses =
      st.pendingRootCauses.filter (·.faultCode ≠ faultCode) :=
  (clearFromCluster_frame config (st.clearRootCause faultCode) faultCode).2.2.1

@[simp] theorem processClear_clusterCounter :
    (processClear config st faultCode).1.clusterCounter = st.clusterCounter :=
  (clearFromCluster_frame config (st.clearRootCause faultCode) faultCode).2.2.2

theorem processClear_faultToCluster (code : Str) :
    (processClear config st faultCode).1.faultToCluster[code]? =
      if code = faultCode then none else st.faultToCluster[code]? := by
  simp only [processClear, EngineState.clearFromCluster, EngineState.clearRootCause]
  split
  · rename_i hnone
    split_ifs with hcode
    · rw [hcode]
      exact hnone
    · rfl
  · by_cases hcode : code = faultCode
    · simp [hcode]
    · simp [hcode, Std.ExtTreeMap.getElem?_erase, Ne.symm hcode]

/-- A clear looks for the code in the pending cluster that `faultToCluster` names. -/
theorem processClear_pendingClusters (ruleId : Str) :
    (processClear config st faultCode).1.pendingClusters[ruleId]? =
      st.pendingClusters[ruleId]?.bind fun pending =>
        if st.faultToCluster[faultCode]? = some pending.data.clusterId then
          pending.remove config ruleId faultCode
        else some pending := by
  cases hmapped : st.faultToCluster[faultCode]? with
  | none => simp [processClear, EngineState.clearFromCluster, EngineState.clearRootCause, hmapped]
  | some clusterId =>
    simp only [processClear, EngineState.clearFromCluster, EngineState.clearRootCause, hmapped,
      removeFromPending, OMap.getElem?_mapMaybe]
    congr 1
    funext pending
    by_cases hid : pending.data.clusterId = clusterId
    · simp [hid]
    · simp [hid, Ne.symm hid]

theorem processClear_activeClusters (key : Str) :
    (processClear config st faultCode).1.activeClusters[key]? =
      st.activeClusters[key]?.bind fun cluster =>
        if st.faultToCluster[faultCode]? = some key then
          cluster.remove (processClear config st faultCode).1.pendingClusters key faultCode
        else some cluster := by
  cases hmapped : st.faultToCluster[faultCode]? with
  | none => simp [processClear, EngineState.clearFromCluster, EngineState.clearRootCause, hmapped]
  | some clusterId =>
    simp only [processClear, EngineState.clearFromCluster, EngineState.clearRootCause, hmapped]
    unfold removeFromActive ClusterData.remove
    by_cases hkey : key = clusterId
    · subst hkey
      cases hactive : st.activeClusters[key]? with
      | none => simp [hactive]
      | some cluster =>
        dsimp only
        split_ifs <;> simp_all
    · have hother : ¬ some clusterId = some key := fun heq => hkey (Option.some.inj heq).symm
      simp only [if_neg hother, Option.bind_fun_some]
      split
      · rfl
      · split_ifs <;>
          simp [Std.ExtTreeMap.getElem?_erase, Std.ExtTreeMap.getElem?_insert, Ne.symm hkey]

variable {config st faultCode}

/-- A pending cluster after a clear is one from before, or the cleared code's own one without
that code. -/
theorem pending_of_processClear {ruleId : Str} {after : PendingCluster}
    (h : (processClear config st faultCode).1.pendingClusters[ruleId]? = some after) :
    ∃ before, st.pendingClusters[ruleId]? = some before ∧
      ((st.faultToCluster[faultCode]? ≠ some before.data.clusterId ∧ after = before) ∨
        (st.faultToCluster[faultCode]? = some before.data.clusterId ∧
          before.remove config ruleId faultCode = some after)) := by
  rw [processClear_pendingClusters] at h
  obtain ⟨before, hbefore, hafter⟩ := Option.bind_eq_some_iff.mp h
  refine ⟨before, hbefore, ?_⟩
  split_ifs at hafter with hid
  · exact .inr ⟨hid, hafter⟩
  · exact .inl ⟨hid, (Option.some.inj hafter).symm⟩

theorem active_of_processClear {key : Str} {after : ClusterData}
    (h : (processClear config st faultCode).1.activeClusters[key]? = some after) :
    ∃ before, st.activeClusters[key]? = some before ∧
      ((st.faultToCluster[faultCode]? ≠ some key ∧ after = before) ∨
        (st.faultToCluster[faultCode]? = some key ∧
          RemovedCode (processClear config st faultCode).1.pendingClusters key faultCode before
            after)) := by
  rw [processClear_activeClusters] at h
  obtain ⟨before, hbefore, hafter⟩ := Option.bind_eq_some_iff.mp h
  refine ⟨before, hbefore, ?_⟩
  split_ifs at hafter with hid
  · exact .inr ⟨hid, removedCode_of_remove _ hafter⟩
  · exact .inl ⟨hid, (Option.some.inj hafter).symm⟩

end ProcessClear

/-! ## Expiry -/

theorem mem_forgottenCodes {now : Int} {code : Str} (h : code ∈ st.forgottenCodes config now) :
    ∃ ruleId pending, st.pendingClusters[ruleId]? = some pending ∧
      pendingExpired config now ruleId pending = true ∧ code ∈ pending.data.faultCodes := by
  obtain ⟨⟨ruleId, pending⟩, hentry, hcode⟩ := List.mem_flatMap.mp h
  obtain ⟨hmem, hexpired⟩ := List.mem_filter.mp hentry
  refine ⟨ruleId, pending, Std.ExtTreeMap.mem_toList_iff_getElem?_eq_some.mp hmem, hexpired, ?_⟩
  dsimp only at hcode
  split_ifs at hcode
  · cases hcode
  · exact hcode

theorem cleanupExpired_pendingClusters {now : Int} {ruleId : Str} {pending : PendingCluster} :
    (cleanupExpired config st now).pendingClusters[ruleId]? = some pending ↔
      st.pendingClusters[ruleId]? = some pending ∧
        pendingExpired config now ruleId pending = false := by
  simp only [cleanupExpired, OMap.getElem?_keep, Option.filter_eq_some_iff, Bool.not_eq_true']

end Medkit.Correlation
