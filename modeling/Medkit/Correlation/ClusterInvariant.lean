import Medkit.Correlation.EngineSteps

/-! The bookkeeping of clusters in every reachable state. The pending clusters of
different rules have no member in common, because a code only ever joins the
cluster of the first rule it matches; that is what keeps the single entry per
code in `faultToCluster` right for pending clusters. Active clusters outlive
their pending ones and have no such guarantee. -/
namespace Medkit.Correlation

open Lib

variable {config : EngineConfig} {st : EngineState} {report : FaultReport}

/-! ## Cluster ids -/

theorem generateClusterId_inj {ruleId ruleId' : Str} {n k : Nat}
    (h : generateClusterId ruleId n = generateClusterId ruleId' k) : ruleId = ruleId' ∧ n = k := by
  have hsep : str "_" = [95] := by decide
  unfold generateClusterId at h
  rw [hsep, List.append_assoc, List.append_assoc] at h
  exact append_decimal_inj (c := 95) (by decide) h

def Issued (counter : Nat) (ruleId clusterId : Str) : Prop :=
  ∃ n ≤ counter, clusterId = generateClusterId ruleId n

theorem Issued.mono {counter counter' : Nat} {ruleId clusterId : Str}
    (h : Issued counter ruleId clusterId) (hle : counter ≤ counter') :
    Issued counter' ruleId clusterId := by
  obtain ⟨n, hn, hid⟩ := h
  exact ⟨n, hn.trans hle, hid⟩

theorem Issued.rule_unique {counter counter' : Nat} {ruleId ruleId' clusterId : Str}
    (h : Issued counter ruleId clusterId) (h' : Issued counter' ruleId' clusterId) :
    ruleId = ruleId' := by
  obtain ⟨n, -, rfl⟩ := h
  obtain ⟨k, -, hid⟩ := h'
  exact (generateClusterId_inj hid).1

theorem Issued.ne_next {counter : Nat} {ruleId ruleId' clusterId : Str}
    (h : Issued counter ruleId clusterId) :
    clusterId ≠ generateClusterId ruleId' (counter + 1) := by
  obtain ⟨n, hn, rfl⟩ := h
  intro heq
  have := (generateClusterId_inj heq).2
  omega

/-! ## The invariant -/

structure PendingOk (config : EngineConfig) (counter : Nat) (mapping : OMap Str Str)
    (ruleId : Str) (pending : PendingCluster) : Prop where
  nodup : pending.data.faultCodes.Nodup
  representative : pending.data.representativeCode ∈ pending.data.faultCodes
  ruleId_eq : pending.data.ruleId = ruleId
  issued : Issued counter ruleId pending.data.clusterId
  matched : ∀ code ∈ pending.data.faultCodes,
    ∃ rule, clusterRule config code = some rule ∧ rule.id = ruleId
  mapped : ∀ code ∈ pending.data.faultCodes, mapping[code]? = some pending.data.clusterId

structure ActiveOk (counter : Nat) (clusterId : Str) (cluster : ClusterData) : Prop where
  nodup : cluster.faultCodes.Nodup
  nonempty : cluster.faultCodes ≠ []
  clusterId_eq : cluster.clusterId = clusterId
  issued : Issued counter cluster.ruleId clusterId

structure ClusterInvariant (config : EngineConfig) (st : EngineState) : Prop where
  pending : ∀ ruleId pending, st.pendingClusters[ruleId]? = some pending →
    PendingOk config st.clusterCounter st.faultToCluster ruleId pending
  active : ∀ clusterId cluster, st.activeClusters[clusterId]? = some cluster →
    ActiveOk st.clusterCounter clusterId cluster
  /-- While a cluster is both pending and active, the active copy lags behind. -/
  copied : ∀ (cluster : ClusterData) (ruleId : Str) (source : PendingCluster),
    st.pendingClusters[ruleId]? = some source →
    st.activeClusters[source.data.clusterId]? = some cluster →
    cluster.faultCodes ⊆ source.data.faultCodes

namespace PendingOk

variable {counter counter' : Nat} {mapping mapping' : OMap Str Str} {ruleId : Str}
  {pending : PendingCluster}

section

variable (h : PendingOk config counter mapping ruleId pending)

include h

theorem rule : ∃ rule ∈ config.rules, rule.id = ruleId := by
  obtain ⟨rule, hrule, hid⟩ := h.matched _ h.representative
  exact ⟨rule, clusterRule_mem hrule, hid⟩

theorem notMem_of_rule_ne {code : Str} {rule : CorrelationRule}
    (hrule : clusterRule config code = some rule) (hne : rule.id ≠ ruleId) :
    code ∉ pending.data.faultCodes := by
  intro hmem
  obtain ⟨rule', hrule', hid⟩ := h.matched code hmem
  rw [hrule] at hrule'
  cases hrule'
  exact hne hid

theorem remap (hle : counter ≤ counter')
    (hmap : ∀ code ∈ pending.data.faultCodes, mapping'[code]? = mapping[code]?) :
    PendingOk config counter' mapping' ruleId pending where
  nodup := h.nodup
  representative := h.representative
  ruleId_eq := h.ruleId_eq
  issued := h.issued.mono hle
  matched := h.matched
  mapped := fun code hcode => (hmap code hcode).trans (h.mapped code hcode)

end

theorem join {rule : CorrelationRule} (h : PendingOk config counter mapping rule.id pending)
    (hrule : clusterRule config report.faultCode = some rule)
    (hnew : report.faultCode ∉ pending.data.faultCodes) :
    PendingOk config counter (mapping.insert report.faultCode pending.data.clusterId) rule.id
      (pending.join rule report) where
  nodup := by
    rw [join_faultCodes, List.nodup_append]
    exact ⟨h.nodup, List.nodup_singleton _, by
      intro a ha b hb hab
      rw [List.mem_singleton] at hb
      exact hnew (hb ▸ hab ▸ ha)⟩
  representative := by
    rw [join_faultCodes, List.mem_append]
    unfold PendingCluster.join
    dsimp only
    split_ifs
    · exact .inr List.mem_cons_self
    · exact .inl h.representative
  ruleId_eq := h.ruleId_eq
  issued := h.issued
  matched := by
    intro code hcode
    rw [join_faultCodes, List.mem_append, List.mem_singleton] at hcode
    rcases hcode with hcode | rfl
    · exact h.matched code hcode
    · exact ⟨rule, hrule, rfl⟩
  mapped := by
    intro code hcode
    rw [join_faultCodes, List.mem_append, List.mem_singleton] at hcode
    rw [Std.ExtTreeMap.getElem?_insert, join_clusterId]
    rcases hcode with hcode | rfl
    · have hne : report.faultCode ≠ code := fun heq => hnew (heq ▸ hcode)
      simp [hne, h.mapped code hcode]
    · simp

theorem remove {after : PendingCluster} {faultCode : Str} {mapping' : OMap Str Str}
    (h : PendingOk config counter mapping ruleId pending)
    (hafter : pending.remove config ruleId faultCode = some after)
    (hmapping : ∀ code, code ≠ faultCode → mapping'[code]? = mapping[code]?) :
    PendingOk config counter mapping' ruleId after := by
  have hremoved := remove_eq_some hafter
  have hmem (code : Str) (hcode : code ∈ after.data.faultCodes) :
      code ∈ pending.data.faultCodes ∧ code ≠ faultCode := by
    simpa [hremoved.faultCodes] using hcode
  exact
    { nodup := by
        rw [hremoved.faultCodes]
        exact h.nodup.filter _
      representative := by
        obtain ⟨rule, hrule, rfl⟩ := h.rule
        exact hremoved.representative_mem hrule h.representative
      ruleId_eq := hremoved.ruleId_eq.trans h.ruleId_eq
      issued := by
        rw [hremoved.clusterId]
        exact h.issued
      matched := fun code hcode => h.matched code (hmem code hcode).1
      mapped := by
        intro code hcode
        rw [hmapping code (hmem code hcode).2, hremoved.clusterId]
        exact h.mapped code (hmem code hcode).1 }

end PendingOk

theorem pendingOk_newCluster {counter : Nat} {mapping : OMap Str Str} {rule : CorrelationRule}
    (hrule : clusterRule config report.faultCode = some rule) :
    PendingOk config (counter + 1)
      (mapping.insert report.faultCode (generateClusterId rule.id (counter + 1))) rule.id
      (newCluster rule (generateClusterId rule.id (counter + 1)) report) where
  nodup := List.nodup_singleton _
  representative := List.mem_cons_self
  ruleId_eq := rfl
  issued := ⟨counter + 1, le_rfl, rfl⟩
  matched := by
    intro code hcode
    rw [newCluster, List.mem_singleton] at hcode
    exact ⟨rule, hcode ▸ hrule, rfl⟩
  mapped := by
    intro code hcode
    rw [newCluster, List.mem_singleton] at hcode
    simp [hcode, newCluster]

namespace ClusterInvariant

section

variable (h : ClusterInvariant config st)

include h

theorem congr {st' : EngineState} (hpending : st'.pendingClusters = st.pendingClusters)
    (hactive : st'.activeClusters = st.activeClusters)
    (hmapping : st'.faultToCluster = st.faultToCluster)
    (hcounter : st'.clusterCounter = st.clusterCounter) : ClusterInvariant config st' where
  pending := by
    rw [hpending, hmapping, hcounter]
    exact h.pending
  active := by
    rw [hactive, hcounter]
    exact h.active
  copied := by
    rw [hpending, hactive]
    exact h.copied

/-- Only the rule's own pending cluster can contain the reported code, so filing
that cluster and remapping the code disturbs no other one. -/
theorem file {rule : CorrelationRule} {pending : PendingCluster} {counter : Nat} {clusterId : Str}
    (hrule : clusterRule config report.faultCode = some rule) (hle : st.clusterCounter ≤ counter)
    (hok : PendingOk config counter (st.faultToCluster.insert report.faultCode clusterId) rule.id
      pending) (hcopied : ∀ cluster, st.activeClusters[pending.data.clusterId]? = some cluster →
      cluster.faultCodes ⊆ pending.data.faultCodes) : ClusterInvariant config { st with
      clusterCounter := counter
      pendingClusters := st.pendingClusters.insert rule.id pending
      faultToCluster := st.faultToCluster.insert report.faultCode clusterId } where
  pending := by
    intro ruleId other hother
    rw [Std.ExtTreeMap.getElem?_insert] at hother
    split_ifs at hother with hid
    · cases hother
      obtain rfl : rule.id = ruleId := by simpa using hid
      exact hok
    · have hne : rule.id ≠ ruleId := by simpa using hid
      have hold := h.pending ruleId other hother
      apply hold.remap hle
      intro code hcode
      have hcode' : report.faultCode ≠ code := by
        intro heq
        exact hold.notMem_of_rule_ne hrule hne (heq ▸ hcode)
      simp [Std.ExtTreeMap.getElem?_insert, hcode']
  active := by
    intro key cluster hcluster
    have hold := h.active key cluster hcluster
    exact ⟨hold.nodup, hold.nonempty, hold.clusterId_eq, hold.issued.mono hle⟩
  copied := by
    intro cluster ruleId source hsource hcluster
    rw [Std.ExtTreeMap.getElem?_insert] at hsource
    split_ifs at hsource with hid
    · cases hsource
      exact hcopied cluster hcluster
    · exact h.copied cluster ruleId source hsource hcluster

theorem activate {ruleId : Str} {pending : PendingCluster}
    (hpending : st.pendingClusters[ruleId]? = some pending) : ClusterInvariant config { st with
      activeClusters := st.activeClusters.insert pending.data.clusterId pending.data } where
  pending := h.pending
  active := by
    intro key cluster hcluster
    rw [Std.ExtTreeMap.getElem?_insert] at hcluster
    split_ifs at hcluster with hkey
    · cases hcluster
      have hok := h.pending ruleId pending hpending
      obtain rfl : pending.data.clusterId = key := by simpa using hkey
      exact ⟨hok.nodup, List.ne_nil_of_mem hok.representative, rfl, by
        rw [hok.ruleId_eq]
        exact hok.issued⟩
    · exact h.active key cluster hcluster
  copied := by
    intro cluster otherId source hsource hcluster
    rw [Std.ExtTreeMap.getElem?_insert] at hcluster
    split_ifs at hcluster with hkey
    · cases hcluster
      -- an id determines its rule, so the source is the activated cluster itself
      have hissued := (h.pending otherId source hsource).issued
      have hid : pending.data.clusterId = source.data.clusterId := by simpa using hkey
      rw [← hid] at hissued
      have hrule := (h.pending ruleId pending hpending).issued.rule_unique hissued
      rw [← hrule, hpending] at hsource
      cases hsource
      exact fun _ hcode => hcode
    · exact h.copied cluster otherId source hsource hcluster

theorem outcome {st' : EngineState} {result : ProcessFaultResult}
    (hout : FaultOutcome config st report st' result) : ClusterInvariant config st' := by
  cases hout with
  | symptom hfound => exact h.congr rfl rfl rfl rfl
  | rootCause hnone hrule => exact h.congr rfl rfl rfl rfl
  | started hfree hrule hclosed =>
    apply h.file hrule (Nat.le_succ _) (pendingOk_newCluster hrule)
    intro cluster hcluster
    exact absurd rfl (h.active _ cluster hcluster).issued.ne_next
  | repeated hfree hrule hopen hmem => exact h
  | joined hfree hrule hopen hmem hbelow | activated hfree hrule hopen hmem hreached =>
    have hpending := openCluster_eq_some hopen
    have hfiled := h.file hrule le_rfl ((h.pending _ _ hpending).join hrule hmem) (by
      intro cluster hcluster code hcode
      exact List.mem_append_left _ (h.copied cluster _ _ hpending hcluster hcode))
    first | exact hfiled | exact hfiled.activate Std.ExtTreeMap.getElem?_insert_self
  | uncorrelated hfree => exact h

theorem processFault (report : FaultReport) :
    ClusterInvariant config (processFault config st report).1 := by
  have hlive : ClusterInvariant config (st.dropExpiredRootCauses report.now) :=
    h.congr rfl rfl rfl rfl
  exact hlive.outcome (processFault_outcome config st report)

end

theorem processClear (h : ClusterInvariant config st) (faultCode : Str) :
    ClusterInvariant config (processClear config st faultCode).1 where
  pending := by
    intro ruleId after hafter
    rw [processClear_clusterCounter]
    obtain ⟨before, hbefore, ⟨hother, rfl⟩ | ⟨-, hremove⟩⟩ := pending_of_processClear hafter
    · have hok := h.pending ruleId after hbefore
      apply hok.remap le_rfl
      intro code hcode
      have hne : code ≠ faultCode := by
        rintro rfl
        exact hother (hok.mapped code hcode)
      rw [processClear_faultToCluster, if_neg hne]
    · exact (h.pending ruleId before hbefore).remove hremove fun code hne => by
        rw [processClear_faultToCluster, if_neg hne]
  active := by
    intro key after hafter
    rw [processClear_clusterCounter]
    obtain ⟨before, hbefore, ⟨-, rfl⟩ | ⟨-, hremoved⟩⟩ := active_of_processClear hafter
    · exact h.active key after hbefore
    · have hok := h.active key before hbefore
      exact ⟨hremoved.faultCodes ▸ hok.nodup.filter _, hremoved.nonempty,
        hremoved.clusterId_eq.trans hok.clusterId_eq, hremoved.ruleId ▸ hok.issued⟩
  copied := by
    intro cluster ruleId after hafter hcluster
    obtain ⟨copy, hcopy, hcluster⟩ := active_of_processClear hcluster
    obtain ⟨before, hbefore, ⟨hother, rfl⟩ | ⟨hown, hremove⟩⟩ := pending_of_processClear hafter
    · rw [(hcluster.resolve_right fun hremoved => hother hremoved.1).2]
      exact h.copied copy ruleId after hbefore hcopy
    · have hremoved := remove_eq_some hremove
      rw [hremoved.clusterId] at hcopy hcluster
      rw [(hcluster.resolve_left fun hkept => hkept.1 hown).2.faultCodes, hremoved.faultCodes]
      exact List.filter_subset _ (h.copied copy ruleId before hbefore hcopy)

theorem cleanupExpired (h : ClusterInvariant config st) (now : Int) :
    ClusterInvariant config (cleanupExpired config st now) where
  pending := by
    intro ruleId pending hpending
    obtain ⟨hbefore, hlive⟩ := cleanupExpired_pendingClusters.mp hpending
    have hok := h.pending ruleId pending hbefore
    apply hok.remap le_rfl
    intro code hcode
    have hkept : code ∉ st.forgottenCodes config now := by
      intro hforgotten
      obtain ⟨otherId, other, hother, hexpired, hmem⟩ := mem_forgottenCodes hforgotten
      obtain ⟨rule, hrule, rfl⟩ := (h.pending otherId other hother).matched code hmem
      -- both clusters would be filed under the one rule the code matches
      by_cases hid : rule.id = ruleId
      · rw [hid, hbefore] at hother
        cases hother
        rw [hid, hlive] at hexpired
        cases hexpired
      · exact hok.notMem_of_rule_ne hrule hid hcode
    exact (OMap.getElem?_eraseAll _ _ _).trans (if_neg hkept)
  active := h.active
  copied := fun cluster ruleId source hsource =>
    h.copied cluster ruleId source (cleanupExpired_pendingClusters.mp hsource).1

theorem step (h : ClusterInvariant config st) (call : EngineCall) :
    ClusterInvariant config (engineStep config st call).1 := by
  cases call with
  | processFault report => exact h.processFault report
  | processClear faultCode => exact h.processClear faultCode
  | cleanupExpired now => exact h.cleanupExpired now

theorem init : ClusterInvariant config {} where
  pending := by simp
  active := by simp
  copied := by simp

end ClusterInvariant

theorem clusterInvariant_of_reachable (hst : (engine config).Reachable st) :
    ClusterInvariant config st :=
  hst.invariant _ ClusterInvariant.init fun _ call h => h.step call

/-- However the engine got here, the id of its next cluster is not that of an active one. -/
theorem next_cluster_id_unused (config : EngineConfig) (calls : List EngineCall) (ruleId : Str) :
    let st := (engine config).exec (engine config).init calls
    st.activeClusters[generateClusterId ruleId (st.clusterCounter + 1)]? = none := by
  intro st
  apply Option.eq_none_iff_forall_ne_some.mpr
  intro cluster hcluster
  have hinv := clusterInvariant_of_reachable ((engine config).reachable_exec calls)
  exact (hinv.active _ cluster hcluster).issued.ne_next rfl

end Medkit.Correlation
