import Medkit.Correlation.ClusterInvariant

/-! Which members of an active cluster the caller has been told to mute. Members
are handed out when they join an active cluster and, all at once, when a cluster
is activated for the first time; a representative that is displaced later and a
member that joined while the cluster had shrunk below its threshold are not. -/
namespace Medkit.Correlation

open Lib

variable {config : EngineConfig} {st : EngineState} {report : FaultReport}

/-! ## Joining and being handed out -/

def asJoin (config : EngineConfig) (st : EngineState) (report : FaultReport) :
    Option (CorrelationRule × PendingCluster) :=
  let live := st.dropExpiredRootCauses report.now
  if (findRootCause config live.pendingRootCauses report).isSome ||
      (rootCauseRule config report.faultCode).isSome then none
  else
    match clusterRule config report.faultCode with
    | none => none
    | some rule =>
        match live.openCluster rule report.timestamp with
        | none => none
        | some pending =>
            if report.faultCode ∈ pending.data.faultCodes then none else some (rule, pending)

/-- A report that joins a cluster which is active already and reaches the
threshold finds the other members already muted: apart from the representative it
leaves in place, each is an ordinary member of the active copy. -/
def KeepsHanded (config : EngineConfig) (st : EngineState) : EngineCall → Prop
  | .processFault report =>
      ∀ target ∈ asJoin config st report, target.1.showAsSingle = true →
        target.1.minCount ≤ target.2.data.faultCodes.length + 1 →
        ∀ cluster ∈ st.activeClusters[target.2.data.clusterId]?,
          ∀ code ∈ target.2.data.faultCodes,
            code ≠ (target.2.join target.1 report).data.representativeCode →
            code ∈ cluster.faultCodes ∧ code ≠ cluster.representativeCode
  | .processClear _ => True
  | .cleanupExpired _ => True

instance (config : EngineConfig) (st : EngineState) (call : EngineCall) :
    Decidable (KeepsHanded config st call) :=
  match call with
  | .processFault _ => inferInstanceAs (Decidable (∀ target ∈ _, _ → _ → ∀ cluster ∈ _, _))
  | .processClear _ => inferInstanceAs (Decidable True)
  | .cleanupExpired _ => inferInstanceAs (Decidable True)

def EngineState.PendingMember (st : EngineState) (clusterId code : Str) : Prop :=
  ∃ pending ∈ st.pendingClusters.toList.map Prod.snd,
    pending.data.clusterId = clusterId ∧ code ∈ pending.data.faultCodes
deriving Decidable

/-- The report put the code into the cluster: its result names the cluster, and
the code was no member before. -/
def Joins (before : EngineState) (clusterId code : Str) (report : FaultReport)
    (result : ProcessFaultResult) : Prop :=
  report.faultCode = code ∧ result.clusterId = clusterId ∧ ¬ before.PendingMember clusterId code
deriving Decidable

/-- Since the code last joined the cluster, a report of it was answered with
`should_mute` or some result listed it for muting; the newest event comes first. -/
def HandedSince (clusterId code : Str) : List EngineEvent → Prop
  | [] => False
  | event :: history =>
      match event.op, event.out with
      | .processFault report, .fault result =>
          (report.faultCode = code ∧ result.shouldMute = true) ∨
            code ∈ result.retroactiveMuteCodes ∨
            (¬ Joins event.before clusterId code report result ∧
              HandedSince clusterId code history)
      | _, _ => HandedSince clusterId code history

instance HandedSince.decidable (clusterId code : Str) :
    (history : List EngineEvent) → Decidable (HandedSince clusterId code history)
  | [] => inferInstanceAs (Decidable False)
  | ⟨_, .processFault _, .fault _⟩ :: history =>
      have := HandedSince.decidable clusterId code history
      inferInstanceAs (Decidable ((_ ∧ _) ∨ _ ∨ (_ ∧ HandedSince clusterId code history)))
  | ⟨_, .processFault _, .clear _⟩ :: history => HandedSince.decidable clusterId code history
  | ⟨_, .processFault _, .done⟩ :: history => HandedSince.decidable clusterId code history
  | ⟨_, .processClear _, _⟩ :: history => HandedSince.decidable clusterId code history
  | ⟨_, .cleanupExpired _, _⟩ :: history => HandedSince.decidable clusterId code history

theorem pendingMember_of_getElem? {ruleId code : Str} {pending : PendingCluster}
    (hpending : st.pendingClusters[ruleId]? = some pending)
    (hcode : code ∈ pending.data.faultCodes) :
    st.PendingMember pending.data.clusterId code :=
  ⟨pending, OMap.mem_values.mpr ⟨ruleId, hpending⟩, rfl, hcode⟩

theorem asJoin_of_outcome {rule : CorrelationRule} {pending : PendingCluster}
    (hfree : Unclaimed config (st.dropExpiredRootCauses report.now) report)
    (hrule : clusterRule config report.faultCode = some rule)
    (hopen : (st.dropExpiredRootCauses report.now).openCluster rule report.timestamp = some pending)
    (hmem : report.faultCode ∉ pending.data.faultCodes) :
    asJoin config st report = some (rule, pending) := by
  unfold asJoin
  simp [hfree.1, hfree.2, hrule, hopen, hmem]

theorem Issued.ne_nil {counter : Nat} {ruleId clusterId : Str}
    (h : Issued counter ruleId clusterId) : clusterId ≠ [] := by
  obtain ⟨n, -, rfl⟩ := h
  simp [generateClusterId, decimal_ne_nil]

variable {after : EngineState} {result : ProcessFaultResult} {history : List EngineEvent}

/-- A member of an active cluster does not join it once more: while the cluster is
pending the member is in it, and afterwards its id is never used again. -/
theorem ClusterInvariant.not_joins_of_active {clusterId code : Str} {cluster : ClusterData}
    (h : ClusterInvariant config st) (hout : FaultOutcome config st report after result)
    (hactive : st.activeClusters[clusterId]? = some cluster) (hcode : code ∈ cluster.faultCodes) :
    ¬ Joins st clusterId code report result := by
  rintro ⟨-, hid, hfresh⟩
  have hissued := (h.active clusterId cluster hactive).issued
  have hmember {ruleId : Str} {pending : PendingCluster}
      (hpending : st.pendingClusters[ruleId]? = some pending)
      (heq : pending.data.clusterId = clusterId) : False := by
    subst heq
    exact hfresh (pendingMember_of_getElem? hpending
      (h.copied cluster ruleId pending hpending hactive hcode))
  cases hout with
  | symptom | rootCause | uncorrelated => exact hissued.ne_nil hid.symm
  | started => exact hissued.ne_next hid.symm
  | repeated hfree hrule hopen => exact hmember (openCluster_eq_some hopen) hid
  | joined hfree hrule hopen => exact hmember (openCluster_eq_some hopen) hid
  | activated hfree hrule hopen => exact hmember (openCluster_eq_some hopen) hid

/-! ## Whole runs -/

def ShownAsSingle (config : EngineConfig) (cluster : ClusterData) : Prop :=
  ∃ rule ∈ config.rules, rule.id = cluster.ruleId ∧ rule.showAsSingle = true

def Handed (config : EngineConfig) (history : List EngineEvent) (st : EngineState) : Prop :=
  ∀ (clusterId : Str) (cluster : ClusterData), st.activeClusters[clusterId]? = some cluster →
    ShownAsSingle config cluster → ∀ code ∈ cluster.faultCodes,
      code ≠ cluster.representativeCode → HandedSince clusterId code history

theorem Handed.of_report (h : Handed config history st) (hclusters : ClusterInvariant config st)
    (hout : FaultOutcome config (st.dropExpiredRootCauses report.now) report after result) :
    Handed config (⟨st, .processFault report, .fault result⟩ :: history) st := by
  intro clusterId cluster hactive hsingle code hcode hne
  have hlive : ClusterInvariant config (st.dropExpiredRootCauses report.now) :=
    hclusters.congr rfl rfl rfl rfl
  exact .inr (.inr ⟨hlive.not_joins_of_active hout hactive hcode,
    h clusterId cluster hactive hsingle code hcode hne⟩)

theorem Handed.outcome (h : Handed config history st) (hclusters : ClusterInvariant config st)
    (hkeeps : KeepsHanded config st (.processFault report))
    (hout : FaultOutcome config (st.dropExpiredRootCauses report.now) report after result) :
    Handed config (⟨st, .processFault report, .fault result⟩ :: history) after := by
  have hbefore := h.of_report hclusters hout
  cases hout with
  | symptom | rootCause | started | repeated | joined | uncorrelated => exact hbefore
  | @activated rule pending hfree hrule hopen hmem hreached =>
    have hok := hclusters.pending rule.id pending (openCluster_eq_some hopen)
    intro clusterId cluster hactive hsingle code hcode hne
    rw [Std.ExtTreeMap.getElem?_insert] at hactive
    split_ifs at hactive with hid
    · cases hactive
      obtain rfl : pending.data.clusterId = clusterId := by simpa using hid
      have hshown : rule.showAsSingle = true := by
        obtain ⟨other, hother, hotherId, hshown⟩ := hsingle
        rw [join_ruleId, hok.ruleId_eq] at hotherId
        rwa [config.rule_ext (clusterRule_mem hrule) hother hotherId.symm]
      rw [join_faultCodes, List.mem_append, List.mem_singleton] at hcode
      rcases hcode with hcode | rfl
      · cases hcopy : st.activeClusters[pending.data.clusterId]? with
        | none =>
          -- first activation: everything but the representative is listed
          refine .inr (.inl ?_)
          have hnew : (st.dropExpiredRootCauses report.now).activeClusters.contains
              pending.data.clusterId = false := by
            rw [Std.ExtTreeMap.contains_eq_isSome_getElem?]
            exact congrArg Option.isSome hcopy
          have hother : code ≠ report.faultCode := fun heq => hmem (heq ▸ hcode)
          simp [hnew, hshown, hcode, hne, hother]
        | some copy =>
          have htarget := asJoin_of_outcome hfree hrule hopen hmem
          obtain ⟨hlisted, hordinary⟩ :=
            hkeeps _ htarget hshown hreached copy hcopy code hcode hne
          have hcopyRule := (hclusters.active _ copy hcopy).issued.rule_unique hok.issued
          exact hbefore _ copy hcopy ⟨rule, clusterRule_mem hrule, hcopyRule.symm, hshown⟩
            code hlisted hordinary
      · exact .inl ⟨rfl, by simp [hshown, hne]⟩
    · exact hbefore clusterId cluster hactive hsingle code hcode hne

theorem Handed.processClear {faultCode : Str} {reply : EngineReply} (h : Handed config history st) :
    Handed config (⟨st, .processClear faultCode, reply⟩ :: history)
      (processClear config st faultCode).1 := by
  intro key after hafter hsingle code hcode hne
  obtain ⟨cluster, hcluster, ⟨-, rfl⟩ | ⟨-, hremoved⟩⟩ := active_of_processClear hafter
  · exact h key after hcluster hsingle code hcode hne
  have hleft : code ∈ cluster.faultCodes ∧ code ≠ faultCode := by
    simpa [hremoved.faultCodes] using hcode
  have hsingle' : ShownAsSingle config cluster := by
    rwa [ShownAsSingle, hremoved.ruleId] at hsingle
  refine h key cluster hcluster hsingle' code hleft.1 fun heq => ?_
  by_cases hrep : cluster.representativeCode = faultCode
  · exact hleft.2 (heq.trans hrep)
  · exact hne (heq.trans (hremoved.kept hrep).symm)

theorem handed_of_run (hrun : (engine config).Runs (KeepsHanded config) history st) :
    Handed config history st := by
  apply hrun.invariant (Handed config)
  · intro clusterId cluster hactive
    simp [engine] at hactive
  · intro history st call hst hkeeps h
    cases call with
    | processFault report =>
      exact h.outcome (clusterInvariant_of_reachable hst) hkeeps
        (processFault_outcome config st report)
    | processClear faultCode => exact h.processClear
    | cleanupExpired now => exact h

/-- Apart from its representative, every member of an active cluster shown as a
single fault has been handed to the caller for muting since it joined. -/
theorem cluster_members_handed (config : EngineConfig) (history : List EngineEvent)
    (st : EngineState) (hrun : (engine config).Runs (KeepsHanded config) history st)
    (rule : CorrelationRule) (hrule : rule ∈ config.rules) (hsingle : rule.showAsSingle = true)
    (cluster : ClusterData) (hcluster : cluster ∈ st.getClusters)
    (hid : cluster.ruleId = rule.id) (code : Str) (hcode : code ∈ cluster.faultCodes)
    (hne : code ≠ cluster.representativeCode) :
    HandedSince cluster.clusterId code history := by
  obtain ⟨clusterId, hactive⟩ := OMap.mem_values.mp hcluster
  have hok := (clusterInvariant_of_reachable hrun.reachable).active clusterId cluster hactive
  rw [hok.clusterId_eq]
  exact handed_of_run hrun clusterId cluster hactive ⟨rule, hrule, hid.symm, hsingle⟩ code hcode hne

def lateJoin : List EngineCall :=
  [errorAt "DRIVE_A" 0, errorAt "DRIVE_B" 10, errorAt "DRIVE_C" 20]

def lateJoinCluster : ClusterData where
  clusterId := str "burst_1"
  ruleId := str "burst"
  ruleName := str "Drive burst"
  label := str "Drive burst"
  representativeCode := str "DRIVE_A"
  representativeSeverity := str "ERROR"
  faultCodes := [str "DRIVE_A", str "DRIVE_B", str "DRIVE_C"]
  firstAt := 0
  lastAt := 20000000

theorem cluster_members_handed_of_late_join :
    lateJoinCluster ∈ ((engine stallConfig).exec {} lateJoin).getClusters ∧
      HandedSince (str "burst_1") (str "DRIVE_C") ((engine stallConfig).history [] {} lateJoin) :=
  ⟨by decide,
    cluster_members_handed stallConfig _ _
      (Machine.Runs.start.exec lateJoin
        (by exact ⟨by decide, by decide, by decide, trivial⟩))
      (stallConfig.rules.get ⟨1, by decide⟩) (List.get_mem _ _) (by decide) lateJoinCluster
      (by decide) (by decide) (str "DRIVE_C") (by decide)
      (by decide)⟩

def displacedRepresentative : List EngineCall :=
  [errorAt "DRIVE_A" 0, errorAt "DRIVE_B" 10,
    .processFault ⟨str "DRIVE_C", str "CRITICAL", 20000000, 20000000, 20000000⟩]

theorem displaced_representative_not_handed :
    ((engine stallConfig).exec {} displacedRepresentative).getClusters.map (fun cluster =>
        (cluster.clusterId, cluster.representativeCode, cluster.faultCodes)) =
      [(str "burst_1", str "DRIVE_C", [str "DRIVE_A", str "DRIVE_B", str "DRIVE_C"])] ∧
    (stallConfig.rules.get ⟨1, by decide⟩).showAsSingle = true ∧
    ¬ HandedSince (str "burst_1") (str "DRIVE_A")
      ((engine stallConfig).history [] {} displacedRepresentative) :=
  ⟨by decide, by decide, by decide⟩

end Medkit.Correlation
