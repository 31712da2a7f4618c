import Medkit.Correlation.ClusterInvariant

/-! The representative of a pending cluster. It is kept up to date by one piece of
code when a member joins and chosen afresh by another when it is cleared; both
arrive at the member the rule prescribes. -/
namespace Medkit.Correlation

open Lib

variable {config : EngineConfig} {st : EngineState} {report : FaultReport}

/-! ## What a rule prescribes -/

def recordedRank (severities : OMap Str Str) (code : Str) : Int :=
  match severities[code]? with
  | none => 0
  | some severity => severityRank severity

/-- The member that stands for the cluster, over the members in join order. -/
def Prescribed (representative : Representative) (codes : List Str) (severities : OMap Str Str)
    (code : Str) : Prop :=
  match representative with
  | .first => codes.head? = some code
  | .mostRecent => codes.getLast? = some code
  | .highestSeverity => ∃ earlier later, codes = earlier ++ code :: later ∧
      (∀ other ∈ earlier, recordedRank severities other < recordedRank severities code) ∧
      ∀ other ∈ later, recordedRank severities other ≤ recordedRank severities code

theorem severityRank_nonneg (severity : Str) : 0 ≤ severityRank severity := by
  unfold severityRank
  split_ifs <;> decide

theorem recordedRank_nonneg (severities : OMap Str Str) (code : Str) :
    0 ≤ recordedRank severities code := by
  unfold recordedRank
  split
  · exact le_rfl
  · exact severityRank_nonneg _

variable {severities : OMap Str Str} {code : Str} {representative : Representative}
  {codes : List Str}

theorem recordedRank_of_recorded {severity : Str} (h : severities[code]? = some severity) :
    recordedRank severities code = severityRank severity := by
  rw [recordedRank, h]

theorem Prescribed.mem (h : Prescribed representative codes severities code) : code ∈ codes := by
  cases representative with
  | first => exact List.mem_of_mem_head? h
  | mostRecent => exact List.mem_of_getLast? h
  | highestSeverity =>
    obtain ⟨earlier, later, rfl, -⟩ := h
    simp

theorem Prescribed.singleton (representative : Representative) (severities : OMap Str Str)
    (code : Str) : Prescribed representative [code] severities code := by
  cases representative with
  | first => rfl
  | mostRecent => rfl
  | highestSeverity => exact ⟨[], [], rfl, by simp, by simp⟩

theorem Prescribed.congr {severities' : OMap Str Str}
    (h : Prescribed representative codes severities code)
    (hsame : ∀ other ∈ codes, severities'[other]? = severities[other]?) :
    Prescribed representative codes severities' code := by
  cases representative with
  | first => exact h
  | mostRecent => exact h
  | highestSeverity =>
    obtain ⟨earlier, later, rfl, hearlier, hlater⟩ := h
    have hrank (other : Str) (hmem : other ∈ earlier ++ code :: later) :
        recordedRank severities' other = recordedRank severities other := by
      rw [recordedRank, recordedRank, hsame other hmem]
    refine ⟨earlier, later, rfl, fun other hother => ?_, fun other hother => ?_⟩ <;>
      rw [hrank other (by simp [hother]), hrank code (by simp)]
    exacts [hearlier other hother, hlater other hother]

theorem Prescribed.remove {cleared : Str} (h : Prescribed representative codes severities code)
    (hne : code ≠ cleared) :
    Prescribed representative (codes.filter (· ≠ cleared)) severities code := by
  cases representative with
  | first =>
    obtain ⟨rest, rfl⟩ := List.head?_eq_some_iff.mp h
    simp [Prescribed, hne]
  | mostRecent =>
    obtain ⟨front, rfl⟩ := List.getLast?_eq_some_iff.mp h
    simp [Prescribed, hne]
  | highestSeverity =>
    obtain ⟨earlier, later, rfl, hearlier, hlater⟩ := h
    exact ⟨earlier.filter (· ≠ cleared), later.filter (· ≠ cleared), by simp [hne],
      fun other hother => hearlier other (List.mem_filter.mp hother).1,
      fun other hother => hlater other (List.mem_filter.mp hother).1⟩

/-! ## Choosing afresh -/

theorem highestSeverity_cons (severities : OMap Str Str) (code : Str) (codes : List Str)
    (bestCode : Str) (bestRank : Int) :
    highestSeverity severities (code :: codes) bestCode bestRank =
      if recordedRank severities code > bestRank then
        highestSeverity severities codes code (recordedRank severities code)
      else highestSeverity severities codes bestCode bestRank := rfl

/-- The loop either keeps the code it starts with, which no member outranks, or
ends on the first member of the highest rank. -/
theorem highestSeverity_spec (severities : OMap Str Str) (codes : List Str) (bestCode : Str)
    (bestRank : Int) : (highestSeverity severities codes bestCode bestRank = bestCode ∧
        ∀ code ∈ codes, recordedRank severities code ≤ bestRank) ∨
      (bestRank < recordedRank severities (highestSeverity severities codes bestCode bestRank) ∧
        Prescribed .highestSeverity codes severities
          (highestSeverity severities codes bestCode bestRank)) := by
  induction codes generalizing bestCode bestRank with
  | nil => exact .inl ⟨rfl, by simp⟩
  | cons code codes ih =>
    rw [highestSeverity_cons]
    split_ifs with hrank
    · right
      rcases ih code (recordedRank severities code) with ⟨hkept, hle⟩ | ⟨hlt, hbest⟩
      · rw [hkept]
        exact ⟨hrank, [], codes, rfl, by simp, hle⟩
      · obtain ⟨earlier, later, hcodes, hearlier, hlater⟩ := hbest
        exact ⟨lt_trans hrank hlt, code :: earlier, later, by rw [List.cons_append, ← hcodes],
          List.forall_mem_cons.mpr ⟨hlt, hearlier⟩, hlater⟩
    · rcases ih bestCode bestRank with ⟨hkept, hle⟩ | ⟨hlt, hbest⟩
      · exact .inl ⟨hkept, List.forall_mem_cons.mpr ⟨not_lt.mp hrank, hle⟩⟩
      · right
        obtain ⟨earlier, later, hcodes, hearlier, hlater⟩ := hbest
        exact ⟨hlt, code :: earlier, later, by rw [List.cons_append, ← hcodes],
          List.forall_mem_cons.mpr ⟨lt_of_le_of_lt (not_lt.mp hrank) hlt, hearlier⟩, hlater⟩

theorem electRepresentative_prescribed (representative : Representative) (severities : OMap Str Str)
    (hcodes : codes ≠ []) : Prescribed representative codes severities
      (electRepresentative representative codes severities) := by
  obtain ⟨code, rest, rfl⟩ := List.exists_cons_of_ne_nil hcodes
  cases representative with
  | first => rfl
  | mostRecent =>
    change (code :: rest).getLast? = some ((code :: rest).getLastD [])
    rw [List.getLast?_eq_getLast_of_ne_nil hcodes, List.getLast_eq_getLastD, List.getLastD_cons]
  | highestSeverity =>
    rcases highestSeverity_spec severities (code :: rest) code (-1) with ⟨-, hle⟩ | ⟨-, hbest⟩
    · -- every rank is above the −1 the loop starts from
      have hrank := hle code List.mem_cons_self
      have hnonneg := recordedRank_nonneg severities code
      omega
    · exact hbest

/-! ## Keeping up with a join -/

theorem Prescribed.join {rule : CorrelationRule} {cluster : ClusterData} {faultCode severity : Str}
    (h : Prescribed rule.representative cluster.faultCodes severities cluster.representativeCode)
    (hrecorded : severities[cluster.representativeCode]? = some cluster.representativeSeverity)
    (hnew : faultCode ∉ cluster.faultCodes) :
    Prescribed rule.representative (cluster.faultCodes ++ [faultCode])
      (severities.insert faultCode severity)
      (if updatesRepresentative rule cluster severity then faultCode
        else cluster.representativeCode) := by
  have hold : ∀ other ∈ cluster.faultCodes,
      (severities.insert faultCode severity)[other]? = severities[other]? := by
    intro other hother
    have hne : faultCode ≠ other := fun heq => hnew (heq ▸ hother)
    simp [Std.ExtTreeMap.getElem?_insert, hne]
  have hrank : recordedRank (severities.insert faultCode severity) faultCode =
      severityRank severity := recordedRank_of_recorded Std.ExtTreeMap.getElem?_insert_self
  have hkept := h.congr hold
  unfold updatesRepresentative
  cases hrep : rule.representative with
  | first =>
    rw [hrep] at h
    obtain ⟨rest, hcodes⟩ := List.head?_eq_some_iff.mp h
    simp [Prescribed, hcodes]
  | mostRecent => simp [Prescribed]
  | highestSeverity =>
    rw [hrep] at hkept
    have hbest : recordedRank (severities.insert faultCode severity) cluster.representativeCode =
        severityRank cluster.representativeSeverity := by
      apply recordedRank_of_recorded
      rw [hold _ (Prescribed.mem hkept)]
      exact hrecorded
    obtain ⟨earlier, later, hcodes, hearlier, hlater⟩ := hkept
    simp only [decide_eq_true_eq]
    split_ifs with hhigher
    · refine ⟨cluster.faultCodes, [], rfl, ?_, by simp⟩
      intro other hother
      rw [hrank]
      apply lt_of_le_of_lt _ hhigher
      rw [← hbest]
      rw [hcodes, List.mem_append, List.mem_cons] at hother
      rcases hother with hother | rfl | hother
      · exact (hearlier other hother).le
      · exact le_rfl
      · exact hlater other hother
    · refine ⟨earlier, later ++ [faultCode], by rw [hcodes]; simp, hearlier, ?_⟩
      intro other hother
      rcases List.mem_append.mp hother with hother | hother
      · exact hlater other hother
      · obtain rfl := List.mem_singleton.mp hother
        rw [hrank, hbest]
        exact not_lt.mp hhigher

/-! ## The invariant -/

structure WellRepresented (config : EngineConfig) (ruleId : Str) (pending : PendingCluster) : Prop where
  recorded : ∀ code ∈ pending.data.faultCodes,
    ∃ severity, pending.faultSeverities[code]? = some severity
  prescribed : ∀ rule ∈ config.rules, rule.id = ruleId →
    Prescribed rule.representative pending.data.faultCodes pending.faultSeverities
      pending.data.representativeCode
  severity : pending.faultSeverities[pending.data.representativeCode]? =
    some pending.data.representativeSeverity

namespace WellRepresented

variable {ruleId : Str} {pending : PendingCluster}

theorem newCluster (config : EngineConfig) (rule : CorrelationRule) (clusterId : Str)
    (report : FaultReport) : WellRepresented config rule.id (newCluster rule clusterId report) where
  recorded := by
    intro code hcode
    obtain rfl := List.mem_singleton.mp hcode
    exact ⟨report.severity, by simp [Correlation.newCluster]⟩
  prescribed := fun rule' _ _ => Prescribed.singleton _ _ _
  severity := by simp [Correlation.newCluster]

theorem join {rule : CorrelationRule} (h : WellRepresented config rule.id pending)
    (hrule : rule ∈ config.rules) (hnew : report.faultCode ∉ pending.data.faultCodes) :
    WellRepresented config rule.id (pending.join rule report) where
  recorded := by
    intro code hcode
    rw [join_faultCodes, List.mem_append, List.mem_singleton] at hcode
    by_cases heq : report.faultCode = code
    · exact ⟨report.severity, by simp [PendingCluster.join, heq]⟩
    · obtain ⟨severity, hseverity⟩ := h.recorded code (hcode.resolve_right (Ne.symm heq))
      exact ⟨severity, by simp [PendingCluster.join, Std.ExtTreeMap.getElem?_insert, heq, hseverity]⟩
  prescribed := by
    intro rule' hrule' hid
    obtain rfl := config.rule_ext hrule' hrule hid
    exact (h.prescribed rule' hrule rfl).join h.severity hnew
  severity := by
    have hmem := (h.prescribed rule hrule rfl).mem
    have hne : report.faultCode ≠ pending.data.representativeCode := fun heq => hnew (heq ▸ hmem)
    unfold PendingCluster.join
    dsimp only
    split_ifs
    · exact Std.ExtTreeMap.getElem?_insert_self
    · simp [Std.ExtTreeMap.getElem?_insert, hne, h.severity]

theorem remove {rule : CorrelationRule} {after : PendingCluster} {faultCode : Str}
    (h : WellRepresented config rule.id pending) (hrule : rule ∈ config.rules)
    (hafter : pending.remove config rule.id faultCode = some after) :
    WellRepresented config rule.id after := by
  have hremoved := remove_eq_some hafter
  have hother (code : Str) (hne : code ≠ faultCode) :
      after.faultSeverities[code]? = pending.faultSeverities[code]? := by
    simp [hremoved.faultSeverities, Std.ExtTreeMap.getElem?_erase, hne.symm]
  have hrecorded : ∀ code ∈ after.data.faultCodes,
      ∃ severity, after.faultSeverities[code]? = some severity := by
    intro code hcode
    rw [hremoved.faultCodes] at hcode
    obtain ⟨hbefore, hne⟩ := List.mem_filter.mp hcode
    rw [hother code (by simpa using hne)]
    exact h.recorded code hbefore
  by_cases hrep : pending.data.representativeCode = faultCode
  · obtain ⟨hnew, hsynced⟩ := hremoved.elected rule hrule rfl hrep
    have hchosen := electRepresentative_prescribed rule.representative after.faultSeverities
      hremoved.nonempty
    rw [← hnew] at hchosen
    refine ⟨hrecorded, ?_, ?_⟩
    · intro rule' hrule' hid
      obtain rfl := config.rule_ext hrule' hrule hid
      exact hchosen
    · obtain ⟨severity, hseverity⟩ := hrecorded _ hchosen.mem
      rw [hsynced, hseverity]
      rfl
  · obtain ⟨hkept, hsame⟩ := hremoved.kept hrep
    refine ⟨hrecorded, ?_, ?_⟩
    · intro rule' hrule' hid
      rw [hkept, hremoved.faultCodes]
      apply Prescribed.congr ((h.prescribed rule' hrule' hid).remove hrep)
      intro other hmem
      exact hother other (by simpa using (List.mem_filter.mp hmem).2)
    · rw [hkept, hother _ hrep, h.severity, hsame]

end WellRepresented

def PendingRepresented (config : EngineConfig) (st : EngineState) : Prop :=
  ∀ (ruleId : Str) (pending : PendingCluster), st.pendingClusters[ruleId]? = some pending →
    WellRepresented config ruleId pending

namespace PendingRepresented

section

variable (h : PendingRepresented config st)

include h

theorem insert {rule : CorrelationRule} {pending : PendingCluster} {after : EngineState}
    (hpending : WellRepresented config rule.id pending)
    (hafter : after.pendingClusters = st.pendingClusters.insert rule.id pending) :
    PendingRepresented config after := by
  intro ruleId other hother
  rw [hafter, Std.ExtTreeMap.getElem?_insert] at hother
  split_ifs at hother with hid
  · cases hother
    obtain rfl : rule.id = ruleId := by simpa using hid
    exact hpending
  · exact h ruleId other hother

theorem outcome {after : EngineState} {result : ProcessFaultResult}
    (hout : FaultOutcome config st report after result) : PendingRepresented config after := by
  cases hout with
  | symptom | rootCause | repeated | uncorrelated => exact h
  | started hfree hrule hclosed => exact h.insert (WellRepresented.newCluster config _ _ report) rfl
  | joined hfree hrule hopen hmem hbelow | activated hfree hrule hopen hmem hreached =>
    have hbefore := h _ _ (openCluster_eq_some hopen)
    exact h.insert (hbefore.join (clusterRule_mem hrule) hmem) rfl

theorem processClear (hinv : ClusterInvariant config st) (faultCode : Str) :
    PendingRepresented config (processClear config st faultCode).1 := by
  intro ruleId after hafter
  obtain ⟨before, hbefore, ⟨-, rfl⟩ | ⟨-, hremove⟩⟩ := pending_of_processClear hafter
  · exact h ruleId after hbefore
  · obtain ⟨rule, hrule, rfl⟩ := (hinv.pending ruleId before hbefore).rule
    exact (h rule.id before hbefore).remove hrule hremove

theorem step (hinv : ClusterInvariant config st) (call : EngineCall) :
    PendingRepresented config (engineStep config st call).1 := by
  cases call with
  | processFault report =>
    have hlive : PendingRepresented config (st.dropExpiredRootCauses report.now) := h
    exact hlive.outcome (processFault_outcome config st report)
  | processClear faultCode => exact h.processClear hinv faultCode
  | cleanupExpired now =>
    intro ruleId pending hpending
    exact h ruleId pending (cleanupExpired_pendingClusters.mp hpending).1

end

end PendingRepresented

theorem pendingRepresented_of_reachable (hst : (engine config).Reachable st) :
    PendingRepresented config st := by
  obtain ⟨history, hrun⟩ := hst
  apply hrun.invariant (fun _ st => PendingRepresented config st)
  · intro ruleId pending hpending
    simp [engine] at hpending
  · intro _ st call hst _ h
    exact h.step (clusterInvariant_of_reachable hst) call

/-- In every reachable state a pending cluster is filed under the id of a rule, has
the representative that rule prescribes over the members in join order, and the
severity that was recorded for it. -/
theorem pending_representative_prescribed (config : EngineConfig) (st : EngineState)
    (hst : (engine config).Reachable st) (ruleId : Str) (pending : PendingCluster)
    (hpending : st.pendingClusters[ruleId]? = some pending) :
    ∃ rule ∈ config.rules, rule.id = ruleId ∧
      Prescribed rule.representative pending.data.faultCodes pending.faultSeverities
        pending.data.representativeCode ∧
      pending.faultSeverities[pending.data.representativeCode]? =
        some pending.data.representativeSeverity := by
  obtain ⟨rule, hrule, hid⟩ := ((clusterInvariant_of_reachable hst).pending ruleId pending hpending).rule
  have hrep := pendingRepresented_of_reachable hst ruleId pending hpending
  exact ⟨rule, hrule, hid, hrep.prescribed rule hrule hid, hrep.severity⟩

def reportAt (code severity : String) (ms : Int) : EngineCall :=
  .processFault ⟨str code, str severity, ms * 1000000, ms * 1000000, ms * 1000000⟩

def clearedLeader : List EngineCall :=
  [reportAt "DRIVE_A" "WARN" 0, reportAt "DRIVE_B" "ERROR" 10, reportAt "DRIVE_C" "CRITICAL" 20,
    reportAt "DRIVE_D" "ERROR" 30, .processClear (str "DRIVE_C")]

theorem pending_representative_prescribed_after_clear :
    ∃ pending, ((engine stallConfig).exec {} clearedLeader).pendingClusters[str "burst"]? =
        some pending ∧
      (((engine stallConfig).exec {} clearedLeader).pendingClusters[str "burst"]?.map
        (·.data.representativeCode)) = some (str "DRIVE_B") ∧
      ∃ rule ∈ stallConfig.rules, rule.id = str "burst" ∧
        Prescribed rule.representative pending.data.faultCodes pending.faultSeverities
          pending.data.representativeCode ∧
        pending.faultSeverities[pending.data.representativeCode]? =
          some pending.data.representativeSeverity := by
  obtain ⟨pending, hpending⟩ : ∃ pending,
      ((engine stallConfig).exec {} clearedLeader).pendingClusters[str "burst"]? = some pending :=
    Option.isSome_iff_exists.mp (by decide)
  exact ⟨pending, hpending, by decide,
    pending_representative_prescribed stallConfig _ (Machine.reachable_exec _ _) (str "burst")
      pending hpending⟩

end Medkit.Correlation
