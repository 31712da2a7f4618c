import Medkit.FaultManager.StorageParity

/-! How far the debounce counter moves. Equal reports in a row drive it to one end of the
band, wherever an earlier configuration left it. A report computes `counter ± 1` before it
clamps the result, so the arithmetic stays inside `int32_t` only for bands that keep clear
of the ends of the type. -/
namespace Medkit.FaultManager

open Lib

def InMemoryFaultStorage.reportFaultEvents (st : InMemoryFaultStorage)
    (reports : List FaultReport) : InMemoryFaultStorage :=
  reports.foldl (fun st r => (st.reportFaultEvent r).1) st

theorem InMemoryFaultStorage.reportFaultEvents_faults (st : InMemoryFaultStorage)
    {reports : List FaultReport} {code : Str} (h : ∀ r ∈ reports, r.faultCode = code) :
    (st.reportFaultEvents reports).faults[code]? =
      reports.foldl (fun state r => FaultState.afterReport r state) st.faults[code]? := by
  unfold reportFaultEvents
  induction reports generalizing st with
  | nil => rfl
  | cons r reports ih =>
    have hcode : r.faultCode = code := h r List.mem_cons_self
    rw [List.foldl_cons, List.foldl_cons, ih _ fun r hr => h r (List.mem_cons_of_mem _ hr),
      reportFaultEvent_faults, if_pos hcode]

/-! ## Equal reports in a row -/

theorem computeDebounceStatus_ne_cleared {current : FaultStatus} (h : current ≠ .cleared)
    (counter : Int) (config : DebounceConfig) :
    computeDebounceStatus counter current config ≠ .cleared := by
  unfold computeDebounceStatus
  split_ifs <;> simp_all

def InRow (config : DebounceConfig) (failed : Bool) (reports : List FaultReport) : Prop :=
  ∀ r ∈ reports, r.config = config ∧ r.isFailed = failed

section Row

variable {config : DebounceConfig} (hc : config.Valid)

include hc

theorem clamp_eq_max_min (counter : Int) :
    clampDebounceCounter counter config =
      max config.confirmationThreshold (min config.healingThreshold counter) := by
  obtain ⟨hneg, hnonneg⟩ := hc
  unfold clampDebounceCounter
  split_ifs <;> omega

variable {state : FaultState} {reports : List FaultReport}

omit hc in
/-- A row of reports, each of which takes a live fault one step along `bound`. -/
theorem FaultState.row (bound : Nat → Int) (hlive : state.status ≠ .cleared)
    (hstart : clampDebounceCounter state.debounceCounter config = bound 0)
    {Done : FaultState → Prop} (hstep : ∀ r ∈ reports, ∀ before n, before.status ≠ .cleared →
      clampDebounceCounter before.debounceCounter config = bound n →
      ∃ after, FaultState.afterReport r (some before) = some after ∧ after.status ≠ .cleared ∧
        clampDebounceCounter after.debounceCounter config = bound (n + 1) ∧ Done after) :
    ∃ after, reports.foldl (fun state r => FaultState.afterReport r state) (some state) =
        some after ∧
      after.status ≠ .cleared ∧
      clampDebounceCounter after.debounceCounter config = bound reports.length ∧
      (reports ≠ [] → Done after) := by
  induction reports using List.reverseRecOn with
  | nil => exact ⟨state, rfl, hlive, hstart, fun h => absurd rfl h⟩
  | append_singleton reports r ih =>
    obtain ⟨before, hfold, hbefore, hcounter, -⟩ :=
      ih fun r hr => hstep r (List.mem_append_left _ hr)
    obtain ⟨after, hafter, hlive, hnext, hdone⟩ :=
      hstep r (List.mem_append_right _ List.mem_cons_self) before _ hbefore hcounter
    refine ⟨after, ?_, hlive, ?_, fun _ => hdone⟩
    · rw [List.foldl_append, hfold]
      exact hafter
    · rw [hnext, List.length_append, List.length_singleton]

/-- Clamping after every FAILED report is clamping once. The last of them confirms the fault
if it finds the counter at the threshold. -/
theorem FaultState.failed_row (hlive : state.status ≠ .cleared)
    (hreports : InRow config true reports) :
    ∃ after, reports.foldl (fun state r => FaultState.afterReport r state) (some state) =
        some after ∧
      after.status ≠ .cleared ∧
      clampDebounceCounter after.debounceCounter config =
        max config.confirmationThreshold
          (clampDebounceCounter state.debounceCounter config - reports.length) ∧
      (reports ≠ [] → clampDebounceCounter after.debounceCounter config = after.debounceCounter ∧
        (after.debounceCounter ≤ config.confirmationThreshold → after.status = .confirmed)) := by
  have hband := clamp_mem hc state.debounceCounter
  apply FaultState.row (fun n => max config.confirmationThreshold
    (clampDebounceCounter state.debounceCounter config - n)) hlive
  · simp only [Nat.cast_zero, Int.sub_zero]
    omega
  · intro r hr before n hbefore hcounter
    obtain ⟨rfl, hfailed⟩ := hreports r hr
    refine ⟨before.failed r, by simp [FaultState.afterReport, hbefore, hfailed], ?_⟩
    rw [FaultState.failed, FaultState.settle_eq]
    dsimp only
    refine ⟨?_, ?_, clamp_of_mem (clamp_mem hc _).1 (clamp_mem hc _).2, ?_⟩
    · split
      · simp
      · exact computeDebounceStatus_ne_cleared hbefore _ _
    · rw [hcounter, clamp_eq_max_min hc, clamp_eq_max_min hc (max _ _ - 1)]
      have := hc.confirmation_neg
      have := hc.healing_nonneg
      omega
    · intro hle
      split
      · rfl
      · rw [computeDebounceStatus, if_pos hle]

/-- The same for PASSED reports; the last one heals if healing is enabled. -/
theorem FaultState.passed_row (hlive : state.status ≠ .cleared)
    (hreports : InRow config false reports) :
    ∃ after, reports.foldl (fun state r => FaultState.afterReport r state) (some state) =
        some after ∧
      after.status ≠ .cleared ∧
      clampDebounceCounter after.debounceCounter config =
        min config.healingThreshold
          (clampDebounceCounter state.debounceCounter config + reports.length) ∧
      (reports ≠ [] → clampDebounceCounter after.debounceCounter config = after.debounceCounter ∧
        (config.healingEnabled → config.healingThreshold ≤ after.debounceCounter →
          after.status = .healed)) := by
  have hband := clamp_mem hc state.debounceCounter
  apply FaultState.row (fun n => min config.healingThreshold
    (clampDebounceCounter state.debounceCounter config + n)) hlive
  · simp only [Nat.cast_zero, Int.add_zero]
    omega
  · intro r hr before n hbefore hcounter
    obtain ⟨rfl, hpassed⟩ := hreports r hr
    have := hc.confirmation_neg
    have := hc.healing_nonneg
    refine ⟨before.passed r, by simp [FaultState.afterReport, hbefore, hpassed],
      computeDebounceStatus_ne_cleared hbefore _ _, ?_⟩
    rw [FaultState.passed, FaultState.updateStatus]
    dsimp only
    refine ⟨?_, clamp_of_mem (clamp_mem hc _).1 (clamp_mem hc _).2, ?_⟩
    · rw [hcounter, clamp_eq_max_min hc, clamp_eq_max_min hc (min _ _ + 1)]
      omega
    · intro henabled hge
      have hlow : ¬ clampDebounceCounter (clampDebounceCounter before.debounceCounter r.config + 1)
          r.config ≤ r.config.confirmationThreshold := by omega
      rw [computeDebounceStatus, if_neg hlow, if_pos (by simp [henabled, hge])]

end Row

def motorReport (eventType : Byte) (config : DebounceConfig) : FaultReport where
  faultCode := str "MOTOR"
  eventType := eventType
  severity := 1
  description := []
  sourceId := str "/motor"
  timestamp := 0
  config := config

theorem created_live (r : FaultReport) : (FaultState.created r).status ≠ .cleared := by
  rw [FaultState.created, FaultState.settle_eq]
  dsimp only
  split
  · simp
  · exact computeDebounceStatus_ne_cleared (by simp) _ _

/-! ## The arithmetic before the clamp -/

def InInt32 (n : Int) : Prop := -(int32Max : Int) - 1 ≤ n ∧ n ≤ int32Max

/-- The `debounce_counter ± 1` that a report computes, if it gets that far. -/
def FaultState.moved (r : FaultReport) (state : FaultState) : Option Int :=
  if state.status = .cleared then none
  else if r.isFailed then some (clampDebounceCounter state.debounceCounter r.config - 1)
  else some (clampDebounceCounter state.debounceCounter r.config + 1)

/-- The same in the SQLite backend, where a reactivation shares the FAILED branch. -/
def FaultRow.moved (r : FaultReport) (row : FaultRow) : Option Int :=
  if row.isReactivation && !r.isFailed then none
  else if r.isFailed then some (row.failedFrom r.config - 1)
  else some (clampDebounceCounter row.debounceCounter r.config + 1)

structure DebounceConfig.Accepted (config : DebounceConfig) : Prop where
  sane : (sanitizeDebounceConfig config).2 = true
  confirmation : InInt32 config.confirmationThreshold
  healing : InInt32 config.healingThreshold

structure DebounceConfig.Inner (config : DebounceConfig) : Prop where
  confirmation : -(int32Max : Int) - 1 < config.confirmationThreshold
  healing : config.healingThreshold < int32Max

def StorageCall.Uses (allowed : DebounceConfig → Prop) : StorageCall → Prop
  | .reportFaultEvent r => allowed r.config
  | _ => True

theorem DebounceConfig.Accepted.valid {config : DebounceConfig} (h : config.Accepted) :
    config.Valid := by
  have hsane := h.sane
  simp only [sanitizeDebounceConfig, Bool.and_eq_true, Bool.not_eq_true', decide_eq_false_iff_not]
    at hsane
  exact ⟨by omega, by omega⟩

theorem FaultState.moved_cases {r : FaultReport} {state : FaultState} {n : Int}
    (h : n ∈ state.moved r) :
    (r.isFailed = true ∧ n = clampDebounceCounter state.debounceCounter r.config - 1) ∨
      (r.isFailed = false ∧ n = clampDebounceCounter state.debounceCounter r.config + 1) := by
  unfold FaultState.moved at h
  split_ifs at h with hcleared hfailed
  · cases h
  · exact .inl ⟨hfailed, (Option.some.inj h).symm⟩
  · exact .inr ⟨by simpa using hfailed, (Option.some.inj h).symm⟩

section Moved

variable {config : DebounceConfig} (hc : config.Valid) (counter : Int)

include hc

theorem inInt32_clamp_pred (hconfirmation : -(int32Max : Int) - 1 < config.confirmationThreshold)
    (hhealing : InInt32 config.healingThreshold) :
    InInt32 (clampDebounceCounter counter config - 1) := by
  have hband := clamp_mem hc counter
  have := hhealing.2
  exact ⟨by omega, by omega⟩

theorem inInt32_clamp_succ (hconfirmation : InInt32 config.confirmationThreshold)
    (hhealing : config.healingThreshold < int32Max) :
    InInt32 (clampDebounceCounter counter config + 1) := by
  have hband := clamp_mem hc counter
  have := hconfirmation.1
  exact ⟨by omega, by omega⟩

theorem DebounceConfig.Inner.inInt32 (hinner : config.Inner) :
    InInt32 (clampDebounceCounter counter config - 1) ∧
      InInt32 (clampDebounceCounter counter config + 1) := by
  have hneg := hc.confirmation_neg
  have hnonneg := hc.healing_nonneg
  have hlow := hinner.confirmation
  have hhigh := hinner.healing
  exact ⟨inInt32_clamp_pred hc counter hlow ⟨by omega, by omega⟩,
    inInt32_clamp_succ hc counter ⟨by omega, by omega⟩ hhigh⟩

end Moved

theorem FaultState.inInt32_of_moved {r : FaultReport} (hc : r.config.Valid)
    (hinner : r.config.Inner) {state : FaultState} {n : Int} (h : n ∈ state.moved r) :
    InInt32 n := by
  rcases FaultState.moved_cases h with ⟨-, rfl⟩ | ⟨-, rfl⟩
  · exact (hinner.inInt32 hc _).1
  · exact (hinner.inInt32 hc _).2

theorem FaultRow.inInt32_of_moved {r : FaultReport} (hc : r.config.Valid)
    (hinner : r.config.Inner) {row : FaultRow} {n : Int} (h : n ∈ row.moved r) : InInt32 n := by
  unfold FaultRow.moved FaultRow.failedFrom at h
  split_ifs at h
  · cases h
  · cases h
    exact ⟨by decide, by decide⟩
  · cases h
    exact (hinner.inInt32 hc _).1
  · cases h
    exact (hinner.inInt32 hc _).2

theorem exec_reports (st : InMemoryFaultStorage) (reports : List FaultReport) :
    inMemoryMachine.exec st (reports.map .reportFaultEvent) = st.reportFaultEvents reports := by
  induction reports generalizing st with
  | nil => rfl
  | cons r reports ih => exact ih _

/-- A first FAILED report and a row of equal ones after it. -/
def outage (eventType : Byte) (config : DebounceConfig) (count : Nat) : List FaultReport :=
  motorReport eventFailed config :: List.replicate count (motorReport eventType config)

theorem config_of_mem_outage {eventType : Byte} {config : DebounceConfig} {count : Nat}
    {r : FaultReport} (h : r ∈ outage eventType config count) :
    r.config = config ∧ r.faultCode = str "MOTOR" := by
  rcases List.mem_cons.mp h with rfl | h
  · exact ⟨rfl, rfl⟩
  · rw [List.eq_of_mem_replicate h]
    exact ⟨rfl, rfl⟩

theorem faults_outage {st : InMemoryFaultStorage} (hst : st.faults[str "MOTOR"]? = none)
    (eventType : Byte) (config : DebounceConfig) (count : Nat) :
    (st.reportFaultEvents (outage eventType config count)).faults[str "MOTOR"]? =
      (List.replicate count (motorReport eventType config)).foldl
        (fun state r => FaultState.afterReport r state)
        (some (.created (motorReport eventFailed config))) := by
  rw [InMemoryFaultStorage.reportFaultEvents_faults _ fun r hr => (config_of_mem_outage hr).2, hst]
  rfl

theorem clamp_created (r : FaultReport) {config : DebounceConfig} (hc : config.Valid) :
    clampDebounceCounter (FaultState.created r).debounceCounter config = -1 := by
  rw [FaultState.created, FaultState.settle_eq]
  exact clamp_neg_one hc

theorem inRow_replicate (eventType : Byte) (config : DebounceConfig) (count : Nat) :
    InRow config (motorReport eventType config).isFailed
      (List.replicate count (motorReport eventType config)) := by
  intro r hr
  rw [List.eq_of_mem_replicate hr]
  exact ⟨rfl, rfl⟩

theorem code_of_mem_replicate {eventType : Byte} {config : DebounceConfig} {count : Nat}
    {r : FaultReport} (h : r ∈ List.replicate count (motorReport eventType config)) :
    r.faultCode = str "MOTOR" := by
  rw [List.eq_of_mem_replicate h]
  rfl

section Outage

variable {config : DebounceConfig} (hc : config.Valid) (st : InMemoryFaultStorage)
  (hst : st.faults[str "MOTOR"]? = none) (count : Nat)

include hc hst

theorem moved_after_failed_row : ∃ state,
    (st.reportFaultEvents (outage eventFailed config count)).faults[str "MOTOR"]? = some state ∧
      state.moved (motorReport eventFailed config) =
        some (max config.confirmationThreshold (-1 - count) - 1) := by
  obtain ⟨after, hfold, hlive, hcounter, -⟩ := FaultState.failed_row hc
    (created_live (motorReport eventFailed config)) (inRow_replicate eventFailed config count)
  rw [clamp_created _ hc, List.length_replicate] at hcounter
  refine ⟨after, (faults_outage hst _ _ _).trans hfold, ?_⟩
  rw [← hcounter]
  simp [FaultState.moved, hlive, motorReport, FaultReport.isFailed]

theorem moved_after_passed_row : ∃ state,
    (st.reportFaultEvents (outage eventPassed config count)).faults[str "MOTOR"]? = some state ∧
      state.moved (motorReport eventPassed config) =
        some (min config.healingThreshold (-1 + count) + 1) := by
  obtain ⟨after, hfold, hlive, hcounter, -⟩ := FaultState.passed_row hc
    (created_live (motorReport eventFailed config)) (inRow_replicate eventPassed config count)
  rw [clamp_created _ hc, List.length_replicate] at hcounter
  refine ⟨after, (faults_outage hst _ _ _).trans hfold, ?_⟩
  rw [← hcounter]
  simp [FaultState.moved, hlive, motorReport, FaultReport.isFailed, eventPassed, eventFailed]

/-- Long rows come to both ends of the band. -/
theorem inner_of_outages (hconfirmation : InInt32 config.confirmationThreshold)
    (hhealing : InInt32 config.healingThreshold) (hrange : ∀ eventType count, ∀ state ∈
      (st.reportFaultEvents (outage eventType config count)).faults[str "MOTOR"]?,
      ∀ n ∈ state.moved (motorReport eventType config), InInt32 n) : config.Inner := by
  have hmin := hconfirmation.1
  have hmax := hhealing.2
  constructor <;> by_contra hend
  · obtain ⟨state, hstate, hmoved⟩ := moved_after_failed_row hc st hst int32Max
    have hlow := (hrange _ _ state hstate _ hmoved).1
    simp only [int32Max] at *
    omega
  · obtain ⟨state, hstate, hmoved⟩ := moved_after_passed_row hc st hst (int32Max + 1)
    have hhigh := (hrange _ _ state hstate _ hmoved).2
    simp only [int32Max] at *
    omega

end Outage

/-- The counter arithmetic of both backends stays inside `int32_t`, over every run of calls
whose configurations are among the allowed ones, exactly if none of them has a threshold at
an end of the type. -/
theorem counter_arithmetic_in_range_iff (allowed : DebounceConfig → Prop)
    (hallowed : ∀ config, allowed config → config.Accepted) :
    (∀ (calls : List StorageCall) (r : FaultReport), (∀ call ∈ calls, call.Uses allowed) →
      allowed r.config →
      (∀ state ∈ (inMemoryMachine.exec {} calls).faults[r.faultCode]?, ∀ n ∈ state.moved r,
        InInt32 n) ∧
      (∀ row ∈ (sqliteMachine.exec {} calls).faults[r.faultCode]?, ∀ n ∈ row.moved r,
        InInt32 n)) ↔
    ∀ config, allowed config → config.Inner := by
  constructor
  · intro hsafe config hconfig
    have haccepted := hallowed config hconfig
    refine inner_of_outages haccepted.valid {} rfl haccepted.confirmation haccepted.healing ?_
    intro eventType count
    rw [← exec_reports]
    refine (hsafe _ (motorReport eventType config) ?_ hconfig).1
    intro call hcall
    obtain ⟨r, hr, rfl⟩ := List.mem_map.mp hcall
    change allowed r.config
    rw [(config_of_mem_outage hr).1]
    exact hconfig
  · intro hinner calls r _ hr
    have hvalid := (hallowed r.config hr).valid
    exact ⟨fun _ _ _ hn => FaultState.inInt32_of_moved hvalid (hinner _ hr) hn,
      fun _ _ _ hn => FaultRow.inInt32_of_moved hvalid (hinner _ hr) hn⟩

theorem counter_arithmetic_in_range_iff_of_default :
    let config : DebounceConfig := {}
    ∀ (calls : List StorageCall) (r : FaultReport), (∀ call ∈ calls, call.Uses (· = config)) →
      r.config = config → ∀ state ∈ (inMemoryMachine.exec {} calls).faults[r.faultCode]?,
        ∀ n ∈ state.moved r, InInt32 n := by
  intro config calls r hcalls hr
  have haccepted : config.Accepted := ⟨by decide, ⟨by decide, by decide⟩, ⟨by decide, by decide⟩⟩
  have hinner : config.Inner := ⟨by decide, by decide⟩
  exact ((counter_arithmetic_in_range_iff (· = config) (by rintro _ rfl; exact haccepted)).mpr
    (by rintro _ rfl; exact hinner) calls r hcalls hr).1

/-- With the smallest `int32_t` as its confirmation threshold, a fault that has been reported
FAILED 2^31 times computes one less than that. -/
theorem counter_underflows :
    let config : DebounceConfig := { confirmationThreshold := -2147483648 }
    (sanitizeDebounceConfig config).2 = true ∧
    ∃ (reports : List FaultReport) (state : FaultState), reports.length = 2147483648 ∧
      (∀ r ∈ reports, r.config = config) ∧
      (inMemoryMachine.exec {} (reports.map .reportFaultEvent)).faults[str "MOTOR"]? =
        some state ∧
      state.moved (motorReport eventFailed config) = some (-2147483649) := by
  intro config
  have hvalid : config.Valid := ⟨by decide, by decide⟩
  obtain ⟨state, hstate, hmoved⟩ := moved_after_failed_row hvalid {} rfl 2147483647
  refine ⟨by decide, outage eventFailed config 2147483647, state, ?_, ?_, ?_, ?_⟩
  · simp only [outage, List.length_cons, List.length_replicate]
  · exact fun r hr => (config_of_mem_outage hr).1
  · rw [exec_reports]
    exact hstate
  · rw [hmoved]
    rfl

/-! ## What a row of reports decides -/

def InMemoryFaultStorage.RowInRange (st : InMemoryFaultStorage) (reports : List FaultReport) :
    Prop :=
  ∀ front r back, reports = front ++ r :: back →
    ∀ state ∈ (st.reportFaultEvents front).faults[r.faultCode]?, ∀ n ∈ state.moved r, InInt32 n

/-- As many reports in a row as the band is wide decide the status of a live fault. Earlier
reports may have left its counter anywhere. -/
def InMemoryFaultStorage.DecidedByRow (st : InMemoryFaultStorage) (config : DebounceConfig) :
    Prop :=
  ∀ (code : Str) (state : FaultState), st.faults[code]? = some state → state.status ≠ .cleared →
    ∀ reports : List FaultReport, (∀ r ∈ reports, r.faultCode = code) →
      (reports.length : Int) = config.healingThreshold - config.confirmationThreshold →
      (InRow config true reports → st.RowInRange reports ∧ ∃ after,
        (st.reportFaultEvents reports).faults[code]? = some after ∧ after.status = .confirmed) ∧
      (config.healingEnabled → InRow config false reports → st.RowInRange reports ∧ ∃ after,
        (st.reportFaultEvents reports).faults[code]? = some after ∧ after.status = .healed)

structure DebounceConfig.RowClear (config : DebounceConfig) : Prop where
  confirmation : -(int32Max : Int) - 1 < config.confirmationThreshold
  healing : config.healingEnabled → config.healingThreshold < int32Max

variable {config : DebounceConfig}

theorem InMemoryFaultStorage.rowInRange {failed : Bool}
    (hfailed : failed = true → ∀ counter, InInt32 (clampDebounceCounter counter config - 1))
    (hpassed : failed = false → ∀ counter, InInt32 (clampDebounceCounter counter config + 1))
    (st : InMemoryFaultStorage) {reports : List FaultReport}
    (hreports : InRow config failed reports) : st.RowInRange reports := by
  intro front r back hsplit state _ n hn
  obtain ⟨rfl, hr⟩ := hreports r (by simp [hsplit])
  rcases FaultState.moved_cases hn with ⟨h, rfl⟩ | ⟨h, rfl⟩
  · exact hfailed (hr.symm.trans h) _
  · exact hpassed (hr.symm.trans h) _

theorem InMemoryFaultStorage.decidedByRow (st : InMemoryFaultStorage) (hc : config.Valid)
    (hconfirmation : InInt32 config.confirmationThreshold)
    (hhealing : InInt32 config.healingThreshold) (hclear : config.RowClear) :
    st.DecidedByRow config := by
  intro code state hstate hlive reports hcode hcount
  rw [st.reportFaultEvents_faults hcode, hstate]
  have hneg := hc.confirmation_neg
  have hnonneg := hc.healing_nonneg
  have hband := clamp_mem hc state.debounceCounter
  have hne : reports ≠ [] := by
    rintro rfl
    simp only [List.length_nil, Nat.cast_zero] at hcount
    omega
  constructor
  · intro hreports
    obtain ⟨after, hfold, -, hcounter, hlast⟩ := FaultState.failed_row hc hlive hreports
    obtain ⟨hself, hconfirmed⟩ := hlast hne
    have hrange := rowInRange
      (fun _ counter => inInt32_clamp_pred hc counter hclear.confirmation hhealing)
      (fun h => absurd h (by decide)) st hreports
    exact ⟨hrange, after, hfold, hconfirmed (by omega)⟩
  · intro henabled hreports
    obtain ⟨after, hfold, -, hcounter, hlast⟩ := FaultState.passed_row hc hlive hreports
    obtain ⟨hself, hhealed⟩ := hlast hne
    have hrange := rowInRange (fun h => absurd h (by decide))
      (fun _ counter => inInt32_clamp_succ hc counter hconfirmation (hclear.healing henabled))
      st hreports
    exact ⟨hrange, after, hfold, hhealed henabled (by omega)⟩

theorem reportFaultEvents_outage (eventType : Byte) (config : DebounceConfig) (count : Nat) :
    InMemoryFaultStorage.reportFaultEvents {} (outage eventType config (count + 1)) =
      (InMemoryFaultStorage.reportFaultEvents {} (outage eventType config 1)).reportFaultEvents
        (List.replicate count (motorReport eventType config)) :=
  rfl

theorem InMemoryFaultStorage.RowInRange.moved {eventType : Byte} {length : Nat}
    (h : (InMemoryFaultStorage.reportFaultEvents {}
      (outage eventType config 1)).RowInRange
        (List.replicate length (motorReport eventType config))) {count : Nat}
    (hcount : count < length) {state : FaultState}
    (hstate : (InMemoryFaultStorage.reportFaultEvents {}
      (outage eventType config (count + 1))).faults[str "MOTOR"]? = some state) {n : Int}
    (hn : state.moved (motorReport eventType config) = some n) : InInt32 n := by
  refine h (List.replicate count (motorReport eventType config)) (motorReport eventType config)
    (List.replicate (length - count - 1) (motorReport eventType config)) ?_ state ?_ n hn
  · rw [← List.replicate_succ, List.replicate_append_replicate]
    congr 1
    omega
  · rw [reportFaultEvents_outage] at hstate
    exact hstate

/-- After every history of reports a row decides, exactly if the configuration keeps the
reports that can decide off the ends of the type; then it decides in any store. -/
theorem reports_in_row_decide_iff {config : DebounceConfig} (hc : config.Valid)
    (hconfirmation : InInt32 config.confirmationThreshold)
    (hhealing : InInt32 config.healingThreshold) :
    ((∀ history : List FaultReport,
        (InMemoryFaultStorage.reportFaultEvents {} history).DecidedByRow config) ↔
      config.RowClear) ∧
    (config.RowClear → ∀ st : InMemoryFaultStorage, st.DecidedByRow config) := by
  have hclear (h : config.RowClear) (st : InMemoryFaultStorage) : st.DecidedByRow config :=
    st.decidedByRow hc hconfirmation hhealing h
  refine ⟨⟨?_, fun h history => hclear h _⟩, hclear⟩
  intro hdecided
  have hneg := hc.confirmation_neg
  have hnonneg := hc.healing_nonneg
  have hmin := hconfirmation.1
  have hmax := hhealing.2
  obtain ⟨length, hlength⟩ := Int.eq_ofNat_of_zero_le
    (show 0 ≤ config.healingThreshold - config.confirmationThreshold by omega)
  have hcount (eventType : Byte) :
      ((List.replicate length (motorReport eventType config)).length : Int) =
        config.healingThreshold - config.confirmationThreshold := by
    rw [List.length_replicate, hlength]
  have hlive {eventType : Byte} {state : FaultState} {n : Int}
      (h : state.moved (motorReport eventType config) = some n) : state.status ≠ .cleared := by
    intro hcleared
    simp [FaultState.moved, hcleared] at h
  constructor
  · by_contra hend
    obtain ⟨state, hstate, hmoved⟩ := moved_after_failed_row hc {} rfl 1
    obtain ⟨last, hlast, hover⟩ := moved_after_failed_row hc {} rfl (int32Max + 1)
    have hrange := ((hdecided (outage eventFailed config 1)) _ _ hstate (hlive hmoved) _
      (fun _ => code_of_mem_replicate) (hcount eventFailed)).1
      (inRow_replicate eventFailed config length)
    have hlow := (hrange.1.moved (by simp only [int32Max] at *; omega) hlast hover).1
    simp only [int32Max] at *
    omega
  · intro henabled
    by_contra hend
    obtain ⟨state, hstate, hmoved⟩ := moved_after_passed_row hc {} rfl 1
    obtain ⟨last, hlast, hover⟩ := moved_after_passed_row hc {} rfl (int32Max + 1)
    have hrange := ((hdecided (outage eventPassed config 1)) _ _ hstate (hlive hmoved) _
      (fun _ => code_of_mem_replicate) (hcount eventPassed)).2 henabled
      (inRow_replicate eventPassed config length)
    have hhigh := (hrange.1.moved (by simp only [int32Max] at *; omega) hlast hover).2
    simp only [int32Max] at *
    omega

/-- A source with a wider band has left the counter at seven; under thresholds of −2 and 3
five reports decide. -/
theorem reports_in_row_decide_for_motor :
    let state : FaultState :=
      { FaultState.created (motorReport eventFailed {}) with debounceCounter := 7 }
    let st : InMemoryFaultStorage := { faults := (∅ : OMap Str FaultState).insert (str "MOTOR") state }
    let config : DebounceConfig := { confirmationThreshold := -2, healingEnabled := true }
    let failed := List.replicate 5 (motorReport eventFailed config)
    let passed := List.replicate 5 (motorReport eventPassed config)
    (∃ after, (st.reportFaultEvents failed).faults[str "MOTOR"]? = some after ∧
      after.status = .confirmed) ∧
    (∃ after, (st.reportFaultEvents passed).faults[str "MOTOR"]? = some after ∧
      after.status = .healed) := by
  intro state st config failed passed
  have hget : st.faults[str "MOTOR"]? = some state := Std.ExtTreeMap.getElem?_insert_self
  have hlive : state.status ≠ .cleared := created_live (motorReport eventFailed {})
  have hdecided : st.DecidedByRow config :=
    (reports_in_row_decide_iff ⟨by decide, by decide⟩ ⟨by decide, by decide⟩
      ⟨by decide, by decide⟩).2 ⟨by decide, fun _ => by decide⟩ st
  have hfailed := hdecided _ state hget hlive failed (fun _ => code_of_mem_replicate) rfl
  have hpassed := hdecided _ state hget hlive passed (fun _ => code_of_mem_replicate) rfl
  exact ⟨(hfailed.1 (inRow_replicate eventFailed config 5)).2,
    (hpassed.2 rfl (inRow_replicate eventPassed config 5)).2⟩

theorem FaultState.afterReport_healed {r : FaultReport} (hfailed : r.isFailed = true)
    (hbypass : bypassesDebounce r.config r.severity = false) {before : FaultState}
    (hstatus : before.status = .healed)
    (hlow : r.config.confirmationThreshold < before.debounceCounter - 1)
    (hhigh : before.debounceCounter ≤ r.config.healingThreshold) :
    ∃ after, FaultState.afterReport r (some before) = some after ∧ after.status = .healed ∧
      after.debounceCounter = before.debounceCounter - 1 := by
  have hmoved : clampDebounceCounter (clampDebounceCounter before.debounceCounter r.config - 1)
      r.config = before.debounceCounter - 1 := by
    rw [clamp_of_mem (by omega) hhigh, clamp_of_mem (by omega) (by omega)]
  have hlatched : computeDebounceStatus (before.debounceCounter - 1) .healed r.config = .healed := by
    rw [computeDebounceStatus, if_neg (by omega)]
    simp
  refine ⟨before.failed r, by simp [FaultState.afterReport, hstatus, hfailed], ?_⟩
  rw [FaultState.failed, FaultState.settle_eq]
  dsimp only
  rw [hmoved, hstatus, hbypass]
  exact ⟨hlatched, rfl⟩

/-- Under the smallest `int32_t` as confirmation threshold a row of FAILED reports computes
one less than that. On wrap-around the fault is HEALED, and the four reports that are left of
the row do not change that. -/
theorem row_of_failures_heals :
    let config : DebounceConfig :=
      { confirmationThreshold := -2147483648, healingEnabled := true }
    let failed := motorReport eventFailed config
    let st := InMemoryFaultStorage.reportFaultEvents {} [failed, failed]
    let row := List.replicate 2147483651 failed
    config.Valid ∧
    (row.length : Int) = config.healingThreshold - config.confirmationThreshold ∧
    InRow config true row ∧
    ∃ (front : List FaultReport) (state : FaultState),
      row = front ++ failed :: List.replicate 4 failed ∧
      (st.reportFaultEvents front).faults[str "MOTOR"]? = some state ∧
      state.moved failed = some (-2147483649) ∧ ¬ InInt32 (-2147483649) ∧
      let counter := clampDebounceCounter (Int.bmod (-2147483649) 4294967296) config
      let wrapped : FaultState :=
        { state with
            debounceCounter := counter
            status := computeDebounceStatus counter state.status config }
      wrapped.status = .healed ∧
      ∃ after, (List.replicate 4 failed).foldl (fun state r => FaultState.afterReport r state)
        (some wrapped) = some after ∧ after.status = .healed := by
  intro config failed st row
  have hvalid : config.Valid := ⟨by decide, by decide⟩
  obtain ⟨state, hstate, hmoved⟩ := moved_after_failed_row hvalid {} rfl (2147483646 + 1)
  rw [reportFaultEvents_outage] at hstate
  have hkept (counter : Int) (hlow : -1 < counter) (hhigh : counter ≤ 3) (before : FaultState)
      (h : before.status = .healed ∧ before.debounceCounter = counter) :
      ∃ after, FaultState.afterReport failed (some before) = some after ∧
        after.status = .healed ∧ after.debounceCounter = counter - 1 := by
    obtain ⟨hstatus, rfl⟩ := h
    refine FaultState.afterReport_healed rfl rfl hstatus ?_ hhigh
    change (-2147483648 : Int) < before.debounceCounter - 1
    omega
  have hcounter : clampDebounceCounter (Int.bmod (-2147483649) 4294967296) config = 3 := by
    rw [show Int.bmod (-2147483649) 4294967296 = 2147483647 by decide]
    rfl
  refine ⟨hvalid, ?_, inRow_replicate eventFailed config _, List.replicate 2147483646 failed,
    state, ?_, hstate, ?_, ?_, ?_⟩
  · rw [List.length_replicate]
    rfl
  · rw [← List.replicate_succ, List.replicate_append_replicate]
  · rw [hmoved]
    rfl
  · rintro ⟨hlow, -⟩
    exact absurd hlow (by decide)
  · rw [hcounter]
    intro counter wrapped
    obtain ⟨two, htwo, hkeep⟩ := hkept 3 (by decide) (by decide) wrapped ⟨rfl, rfl⟩
    obtain ⟨one, hone, hkeep⟩ := hkept 2 (by decide) (by decide) two hkeep
    obtain ⟨zero, hzero, hkeep⟩ := hkept 1 (by decide) (by decide) one hkeep
    obtain ⟨last, hlast, hkeep⟩ := hkept 0 (by decide) (by decide) zero hkeep
    refine ⟨rfl, last, ?_, hkeep.1⟩
    change FaultState.afterReport failed (FaultState.afterReport failed
      (FaultState.afterReport failed (FaultState.afterReport failed (some wrapped)))) = some last
    rw [htwo, hone, hzero, hlast]

end Medkit.FaultManager
