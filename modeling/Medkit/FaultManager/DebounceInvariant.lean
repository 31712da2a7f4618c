import Medkit.Lib.Machine
import Medkit.FaultManager.DebounceBounds

/-! What the debounce counter and the status of a stored fault say about each
other, over every run of reports, clears and timer confirmations under one
configuration that keeps the counter off the ends of `int32_t`, and what can move a fault out
of a latched status. -/
namespace Medkit.FaultManager

open Lib

structure DebounceInvariant (config : DebounceConfig) (counter : Int) (status : FaultStatus) :
    Prop where
  in_band : config.confirmationThreshold ≤ counter ∧ counter ≤ config.healingThreshold
  prefailed : status = .prefailed → config.confirmationThreshold < counter ∧ counter ≤ 0
  prepassed : status = .prepassed →
    0 ≤ counter ∧ (config.healingEnabled → counter < config.healingThreshold)
  healed : status = .healed → config.healingEnabled ∧ config.confirmationThreshold < counter
  confirmed : status = .confirmed → config.healingEnabled → counter < config.healingThreshold

/-- The invariant with what keeps it going: no stored fault is `unset`, and the
timer finds no PREFAILED fault at the healing threshold. -/
structure DebounceInductive (config : DebounceConfig) (counter : Int) (status : FaultStatus) :
    Prop extends DebounceInvariant config counter status where
  is_set : status ≠ .unset
  prefailed_open : status = .prefailed → config.healingEnabled →
    counter < config.healingThreshold

section Status

variable {config : DebounceConfig} {counter : Int} {current : FaultStatus}

theorem computeDebounceStatus_cases (counter : Int) (current : FaultStatus)
    (config : DebounceConfig) : (counter ≤ config.confirmationThreshold ∧
        computeDebounceStatus counter current config = .confirmed) ∨
      (config.confirmationThreshold < counter ∧ config.healingEnabled ∧
        config.healingThreshold ≤ counter ∧
        computeDebounceStatus counter current config = .healed) ∨
      (config.confirmationThreshold < counter ∧
        (config.healingEnabled → counter < config.healingThreshold) ∧
        ((computeDebounceStatus counter current config = current ∧
            (current = .confirmed ∨ current = .healed ∨ counter = 0)) ∨
          (counter < 0 ∧ computeDebounceStatus counter current config = .prefailed) ∨
          (0 < counter ∧ computeDebounceStatus counter current config = .prepassed))) := by
  unfold computeDebounceStatus
  simp only [Bool.and_eq_true, decide_eq_true_eq]
  by_cases hconf : counter ≤ config.confirmationThreshold
  · exact .inl ⟨hconf, by simp [hconf]⟩
  rw [if_neg hconf]
  by_cases hheal : config.healingEnabled = true ∧ config.healingThreshold ≤ counter
  · exact .inr (.inl ⟨by omega, hheal.1, hheal.2, by simp [hheal]⟩)
  rw [if_neg hheal]
  refine .inr (.inr ⟨by omega, fun he => by_contra fun hge => hheal ⟨he, by omega⟩, ?_⟩)
  split_ifs with hlatch hbelow habove
  · exact .inl ⟨rfl, by tauto⟩
  · exact .inr (.inl ⟨hbelow, rfl⟩)
  · exact .inr (.inr ⟨habove, rfl⟩)
  · exact .inl ⟨rfl, .inr (.inr (by omega))⟩

/-- One evaluation of the state machine on a counter in the band. A counter of
zero keeps the current status, which therefore has to be a live one. -/
theorem computeDebounceStatus_inductive (hc : config.Valid)
    (hband : config.confirmationThreshold ≤ counter ∧ counter ≤ config.healingThreshold)
    (hhealed : current = .healed → config.healingEnabled) (hlive : counter = 0 → current ≠ .unset) :
    DebounceInductive config counter (computeDebounceStatus counter current config) := by
  obtain ⟨hneg, hnonneg⟩ := hc
  rcases computeDebounceStatus_cases counter current config with
    ⟨hle, hs⟩ | ⟨hlt, hen, hge, hs⟩ | ⟨hlt, hopen, ⟨hs, hkept⟩ | ⟨hneg', hs⟩ | ⟨hpos, hs⟩⟩ <;>
    rw [hs]
  · exact ⟨⟨hband, by simp, by simp, by simp, by intros; omega⟩, by simp, by simp⟩
  · exact ⟨⟨hband, by simp, by simp, fun _ => ⟨hen, hlt⟩, by simp⟩, by simp, by simp⟩
  · have hzero (h₁ : current ≠ .confirmed) (h₂ : current ≠ .healed) : counter = 0 := by tauto
    refine ⟨⟨hband, ?_, ?_, fun h => ⟨hhealed h, hlt⟩, fun _ => hopen⟩, ?_, fun _ => hopen⟩
    · rintro rfl
      exact ⟨hlt, (hzero (by simp) (by simp)).le⟩
    · rintro rfl
      exact ⟨(hzero (by simp) (by simp)).ge, hopen⟩
    · rintro rfl
      exact hlive (hzero (by simp) (by simp)) rfl
  · exact ⟨⟨hband, fun _ => ⟨hlt, by omega⟩, by simp, by simp, by simp⟩, by simp, fun _ => hopen⟩
  · exact ⟨⟨hband, by simp, fun _ => ⟨by omega, hopen⟩, by simp, by simp⟩, by simp, by simp⟩

theorem confirmed_inductive
    (hband : config.confirmationThreshold ≤ counter ∧ counter ≤ config.healingThreshold)
    (hopen : counter < config.healingThreshold) :
    DebounceInductive config counter .confirmed :=
  ⟨⟨hband, by simp, by simp, by simp, fun _ _ => hopen⟩, by simp, by simp⟩

end Status

/-! ## One call -/

section Record

variable {r : FaultReport} (hc : r.config.Valid)

include hc

variable {state : FaultState}

theorem FaultState.settle_inductive
    (hband : r.config.confirmationThreshold ≤ state.debounceCounter ∧
      state.debounceCounter ≤ r.config.healingThreshold)
    (hopen : state.debounceCounter < r.config.healingThreshold)
    (hhealed : state.status = .healed → r.config.healingEnabled)
    (hlive : state.debounceCounter = 0 → state.status ≠ .unset) :
    DebounceInductive r.config (state.settle r).debounceCounter (state.settle r).status := by
  rw [settle_eq]
  dsimp only
  split
  · exact confirmed_inductive hband hopen
  · exact computeDebounceStatus_inductive hc hband hhealed hlive

theorem FaultState.settle_restart_inductive (hstart : state.debounceCounter = -1)
    (hdead : state.status ≠ .healed) :
    DebounceInductive r.config (state.settle r).debounceCounter (state.settle r).status := by
  have hneg := hc.confirmation_neg
  have hnonneg := hc.healing_nonneg
  refine settle_inductive hc ?_ ?_ (fun h => absurd h hdead) ?_ <;> omega

theorem FaultState.failed_inductive
    (h : DebounceInductive r.config state.debounceCounter state.status) :
    DebounceInductive r.config (state.failed r).debounceCounter (state.failed r).status := by
  unfold FaultState.failed
  exact settle_inductive hc (clamp_mem hc _) (clamp_pred_lt hc (clamp_mem hc _).2)
    (fun hs => (h.healed hs).1) (fun _ => h.is_set)

theorem FaultState.passed_inductive
    (h : DebounceInductive r.config state.debounceCounter state.status) :
    DebounceInductive r.config (state.passed r).debounceCounter (state.passed r).status :=
  computeDebounceStatus_inductive hc (clamp_mem hc _) (fun hs => (h.healed hs).1)
    (fun _ => h.is_set)

theorem FaultState.afterReport_inductive {before : Option FaultState} {after : FaultState}
    (hbefore : ∀ state ∈ before, DebounceInductive r.config state.debounceCounter state.status)
    (hafter : after ∈ FaultState.afterReport r before) :
    DebounceInductive r.config after.debounceCounter after.status := by
  unfold FaultState.afterReport at hafter
  split at hafter
  · split at hafter <;> cases hafter
    exact settle_restart_inductive hc rfl (by simp)
  · rename_i state
    have hinv := hbefore state rfl
    split_ifs at hafter with hcleared hfailed hfailed <;> cases hafter
    · exact settle_restart_inductive hc rfl (by simp [hcleared])
    · exact hinv
    · exact failed_inductive hc hinv
    · exact passed_inductive hc hinv

end Record

/-! ## Leaving a latched status -/

inductive DebounceCall where
  | reportFaultEvent (r : FaultReport)
  | clearFault (faultCode : Str)
  | checkTimeBasedConfirmation (currentTime : Int)

/-- The ways out of CONFIRMED and HEALED: the counter arrives at the opposite
threshold, a CRITICAL report bypasses debounce, or the fault is cleared. -/
inductive LatchExit (config : DebounceConfig) (faultCode : Str) :
    DebounceCall → FaultState → FaultState → Prop
  | healed {call before after} : before.status = .confirmed → after.status = .healed →
      config.healingEnabled → after.debounceCounter = config.healingThreshold →
      LatchExit config faultCode call before after
  | confirmed {call before after} : before.status = .healed → after.status = .confirmed →
      after.debounceCounter = config.confirmationThreshold →
      LatchExit config faultCode call before after
  | bypassed {r before after} : r.faultCode = faultCode → r.isFailed →
      bypassesDebounce config r.severity → after.status = .confirmed →
      LatchExit config faultCode (.reportFaultEvent r) before after
  | cleared {before after} : after.status = .cleared →
      LatchExit config faultCode (.clearFault faultCode) before after

theorem computeDebounceStatus_latched (counter : Int) (config : DebounceConfig)
    {current : FaultStatus} (hlatched : current = .confirmed ∨ current = .healed) :
    computeDebounceStatus counter current config = current ∨
      (current = .confirmed ∧ computeDebounceStatus counter current config = .healed ∧
        config.healingEnabled ∧ config.healingThreshold ≤ counter) ∨
      (current = .healed ∧ computeDebounceStatus counter current config = .confirmed ∧
        counter ≤ config.confirmationThreshold) := by
  unfold computeDebounceStatus
  split_ifs with hconf hheal
  · rcases hlatched with rfl | rfl
    · exact .inl rfl
    · exact .inr (.inr ⟨rfl, rfl, hconf⟩)
  · simp only [Bool.and_eq_true, decide_eq_true_eq] at hheal
    rcases hlatched with rfl | rfl
    · exact .inr (.inl ⟨rfl, rfl, hheal⟩)
    · exact .inl rfl
  all_goals exact .inl rfl

theorem computeDebounceStatus_latchExit {config : DebounceConfig} {faultCode : Str}
    {call : DebounceCall} {before after : FaultState}
    (hband : config.confirmationThreshold ≤ after.debounceCounter ∧
      after.debounceCounter ≤ config.healingThreshold)
    (hlatched : before.status = .confirmed ∨ before.status = .healed)
    (hstatus : after.status = computeDebounceStatus after.debounceCounter before.status config) :
    after.status = before.status ∨ LatchExit config faultCode call before after := by
  rcases computeDebounceStatus_latched after.debounceCounter config hlatched with
    h | ⟨hb, h, hen, hge⟩ | ⟨hb, h, hle⟩
  · exact .inl (hstatus.trans h)
  · exact .inr (.healed hb (hstatus.trans h) hen (le_antisymm hband.2 hge))
  · exact .inr (.confirmed hb (hstatus.trans h) (le_antisymm hle hband.1))

theorem FaultState.afterReport_latchExit {r : FaultReport} (hc : r.config.Valid)
    {before : FaultState} (hlatched : before.status = .confirmed ∨ before.status = .healed) :
    ∃ after, FaultState.afterReport r (some before) = some after ∧
      (after.status = before.status ∨
        LatchExit r.config r.faultCode (.reportFaultEvent r) before after) := by
  have hlive : before.status ≠ .cleared := by rcases hlatched with h | h <;> simp [h]
  simp only [FaultState.afterReport, if_neg hlive]
  split
  · rename_i hfailed
    refine ⟨_, rfl, ?_⟩
    by_cases hbypass : bypassesDebounce r.config r.severity
    · have hconfirmed : (before.failed r).status = .confirmed := by
        simp [FaultState.failed, FaultState.settle_eq, hbypass]
      exact .inr (.bypassed rfl hfailed hbypass hconfirmed)
    · refine computeDebounceStatus_latchExit ?_ hlatched ?_
      · simpa [FaultState.failed, FaultState.settle_eq] using clamp_mem hc _
      · simp [FaultState.failed, FaultState.settle_eq, hbypass]
  · exact ⟨_, rfl, computeDebounceStatus_latchExit (clamp_mem hc _) hlatched rfl⟩

/-! ## Runs -/

def debounceMachine (init : InMemoryFaultStorage) :
    Machine InMemoryFaultStorage DebounceCall Unit where
  init := init
  step st
    | .reportFaultEvent r => ((st.reportFaultEvent r).1, ())
    | .clearFault faultCode => ((st.clearFault faultCode).1, ())
    | .checkTimeBasedConfirmation currentTime =>
        ((st.checkTimeBasedConfirmation currentTime).1, ())

/-- Reports are evaluated under one configuration; the timer reads the one that
is stored with the faults. -/
def DebounceCall.Under (config : DebounceConfig) : DebounceCall → Prop
  | .reportFaultEvent r => r.config = config
  | _ => True

section Run

variable {config : DebounceConfig} (hc : config.Valid) {init : InMemoryFaultStorage}

include hc

variable {st : InMemoryFaultStorage} {code : Str}

theorem step_inductive {call : DebounceCall} (hcall : call.Under config)
    (h : ∀ (code : Str) (state : FaultState), st.faults[code]? = some state →
      DebounceInductive config state.debounceCounter state.status) {after : FaultState}
    (hafter : ((debounceMachine init).step st call).1.faults[code]? = some after) :
    DebounceInductive config after.debounceCounter after.status := by
  cases call with
  | reportFaultEvent r =>
    obtain rfl : r.config = config := hcall
    simp only [debounceMachine, InMemoryFaultStorage.reportFaultEvent_faults] at hafter
    split at hafter
    · exact FaultState.afterReport_inductive hc (fun state hs => h code state hs) hafter
    · exact h code after hafter
  | clearFault cleared =>
    simp only [debounceMachine, InMemoryFaultStorage.clearFault_faults] at hafter
    split at hafter
    · obtain ⟨state, hs, rfl⟩ := Option.map_eq_some_iff.mp hafter
      exact ⟨⟨(h code state hs).in_band, by simp, by simp, by simp, by simp⟩, by simp, by simp⟩
    · exact h code after hafter
  | checkTimeBasedConfirmation t =>
    simp only [debounceMachine, InMemoryFaultStorage.checkTimeBasedConfirmation_faults] at hafter
    obtain ⟨state, hs, rfl⟩ := Option.map_eq_some_iff.mp hafter
    have hinv := h code state hs
    split
    · rename_i hdue
      have hprefailed : state.status = .prefailed := by
        have := hdue.2
        simp only [InMemoryFaultStorage.dueForConfirmation, Bool.and_eq_true,
          decide_eq_true_eq] at this
        exact this.1
      exact ⟨⟨hinv.in_band, by simp, by simp, by simp,
        fun _ => hinv.prefailed_open hprefailed⟩, by simp, by simp⟩
    · exact hinv

theorem step_latchExit {call : DebounceCall} (hcall : call.Under config) {before : FaultState}
    (hbefore : st.faults[code]? = some before)
    (hlatched : before.status = .confirmed ∨ before.status = .healed) :
    ∃ after, ((debounceMachine init).step st call).1.faults[code]? = some after ∧
      (after.status = before.status ∨ LatchExit config code call before after) := by
  cases call with
  | reportFaultEvent r =>
    obtain rfl : r.config = config := hcall
    simp only [debounceMachine, InMemoryFaultStorage.reportFaultEvent_faults]
    split
    · rename_i hcode
      subst hcode
      rw [hbefore]
      exact FaultState.afterReport_latchExit hc hlatched
    · exact ⟨before, hbefore, .inl rfl⟩
  | clearFault cleared =>
    simp only [debounceMachine, InMemoryFaultStorage.clearFault_faults]
    split
    · rename_i hcode
      subst hcode
      rw [hbefore]
      exact ⟨_, rfl, .inr (.cleared rfl)⟩
    · exact ⟨before, hbefore, .inl rfl⟩
  | checkTimeBasedConfirmation t =>
    simp only [debounceMachine, InMemoryFaultStorage.checkTimeBasedConfirmation_faults, hbefore,
      Option.map_some]
    refine ⟨_, rfl, .inl ?_⟩
    -- the timer looks at PREFAILED faults only
    have hpending : InMemoryFaultStorage.dueForConfirmation st.config t before = false := by
      rcases hlatched with h | h <;> simp [InMemoryFaultStorage.dueForConfirmation, h]
    simp [hpending]

theorem debounceInvariant_of_runs (hinit : init.faults = ∅)
    {h : List (Event InMemoryFaultStorage DebounceCall Unit)}
    (hr : (debounceMachine init).Runs (fun _ call => call.Under config) h st) {state : FaultState}
    (hstate : st.faults[code]? = some state) :
    DebounceInvariant config state.debounceCounter state.status := by
  have hinv := hr.invariant
    (fun _ st => ∀ (code : Str) (state : FaultState), st.faults[code]? = some state →
      DebounceInductive config state.debounceCounter state.status)
    (by simp [debounceMachine, hinit])
    (fun _ st call _ hcall hst code after => step_inductive hc hcall hst)
  exact (hinv code state hstate).toDebounceInvariant

omit hc in
theorem runs_reports (init : InMemoryFaultStorage) (reports : List FaultReport)
    (h : ∀ r ∈ reports, r.config = config) :
    ∃ events, (debounceMachine init).Runs (fun _ call => call.Under config) events
      (init.reportFaultEvents reports) := by
  induction reports using List.reverseRecOn with
  | nil => exact ⟨[], .start⟩
  | append_singleton reports r ih =>
    obtain ⟨events, hr⟩ := ih fun r hr => h r (List.mem_append_left _ hr)
    have hcall : (DebounceCall.reportFaultEvent r).Under config := h r (by simp)
    rw [InMemoryFaultStorage.reportFaultEvents, List.foldl_concat]
    exact ⟨_, hr.step (.reportFaultEvent r) hcall⟩

/-- Over every run the invariant holds, latched faults leave their status in the ways above
only, and no report leaves the type, exactly if neither threshold is an end of the type. -/
theorem debounce_joint_invariant (hinit : init.faults = ∅)
    (hconfirmation : InInt32 config.confirmationThreshold)
    (hhealing : InInt32 config.healingThreshold) :
    (∀ (h : List (Event InMemoryFaultStorage DebounceCall Unit)) (st : InMemoryFaultStorage),
      (debounceMachine init).Runs (fun _ call => call.Under config) h st →
      (∀ (code : Str) (state : FaultState), st.faults[code]? = some state →
        DebounceInvariant config state.debounceCounter state.status) ∧
      (∀ (call : DebounceCall) (code : Str) (before : FaultState), call.Under config →
        st.faults[code]? = some before →
        (before.status = .confirmed ∨ before.status = .healed) →
        ∃ after, ((debounceMachine init).step st call).1.faults[code]? = some after ∧
          (after.status = before.status ∨ LatchExit config code call before after)) ∧
      (∀ r : FaultReport, r.config = config → ∀ state ∈ st.faults[r.faultCode]?,
        ∀ n ∈ state.moved r, InInt32 n)) ↔
    config.Inner := by
  constructor
  · intro hsafe
    have hnone : init.faults[str "MOTOR"]? = none := by rw [hinit]; rfl
    refine inner_of_outages hc init hnone hconfirmation hhealing ?_
    intro eventType count
    obtain ⟨events, hr⟩ := runs_reports init (outage eventType config count)
      fun r hr => (config_of_mem_outage hr).1
    exact (hsafe _ _ hr).2.2 (motorReport eventType config) rfl
  · intro hinner h st hr
    refine ⟨fun code state hstate => debounceInvariant_of_runs hc hinit hr hstate,
      fun call code before hcall hbefore hlatched => step_latchExit hc hcall hbefore hlatched, ?_⟩
    rintro r rfl state _ n hn
    exact FaultState.inInt32_of_moved hc hinner hn

end Run

/-- Two FAILED reports under a threshold of −2 confirm a fault, and the PASSED
report that follows leaves it latched. -/
theorem debounce_joint_invariant_latched :
    let config : DebounceConfig := { confirmationThreshold := -2, healingEnabled := true }
    let failed := motorReport eventFailed config
    let passed := motorReport eventPassed config
    ∃ state, (InMemoryFaultStorage.reportFaultEvents {} [failed, failed, passed]).faults[
        str "MOTOR"]? = some state ∧
      state.status = .confirmed ∧
      DebounceInvariant config state.debounceCounter state.status := by
  intro config failed passed
  have hconfig : ∀ r ∈ [failed, failed, passed], r.config = config := by
    intro r hr
    simp only [List.mem_cons, List.not_mem_nil, or_false] at hr
    rcases hr with rfl | rfl | rfl <;> rfl
  obtain ⟨events, hr⟩ := runs_reports {} [failed, failed, passed] hconfig
  have hinv := ((debounce_joint_invariant ⟨by decide, by decide⟩ rfl ⟨by decide, by decide⟩
    ⟨by decide, by decide⟩).mpr ⟨by decide, by decide⟩ _ _ hr).1 (str "MOTOR")
  exact ⟨_, by rfl, by rfl, hinv _ (by rfl)⟩

/-- With the smallest `int32_t` as its confirmation threshold, a fault that has been reported
FAILED 2^31 times computes one less than that on a CRITICAL report. On wrap-around the counter
ends at the healing threshold, while the bypass makes the fault CONFIRMED. -/
theorem critical_report_wraps :
    let config : DebounceConfig :=
      { confirmationThreshold := -2147483648, healingEnabled := true }
    let critical := { motorReport eventFailed config with severity := severityCritical }
    config.Valid ∧
    ∃ (reports : List FaultReport) (state : FaultState), reports.length = 2147483648 ∧
      (∀ r ∈ reports, r.config = config) ∧
      (InMemoryFaultStorage.reportFaultEvents {} reports).faults[str "MOTOR"]? = some state ∧
      state.moved critical = some (-2147483649) ∧ ¬ InInt32 (-2147483649) ∧
      (state.failed critical).status = .confirmed ∧
      ¬ DebounceInvariant config
        (clampDebounceCounter (Int.bmod (-2147483649) 4294967296) config) .confirmed := by
  intro config critical
  have hvalid : config.Valid := ⟨by decide, by decide⟩
  obtain ⟨state, hstate, hmoved⟩ := moved_after_failed_row hvalid {} rfl 2147483647
  refine ⟨hvalid, outage eventFailed config 2147483647, state, ?_, ?_, hstate, ?_, ?_, ?_, ?_⟩
  · simp only [outage, List.length_cons, List.length_replicate]
  · exact fun r hr => (config_of_mem_outage hr).1
  · change state.moved (motorReport eventFailed config) = _
    rw [hmoved]
    rfl
  · rintro ⟨hlow, -⟩
    exact absurd hlow (by decide)
  · rw [FaultState.failed, FaultState.settle_eq]
    rfl
  · intro h
    have hcounter := h.confirmed rfl rfl
    rw [show Int.bmod (-2147483649) 4294967296 = 2147483647 by decide] at hcounter
    exact absurd hcounter (by decide)

end Medkit.FaultManager
