import Medkit.Opcua.AlarmConditions

/-! Notifications without a readable `ActiveState`. The table does not store the activity that a
condition reported last; it is read off the status, which knows less. -/
namespace Medkit.Opcua

open Lib Std

def tableAfter (history : List Observation) : Conditions :=
  history.foldl (fun conditions call => (applyConditionState conditions call).1) ∅

/-- The last `ActiveState` that the condition reported. Events of historical branches are not about
its present state. -/
def lastActiveState (history : List Observation) (conditionId : Str) : Bool :=
  history.foldl (fun last call =>
    if call.conditionId = conditionId ∧ call.input.activeStatePresent ∧ !call.input.branchIdPresent
    then call.input.activeState else last) false

def Observation.carrying (call : Observation) (active : Bool) : Observation :=
  { call with input := { call.input with activeState := active, activeStatePresent := true } }

def AlarmEventInput.Masked (input : AlarmEventInput) : Prop :=
  input.branchIdPresent = true ∨ input.enabledState = false ∨ input.shelved = true
deriving Decidable

namespace AlarmStateMachine

variable (prev : SovdAlarmStatus) {input : AlarmEventInput} (requireConfirm : Bool)

theorem compute_of_masked (h : input.Masked) (active present : Bool) :
    compute prev { input with activeState := active, activeStatePresent := present }
      requireConfirm = compute prev input requireConfirm := by
  unfold compute
  rcases h with h | h | h <;> simp [h]

theorem nextStatus_of_masked (h : input.Masked) :
    (compute prev input requireConfirm).nextStatus = prev ∨
      (compute prev input requireConfirm).nextStatus = .cleared ∨
      (compute prev input requireConfirm).nextStatus = .suppressed := by
  unfold compute suppress
  rcases h with h | h | h <;> simp [h] <;> split_ifs <;> simp

theorem nextStatus_of_live (h : ¬ input.Masked) :
    (compute prev input requireConfirm).nextStatus = .confirmed ↔ input.activeState = true := by
  simp only [AlarmEventInput.Masked, not_or, Bool.not_eq_true, Bool.not_eq_false] at h
  cases hactive : input.activeState with
  | true => simp [compute_of_raised h.1 h.2.1 h.2.2 hactive]
  | false =>
    simp only [compute, h, hactive]
    cases prev <;> simp <;> split_ifs <;> simp

end AlarmStateMachine

section Silent

variable (conditions : Conditions) {call : Observation}

theorem applyConditionState_carrying {active : Bool}
    (h : outcome conditions call = outcome conditions (call.carrying active)) :
    applyConditionState conditions call =
      applyConditionState conditions (call.carrying active) := by
  simp only [applyConditionState, advanced, withheld, delivery, h]
  rfl

theorem nextStatus_eq_of_applyConditionState {active : Bool}
    (h : applyConditionState conditions call =
      applyConditionState conditions (call.carrying active)) :
    (outcome conditions call).nextStatus =
      (outcome conditions (call.carrying active)).nextStatus := by
  have hget := congrArg (fun result => result.1[call.conditionId]?) h
  simp only [applyConditionState, Observation.carrying, ExtTreeMap.getElem?_insert_self] at hget
  exact congrArg ConditionRuntime.lastStatus (Option.some.inj hget)

theorem outcome_of_silent (hsilent : call.input.activeStatePresent = false) :
    outcome conditions call = AlarmStateMachine.compute (observed conditions call).lastStatus
      { call.input with activeState := (observed conditions call).lastStatus.wasActive }
      call.requireConfirmForClear := by
  simp [outcome, effectiveInput, hsilent]

end Silent

open AlarmStateMachine in
/-- A notification without a readable `ActiveState` acts as the same one with the last that the
condition reported, and neither raises a healed or cleared alarm nor heals a confirmed one, exactly
if the activity does not matter or the status tells it. -/
theorem silent_notification_iff (history : List Observation) (call : Observation)
    (hsilent : call.input.activeStatePresent = false) :
    let conditions := tableAfter history
    let prev := (observed conditions call).lastStatus
    let next := (outcome conditions call).nextStatus
    let active := lastActiveState history call.conditionId
    (applyConditionState conditions call = applyConditionState conditions (call.carrying active) ∧
      (prev = .healed ∨ prev = .cleared → next ≠ .confirmed) ∧
      (prev = .confirmed → next ≠ .healed)) ↔
    call.input.Masked ∨ (prev ≠ .healed ∧ (prev = .confirmed ↔ active = true)) := by
  intro conditions prev next active
  have hnext := outcome_of_silent conditions hsilent
  have hcarried : outcome conditions (call.carrying active) = compute prev
      { call.input with activeState := active, activeStatePresent := true }
      call.requireConfirmForClear := rfl
  by_cases hmasked : call.input.Masked
  · have hsame : outcome conditions call = compute prev call.input call.requireConfirmForClear :=
      hnext.trans (compute_of_masked _ _ hmasked _ _)
    refine iff_of_true ⟨applyConditionState_carrying _ ?_, ?_⟩ (.inl hmasked)
    · rw [hsame, hcarried]
      exact (compute_of_masked _ _ hmasked _ _).symm
    · have hstatus := nextStatus_of_masked prev call.requireConfirmForClear hmasked
      rw [← hsame] at hstatus
      grind
  · rw [or_iff_right hmasked]
    have hguess : next = .confirmed ↔ prev.wasActive = true := by
      simp only [next, hnext]
      exact nextStatus_of_live prev _ hmasked
    have hreal : (outcome conditions (call.carrying active)).nextStatus = .confirmed ↔
        active = true := nextStatus_of_live prev _ hmasked
    rw [SovdAlarmStatus.wasActive_iff] at hguess
    constructor
    · rintro ⟨hsame, hraised, -⟩
      rw [← nextStatus_eq_of_applyConditionState _ hsame] at hreal
      grind
    · rintro ⟨hhealed, hactive⟩
      have hstatus : prev.wasActive = active := by
        rw [Bool.eq_iff_iff, SovdAlarmStatus.wasActive_iff, ← hactive]
        grind
      refine ⟨applyConditionState_carrying _ ?_, by grind, by grind⟩
      rw [hnext, hcarried, ← hstatus]
      rfl

def note (input : AlarmEventInput) : Observation where
  cfg := { sourceNodeIdStr := str "plc", faultCode := str "F" }
  conditionId := str "c"
  input := input

theorem silent_notification_iff_of_confirmed :
    let history := [note { activeState := true }]
    let silent := note { activeStatePresent := false }
    (observed (tableAfter history) silent).lastStatus = .confirmed ∧
      applyConditionState (tableAfter history) silent =
        applyConditionState (tableAfter history) (silent.carrying true) :=
  ⟨by decide, ((silent_notification_iff [note { activeState := true }] _ rfl).mpr
    (.inr (by decide))).1⟩

/-- An alarm that was raised and went inactive without an acknowledgement is raised again by a
notification without an `ActiveState`. -/
theorem healed_alarm_raised_again :
    let history := [note { activeState := true }, note { activeState := false }]
    let silent := note { activeStatePresent := false }
    lastActiveState history silent.conditionId = false ∧
      (observed (tableAfter history) silent).lastStatus = .healed ∧
      (applyConditionState (tableAfter history) silent).2.map (·.action) = some .reportConfirmed ∧
      (applyConditionState (tableAfter history) (silent.carrying false)).2 = none := by
  decide

end Medkit.Opcua
