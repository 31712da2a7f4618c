import Medkit.Lib.Bytes

/-! The debounce state machine that both storage backends share. The counter and
the thresholds are `int32_t` in the source and integers here. A clamped counter stays
between the thresholds, so the `± 1` of a report leaves the type only for a threshold at
its very edge; results about whole runs say that it does not. -/
namespace Medkit.FaultManager

open Lib

/-- The status constants of `Fault.msg`. A fault state that was never updated
carries the empty string, `unset`. -/
inductive FaultStatus where
  | unset
  | prefailed
  | prepassed
  | confirmed
  | healed
  | cleared
deriving DecidableEq, Repr

def FaultStatus.text : FaultStatus → Str
  | .unset => []
  | .prefailed => str "PREFAILED"
  | .prepassed => str "PREPASSED"
  | .confirmed => str "CONFIRMED"
  | .healed => str "HEALED"
  | .cleared => str "CLEARED"

def severityCritical : Byte := 3

def eventFailed : Byte := 0
def eventPassed : Byte := 1

structure DebounceConfig where
  confirmationThreshold : Int := -1
  healingEnabled : Bool := false
  healingThreshold : Int := 3
  criticalImmediateConfirm : Bool := true
  autoConfirmAfterSec : Float := 0.0

/-- What `sanitize_debounce_config` enforces on a merged configuration. -/
structure DebounceConfig.Valid (config : DebounceConfig) : Prop where
  confirmation_neg : config.confirmationThreshold < 0
  healing_nonneg : 0 ≤ config.healingThreshold

def clampDebounceCounter (counter : Int) (config : DebounceConfig) : Int :=
  if counter < config.confirmationThreshold then config.confirmationThreshold
  else if counter > config.healingThreshold then config.healingThreshold
  else counter

def computeDebounceStatus (counter : Int) (currentStatus : FaultStatus)
    (config : DebounceConfig) : FaultStatus :=
  if counter ≤ config.confirmationThreshold then .confirmed
  else if config.healingEnabled && counter ≥ config.healingThreshold then .healed
  -- hysteresis latch: only the opposite threshold, tested above, moves these two
  else if currentStatus = .confirmed ∨ currentStatus = .healed then currentStatus
  else if counter < 0 then .prefailed
  else if counter > 0 then .prepassed
  else currentStatus

def isNearMiss (isFailedEvent : Bool) (resultingStatus : FaultStatus) : Bool :=
  isFailedEvent && resultingStatus ≠ .confirmed

def sanitizeDebounceConfig (config : DebounceConfig) : DebounceConfig × Bool :=
  let lowered := decide (config.confirmationThreshold ≥ 0)
  let raised := decide (config.healingThreshold < 0)
  ({ config with
      confirmationThreshold := if lowered then -1 else config.confirmationThreshold
      healingThreshold := if raised then 3 else config.healingThreshold },
    !lowered && !raised)

def bypassesDebounce (config : DebounceConfig) (severity : Byte) : Bool :=
  config.criticalImmediateConfirm && severity = severityCritical

theorem sanitizeDebounceConfig_valid (config : DebounceConfig) :
    (sanitizeDebounceConfig config).1.Valid := by
  constructor
  all_goals
    simp only [sanitizeDebounceConfig, decide_eq_true_eq]
    split <;> omega

theorem clamp_of_mem {config : DebounceConfig} {counter : Int}
    (hlow : config.confirmationThreshold ≤ counter) (hhigh : counter ≤ config.healingThreshold) :
    clampDebounceCounter counter config = counter := by
  unfold clampDebounceCounter
  rw [if_neg (by omega), if_neg (by omega)]

section

variable {config : DebounceConfig} (hc : config.Valid)

include hc

theorem clamp_mem (counter : Int) :
    config.confirmationThreshold ≤ clampDebounceCounter counter config ∧
      clampDebounceCounter counter config ≤ config.healingThreshold := by
  obtain ⟨hneg, hnonneg⟩ := hc
  unfold clampDebounceCounter
  split_ifs <;> omega

theorem clamp_neg_one : clampDebounceCounter (-1) config = -1 :=
  clamp_of_mem (by have := hc.confirmation_neg; omega) (by have := hc.healing_nonneg; omega)

theorem clamp_pred_lt {counter : Int} (h : counter ≤ config.healingThreshold) :
    clampDebounceCounter (counter - 1) config < config.healingThreshold := by
  obtain ⟨hneg, hnonneg⟩ := hc
  unfold clampDebounceCounter
  split_ifs <;> omega

end

end Medkit.FaultManager
