import Mathlib.Algebra.Ring.Int.Defs
import Mathlib.Tactic.Common

/-! How much history the rosbag ring buffer has had: the bound that the capture puts on the age of
its oldest message. -/
namespace Medkit.FaultManager

/-! ## Signed 64-bit arithmetic -/

/-- The machine value of an exact integer. A value that does not fit is a signed overflow, which is
undefined, and a computation that has one returns nothing. -/
def int64? (integer : Int) : Option Int64 :=
  if Int64.minValue.toInt ≤ integer ∧ integer ≤ Int64.maxValue.toInt then some (Int64.ofInt integer)
  else none

def addInt64 (lhs rhs : Int64) : Option Int64 := int64? (lhs.toInt + rhs.toInt)

def subInt64 (lhs rhs : Int64) : Option Int64 := int64? (lhs.toInt - rhs.toInt)

/-- Clamping is undefined when the upper bound is below the lower one. -/
def clampInt64 (value low high : Int64) : Option Int64 :=
  if high < low then none
  else some (if value < low then low else if high < value then high else value)

def saturate (integer : Int) : Int :=
  max Int64.minValue.toInt (min integer Int64.maxValue.toInt)

/-! ## The bound -/

/-- The right operand of a conjunction is computed only when the left one holds. -/
def andThen (left : Bool) (right : Option Bool) : Option Bool := if left then right else some false

def difference (lhs rhs : Int64) : Option Int64 := do
  let kMax := Int64.maxValue
  let kMin := Int64.minValue
  if ← andThen (rhs < 0) ((addInt64 kMax rhs).map (lhs > ·)) then return kMax
  if ← andThen (rhs > 0) ((addInt64 kMin rhs).map (lhs < ·)) then return kMin
  subInt64 lhs rhs

def boundedHistoryNs (nowWallNs oldestMsgWallNs nowSteadyNs captureStartedSteadyNs : Int64) :
    Option Int64 := do
  let uptimeNs := max 0 (← difference nowSteadyNs captureStartedSteadyNs)
  clampInt64 (← difference nowWallNs oldestMsgWallNs) 0 uptimeNs

/-! ## What the bound computes -/

theorem int64_range (value : Int64) :
    -9223372036854775808 ≤ value.toInt ∧ value.toInt ≤ 9223372036854775807 := by
  have least := Int64.le_toInt value
  have greatest := Int64.toInt_lt value
  omega

theorem exists_int64? (integer : Int) (least : -9223372036854775808 ≤ integer)
    (greatest : integer ≤ 9223372036854775807) :
    ∃ value, int64? integer = some value ∧ value.toInt = integer := by
  use Int64.ofInt integer
  unfold int64?
  rw [if_pos ⟨least, greatest⟩, Int64.toInt_ofInt_of_le least (by omega)]
  trivial

theorem above_eq (lhs rhs : Int64) :
    andThen (rhs < 0) ((addInt64 Int64.maxValue rhs).map (lhs > ·)) =
      some (decide (9223372036854775807 < lhs.toInt - rhs.toInt)) := by
  have hl := int64_range lhs
  have hr := int64_range rhs
  have greatest : Int64.maxValue.toInt = 9223372036854775807 := rfl
  have sign : rhs < 0 ↔ rhs.toInt < 0 := Int64.lt_iff_toInt_lt
  unfold andThen
  by_cases negative : rhs.toInt < 0
  · obtain ⟨limit, added, hlimit⟩ :=
      exists_int64? (Int64.maxValue.toInt + rhs.toInt) (by omega) (by omega)
    rw [if_pos (decide_eq_true (sign.mpr negative)), addInt64, added, Option.map_some]
    congr 1
    apply decide_eq_decide.mpr
    rw [gt_iff_lt, Int64.lt_iff_toInt_lt]
    omega
  · rw [if_neg (by simpa [sign] using negative), decide_eq_false (by omega)]

theorem below_eq (lhs rhs : Int64) :
    andThen (rhs > 0) ((addInt64 Int64.minValue rhs).map (lhs < ·)) =
      some (decide (lhs.toInt - rhs.toInt < -9223372036854775808)) := by
  have hl := int64_range lhs
  have hr := int64_range rhs
  have least : Int64.minValue.toInt = -9223372036854775808 := rfl
  have sign : rhs > 0 ↔ 0 < rhs.toInt := Int64.lt_iff_toInt_lt
  unfold andThen
  by_cases positive : 0 < rhs.toInt
  · obtain ⟨limit, added, hlimit⟩ :=
      exists_int64? (Int64.minValue.toInt + rhs.toInt) (by omega) (by omega)
    rw [if_pos (decide_eq_true (sign.mpr positive)), addInt64, added, Option.map_some]
    congr 1
    apply decide_eq_decide.mpr
    rw [Int64.lt_iff_toInt_lt]
    omega
  · rw [if_neg (by simpa [sign] using positive), decide_eq_false (by omega)]

theorem exists_difference (lhs rhs : Int64) :
    ∃ value, difference lhs rhs = some value ∧
      value.toInt = saturate (lhs.toInt - rhs.toInt) := by
  have greatest : Int64.maxValue.toInt = 9223372036854775807 := rfl
  have least : Int64.minValue.toInt = -9223372036854775808 := rfl
  unfold difference saturate
  simp only [above_eq, below_eq, Option.bind_eq_bind, Option.bind_some]
  by_cases above : 9223372036854775807 < lhs.toInt - rhs.toInt
  · use Int64.maxValue
    rw [if_pos (decide_eq_true above)]
    exact ⟨rfl, by omega⟩
  by_cases below : lhs.toInt - rhs.toInt < -9223372036854775808
  · use Int64.minValue
    rw [if_neg (by simpa using above), if_pos (decide_eq_true below)]
    exact ⟨rfl, by omega⟩
  · obtain ⟨value, subtracted, hvalue⟩ :=
      exists_int64? (lhs.toInt - rhs.toInt) (by omega) (by omega)
    use value
    rw [if_neg (by simpa using above), if_neg (by simpa using below)]
    exact ⟨subtracted, by omega⟩

theorem exists_clampInt64 (value low high : Int64) (ordered : low.toInt ≤ high.toInt) :
    ∃ clamped, clampInt64 value low high = some clamped ∧
      clamped.toInt = max low.toInt (min value.toInt high.toInt) := by
  unfold clampInt64
  rw [if_neg (by rw [Int64.lt_iff_toInt_lt]; omega)]
  refine ⟨_, rfl, ?_⟩
  simp only [Int64.lt_iff_toInt_lt]
  split_ifs <;> omega

/-- For all values of the two clocks, the history is computed without an overflow, between bounds
that are in order, and it is what exact integers give. -/
theorem bounded_history_exact
    (nowWallNs oldestMsgWallNs nowSteadyNs captureStartedSteadyNs : Int64) :
    (boundedHistoryNs nowWallNs oldestMsgWallNs nowSteadyNs captureStartedSteadyNs).map
        Int64.toInt =
      some (min (2 ^ 63 - 1) (max 0 (min (nowWallNs.toInt - oldestMsgWallNs.toInt)
        (max 0 (nowSteadyNs.toInt - captureStartedSteadyNs.toInt))))) := by
  obtain ⟨steady, hsteady, steadyExact⟩ := exists_difference nowSteadyNs captureStartedSteadyNs
  obtain ⟨wall, hwall, wallExact⟩ := exists_difference nowWallNs oldestMsgWallNs
  have uptime : (max 0 steady).toInt = max 0 steady.toInt := by
    have sign : 0 ≤ steady ↔ 0 ≤ steady.toInt := Int64.le_iff_toInt_le
    change (if 0 ≤ steady then steady else 0).toInt = _
    by_cases nonneg : 0 ≤ steady.toInt
    · rw [if_pos (sign.mpr nonneg), Int.max_eq_right nonneg]
    · rw [if_neg fun h => nonneg (sign.mp h), Int.max_eq_left (by omega), Int64.toInt_zero]
  obtain ⟨history, hhistory, clamped⟩ :=
    exists_clampInt64 wall 0 (max 0 steady) (by rw [uptime]; exact Int.le_max_left 0 _)
  unfold boundedHistoryNs
  simp only [hsteady, hwall, hhistory, Option.bind_eq_bind, Option.bind_some, Option.map_some]
  rw [clamped, uptime, steadyExact, wallExact]
  unfold saturate
  have greatest : Int64.maxValue.toInt = 9223372036854775807 := rfl
  have least : Int64.minValue.toInt = -9223372036854775808 := rfl
  have zero : (0 : Int64).toInt = 0 := Int64.toInt_zero
  congr 1
  omega

end Medkit.FaultManager
