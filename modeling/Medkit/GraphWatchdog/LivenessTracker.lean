import Medkit.Lib.OrderedMap
import Medkit.GraphWatchdog.LifecycleTracker

/-! The presence tracker of the graph watchdog. A key that was armed once is watched from then
on; it is reported dead once it has missed more than `miss_grace` updates in a row. What is
kept about departed keys is bounded: confirmed deaths are folded into one count. -/
namespace Medkit.GraphWatchdog

open Lib

structure LivenessSettings where
  missGrace : Int
  pruneTicks : Int := intMax
  trackedKeyCap : Int := 512

/-- The constructor takes a cap below one as one. -/
def LivenessSettings.keyCap (c : LivenessSettings) : Nat :=
  if c.trackedKeyCap < 1 then 1 else c.trackedKeyCap.toNat

structure NodeDeathReport where
  dead : OMap Str Str := ∅
  keysByFreshness : List Str := []
  trackingSaturated : Bool := false
  saturationStarted : Bool := false

structure NodeLivenessTracker where
  settings : LivenessSettings
  known : OSet Str := ∅
  misses : OMap Str Int := ∅
  suppressedStreak : OMap Str Int := ∅
  saturatedLastTick : Bool := false
  collapsedDeadCount : Nat := 0

namespace NodeLivenessTracker

def kCollapsedKey : Str := str "!collapsed"

def release (t : NodeLivenessTracker) (key : Str) : NodeLivenessTracker :=
  { t with
    known := t.known.erase key
    misses := t.misses.erase key
    suppressedStreak := t.suppressedStreak.erase key }

/-! ## The cap on departed keys -/

def departedCount (t : NodeLivenessTracker) : Nat :=
  (t.misses.toList.filter fun entry => entry.2 > 0).length

def collapse (t : NodeLivenessTracker) (key : Str) : NodeLivenessTracker :=
  { t.release key with collapsedDeadCount := t.collapsedDeadCount + 1 }

/-- Confirmed deaths are folded into the count, the last names first, until `keepNamed` of
them are left. -/
def collapseMatured (t : NodeLivenessTracker) (keepNamed : Nat) : NodeLivenessTracker :=
  let matured := (t.misses.toList.filter fun entry => entry.2 > t.settings.missGrace).map Prod.fst
  (matured.drop keepNamed).reverse.foldl collapse t

/-- Whether the departed keys are still more than the cap. -/
def enforceDepartedCap (t : NodeLivenessTracker) : NodeLivenessTracker × Bool :=
  if t.departedCount ≤ t.settings.keyCap then (t, false)
  else
    let t := t.collapseMatured kMaxNamedDepartedEntries
    if t.departedCount ≤ t.settings.keyCap then (t, false)
    else
      let t := t.collapseMatured 0
      (t, t.departedCount > t.settings.keyCap)

/-! ## update -/

def admitArmed (t : NodeLivenessTracker) (armed : OSet Str) : NodeLivenessTracker :=
  { t with known := armed.toList.foldl (fun known key => known.insert key) t.known }

def countMisses (t : NodeLivenessTracker) (present : OSet Str) : NodeLivenessTracker :=
  { t with
    misses := t.known.toList.foldl
      (fun misses key =>
        misses.insert key (if present.contains key then 0 else misses[key]?.getD 0 + 1))
      t.misses }

def deadDetail (key : Str) (misses : Int) : Str :=
  str "node " ++ key ++ str " disappeared (" ++ intDecimal misses ++ str " missed cycles)"

def collapsedDetail (count : Nat) : Str :=
  str "and " ++ decimal count ++
    str " more node(s) disappeared; not named individually (tracked_key_cap is full)"

def byMissCount (t : NodeLivenessTracker) : List (Int × Str) :=
  t.known.toList.filterMap fun key =>
    let misses := t.misses[key]?.getD 0
    if misses > t.settings.missGrace then some (misses, key) else none

/-- Fewest misses first, ties by key. -/
def fresher (a b : Int × Str) : Bool :=
  a.1 < b.1 || (a.1 = b.1 && (compare a.2 b.2).isLE)

def report (t : NodeLivenessTracker) (saturated : Bool) : NodeDeathReport :=
  let named := t.byMissCount
  let dead := named.foldl (fun dead entry => dead.insert entry.2 (deadDetail entry.2 entry.1)) ∅
  let sorted := (named.mergeSort fresher).map Prod.snd
  { dead :=
      if t.collapsedDeadCount > 0 then
        dead.insert kCollapsedKey (collapsedDetail t.collapsedDeadCount)
      else dead
    keysByFreshness := if t.collapsedDeadCount > 0 then kCollapsedKey :: sorted else sorted
    trackingSaturated := saturated
    saturationStarted := saturated && !t.saturatedLastTick }

def update (t : NodeLivenessTracker) (present armed : OSet Str) :
    NodeLivenessTracker × NodeDeathReport :=
  let (t, saturated) := ((t.admitArmed armed).countMisses present).enforceDepartedCap
  ({ t with saturatedLastTick := saturated }, t.report saturated)

/-! ## prune -/

def nextStreak (suppressed : OSet Str) (key : Str) (streak : Option Int) : Int :=
  if suppressed.contains key then streak.getD 0 + 1 else 0

def pruneKey (suppressed : OSet Str) (t : NodeLivenessTracker) (key : Str) : NodeLivenessTracker :=
  let streak := nextStreak suppressed key t.suppressedStreak[key]?
  if streak > t.settings.pruneTicks then t.release key
  else { t with suppressedStreak := t.suppressedStreak.insert key streak }

def prune (t : NodeLivenessTracker) (suppressed : OSet Str) : NodeLivenessTracker :=
  t.known.toList.foldl (pruneKey suppressed) t

end NodeLivenessTracker

end Medkit.GraphWatchdog
