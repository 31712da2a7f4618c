import Medkit.Lib.Bytes
import Medkit.Lib.OrderedMap

/-! The lifecycle expectation tracker of the graph watchdog. Each tick it is given the nodes
that an entry of `require_active` matched, with their lifecycle labels, and moves two clocks
of each node: one for ticks with a label that is not active, one for ticks without a label.
Past its bound a clock makes the node content of one of three faults. -/
namespace Medkit.GraphWatchdog

open Lib

/-- The largest `int`, where tick counts stop. -/
def intMax : Int := 2 ^ 31 - 1

def kMaxNamedDepartedEntries : Nat := 3

def kDefaultObservationSettleTicks : Int := 6

def kMaxLifecycleLabelChars : Nat := 32

def kMaxLifecycleDetailChars : Nat := 150

def trimTo (text : Str) (maxChars : Nat) : Str :=
  if text.length ≤ maxChars then text
  else
    let kMarkerChars := 3
    let keep := if maxChars > kMarkerChars then maxChars - kMarkerChars else 0
    text.take keep ++ str "..."

/-! ## Observations -/

structure LifecycleMatch where
  entry : Str
  fqn : Str
  state : Option Str

inductive LifecycleObservedState where
  | active
  | inactive
  | unreadable
  | notManaged
deriving DecidableEq

def classifyObservedState : Option Str → LifecycleObservedState
  | none => .notManaged
  | some label =>
      if label = [] then .unreadable
      else if label = str "active" then .active else .inactive

def observedRank : LifecycleObservedState → Nat
  | .inactive => 3
  | .unreadable => 2
  | .notManaged => 1
  | .active => 0

inductive LifecycleUnmeasuredCause where
  | unreadable
  | notManaged
deriving DecidableEq

structure NodeTick where
  entries : List Str := []
  state : Option Str := none
deriving DecidableEq

/-- Several matches of one node are one record, with the most informative label. -/
def collectMatch (nodes : OMap Str NodeTick) (m : LifecycleMatch) : OMap Str NodeTick :=
  let node := nodes[m.fqn]?.getD {}
  let entries := if m.entry ∈ node.entries then node.entries else node.entries ++ [m.entry]
  let informative := m.fqn ∉ nodes ∨
    observedRank (classifyObservedState m.state) > observedRank (classifyObservedState node.state)
  nodes.insert m.fqn { entries := entries, state := if informative then m.state else node.state }

def collectMatches (ms : List LifecycleMatch) : OMap Str NodeTick := ms.foldl collectMatch ∅

/-! ## State of one node -/

structure NodeState where
  violationStreak : Int := 0
  unmeasuredClock : Int := 0
  unmeasuredMatured : Bool := false
  cause : LifecycleUnmeasuredCause := .unreadable
  settledObserved : LifecycleObservedState := .active
  everMeasured : Bool := false
  lastLabel : Str := []
  entries : List Str := []
  absentTicks : Int := 0
deriving DecidableEq

structure LifecycleSettings where
  requireActive : OSet Str := ∅
  grace : Int
  absenceGrace : Int := 3
  noMatchWarnTicks : Int := 10
  pruneTicks : Int := intMax
  unmeasuredHoldTicks : Int := 60
  trackedNodeCap : Int := 512

/-- The constructor takes a cap below one as one. -/
def LifecycleSettings.nodeCap (c : LifecycleSettings) : Nat :=
  if c.trackedNodeCap < 1 then 1 else c.trackedNodeCap.toNat

inductive Clock where
  | violation
  | unmeasured

namespace NodeState

variable (c : LifecycleSettings)

def isIdle (node : NodeState) : Bool :=
  node.violationStreak = 0 && node.unmeasuredClock = 0 && !node.unmeasuredMatured

def isContent (node : NodeState) : Bool :=
  node.unmeasuredMatured || node.violationStreak > c.grace

def isDeparted (node : NodeState) : Bool := node.absentTicks > c.absenceGrace

def releaseUncorroborated (node : NodeState) : NodeState :=
  if node.isContent c then node else { node with violationStreak := 0, unmeasuredClock := 0 }

/-- One tick of the violation streak; the clock if this tick takes it past its bound. -/
def advanceViolationStreak (node : NodeState) : NodeState × Option Clock :=
  if node.violationStreak > c.grace then (node, none)
  else
    ({ node with violationStreak := node.violationStreak + 1 },
      if node.violationStreak + 1 = c.grace + 1 then some .violation else none)

def advanceUnmeasuredClock (node : NodeState) : NodeState × Option Clock :=
  if node.unmeasuredMatured then (node, none)
  else
    let clock :=
      if node.unmeasuredClock ≤ c.unmeasuredHoldTicks then node.unmeasuredClock + 1
      else node.unmeasuredClock
    if clock = c.unmeasuredHoldTicks + 1 then
      ({ node with unmeasuredClock := clock, unmeasuredMatured := true, violationStreak := 0 },
        some .unmeasured)
    else ({ node with unmeasuredClock := clock }, none)

/-- A matured clock keeps the cause it matured with. -/
def withCause (node : NodeState) (cause : LifecycleUnmeasuredCause) : NodeState :=
  if node.unmeasuredMatured then node else { node with cause := cause }

/-- A measurement is overridden only once the spell is long enough. -/
def settle (node : NodeState) (state : LifecycleObservedState) : NodeState :=
  if !node.unmeasuredMatured &&
      (!node.everMeasured || node.unmeasuredClock ≥ kDefaultObservationSettleTicks) then
    { node with settledObserved := state }
  else node

def observeUnmeasured (node : NodeState) (state : LifecycleObservedState)
    (cause : LifecycleUnmeasuredCause) : NodeState × Option Clock :=
  let (node, crossed) := (node.withCause cause).advanceUnmeasuredClock c
  (node.settle state, crossed)

def observe (node : NodeState) (tick : NodeTick) : NodeState × Option Clock :=
  let node := { node with absentTicks := 0, entries := tick.entries }
  match classifyObservedState tick.state with
  | .active =>
      ({ node with
          violationStreak := 0
          unmeasuredClock := 0
          unmeasuredMatured := false
          lastLabel := []
          settledObserved := .active
          everMeasured := true },
        none)
  | .inactive =>
      { node with
          unmeasuredClock := 0
          unmeasuredMatured := false
          lastLabel := trimTo (tick.state.getD []) kMaxLifecycleLabelChars
          settledObserved := .inactive
          everMeasured := true : NodeState }.advanceViolationStreak c
  | .unreadable => node.observeUnmeasured c .unreadable .unreadable
  | .notManaged => node.observeUnmeasured c .notManaged .notManaged

def countAbsent (node : NodeState) : NodeState :=
  if node.absentTicks < intMax then { node with absentTicks := node.absentTicks + 1 } else node

/-- A tick on which the node was not matched; `owned` says whether the presence detector
tracks it. -/
def miss (node : NodeState) (owned : Bool) : NodeState × Option Clock :=
  let node := node.countAbsent
  if node.absentTicks > c.absenceGrace then
    match node.settledObserved with
    | .inactive =>
        let node := { node with unmeasuredClock := 0 }
        if node.isContent c || !owned then node.advanceViolationStreak c else (node, none)
    | .unreadable | .notManaged => node.advanceUnmeasuredClock c
    | .active => (node.releaseUncorroborated c, none)
  else (node, none)

def missed (node : NodeState) (owned : Bool) : Option NodeState :=
  let node := (node.miss c owned).1
  if node.absentTicks > c.pruneTicks && node.isIdle then none else some node

/-! ### What the node is content of -/

def inViolation (node : NodeState) : Bool :=
  !node.unmeasuredMatured && node.unmeasuredClock = 0 && node.violationStreak > c.grace

def inUnmeasured (cause : LifecycleUnmeasuredCause) (node : NodeState) : Bool :=
  node.unmeasuredMatured && node.cause = cause

def pendsViolation (node : NodeState) : Bool :=
  !node.unmeasuredMatured && node.violationStreak > 0 && !node.inViolation c

def pendsUnmeasured (node : NodeState) : Bool := !node.unmeasuredMatured && node.unmeasuredClock > 0

def joinQuoted (entries : List Str) : Str :=
  entries.foldl
    (fun joined entry =>
      (if joined = [] then joined else joined ++ str ", ") ++ str "'" ++ entry ++ str "'")
    []

def departedPhrase (departed : Bool) : Str :=
  if departed then str ", and has since left the graph" else []

def inactiveDetail (fqn : Str) (node : NodeState) : Str :=
  trimTo
    (str "node " ++ fqn ++ str " expected active but is " ++ node.lastLabel ++
      departedPhrase (node.isDeparted c) ++ str " (required by " ++ joinQuoted node.entries ++ str ")")
    kMaxLifecycleDetailChars

def unmeasuredDetail (fqn : Str) (node : NodeState) : Str :=
  trimTo
    ((match node.cause with
        | .unreadable =>
            str "node " ++ fqn ++ str " expected active but its lifecycle state could not be read"
        | .notManaged =>
            str "node " ++ fqn ++ str " expected active but is not a managed lifecycle node") ++
      departedPhrase (node.isDeparted c) ++ str " (required by " ++ joinQuoted node.entries ++ str ")")
    kMaxLifecycleDetailChars

end NodeState

/-! ## The tracker -/

structure LifecycleExpectationReport where
  affected : OMap Str Str := ∅
  newlyAffected : List Str := []
  unreadableAffected : OMap Str Str := ∅
  newlyUnreadable : List Str := []
  notManagedAffected : OMap Str Str := ∅
  newlyNotManaged : List Str := []
  pending : OSet Str := ∅
  pendingViolation : OSet Str := ∅
  pendingViolationDeparted : OSet Str := ∅
  pendingUnreadable : OSet Str := ∅
  pendingNotManaged : OSet Str := ∅
  entriesMatchingNothing : List Str := []
  trackingSaturated : Bool := false
  saturationStarted : Bool := false

structure LifecycleExpectationTracker where
  settings : LifecycleSettings
  nodes : OMap Str NodeState := ∅
  noMatch : OMap Str Int := ∅
  reportedNoMatch : OSet Str := ∅
  saturatedLastTick : Bool := false
  collapsedInactive : Nat := 0
  collapsedUnreadable : Nat := 0
  collapsedNotManaged : Nat := 0

namespace LifecycleExpectationTracker

/-! ### Slots -/

def countCollapsed (t : LifecycleExpectationTracker) (node : NodeState) :
    LifecycleExpectationTracker :=
  if node.unmeasuredMatured || node.unmeasuredClock > 0 then
    match node.cause with
    | .unreadable => { t with collapsedUnreadable := t.collapsedUnreadable + 1 }
    | .notManaged => { t with collapsedNotManaged := t.collapsedNotManaged + 1 }
  else if node.violationStreak > t.settings.grace then
    { t with collapsedInactive := t.collapsedInactive + 1 }
  else t

def collapse (t : LifecycleExpectationTracker) (fqn : Str) : LifecycleExpectationTracker :=
  match t.nodes[fqn]? with
  | none => t
  | some node => { t.countCollapsed node with nodes := t.nodes.erase fqn }

def namesWhere (nodes : OMap Str NodeState) (p : Str → NodeState → Bool) : List Str :=
  (nodes.toList.filter fun entry => p entry.1 entry.2).map Prod.fst

/-- Departed nodes go, the last names first, until `keepNamed` of them are left. -/
def collapseDeparted (t : LifecycleExpectationTracker) (keepNamed : Nat) :
    LifecycleExpectationTracker :=
  let departed := namesWhere t.nodes fun _ node => node.isDeparted t.settings
  (departed.drop keepNamed).reverse.foldl collapse t

def hasRoom (t : LifecycleExpectationTracker) : Bool := t.nodes.size < t.settings.nodeCap

def dropIdle (t : LifecycleExpectationTracker) : LifecycleExpectationTracker :=
  { t with nodes := OMap.keep (fun _ node => !node.isIdle) t.nodes }

def makeRoom (t : LifecycleExpectationTracker) : LifecycleExpectationTracker × Bool :=
  let t := t.dropIdle
  if t.hasRoom then (t, true)
  else
    let t := t.collapseDeparted kMaxNamedDepartedEntries
    if t.hasRoom then (t, true)
    else
      let t := t.collapseDeparted 0
      (t, t.hasRoom)

def track (t : LifecycleExpectationTracker) (fqn : Str) : LifecycleExpectationTracker × Bool :=
  let created (t : LifecycleExpectationTracker) := { t with nodes := t.nodes.insert fqn {} }
  if fqn ∈ t.nodes then (t, true)
  else if t.hasRoom then (created t, true)
  else
    let (t, room) := t.makeRoom
    if room then (created t, true) else (t, false)

/-! ### update -/

structure Sweep where
  tracker : LifecycleExpectationTracker
  saturated : Bool := false
  seen : OSet Str := ∅
  crossedViolation : OSet Str := ∅
  crossedUnmeasured : OSet Str := ∅

def Sweep.cross (s : Sweep) (fqn : Str) : Option Clock → Sweep
  | none => s
  | some .violation => { s with crossedViolation := s.crossedViolation.insert fqn }
  | some .unmeasured => { s with crossedUnmeasured := s.crossedUnmeasured.insert fqn }

def Sweep.matched (s : Sweep) (fqn : Str) (tick : NodeTick) : Sweep :=
  let (t, tracked) := s.tracker.track fqn
  if tracked then
    let (node, crossed) := (t.nodes[fqn]?.getD {}).observe t.settings tick
    { s with
      tracker := { t with nodes := t.nodes.insert fqn node }
      seen := s.seen.insert fqn : Sweep }.cross fqn crossed
  else { s with tracker := t, saturated := true }

/-- Whether the presence detector tracks the node; without a view nobody does. -/
def presenceOwns (presenceOwned : Option (OSet Str)) (fqn : Str) : Bool :=
  presenceOwned.any fun owned => owned.contains fqn

def Sweep.crossMissed (presenceOwned : Option (OSet Str)) (s : Sweep) (entry : Str × NodeState) :
    Sweep :=
  if s.seen.contains entry.1 then s
  else s.cross entry.1 (entry.2.miss s.tracker.settings (presenceOwns presenceOwned entry.1)).2

def Sweep.absence (s : Sweep) (presenceOwned : Option (OSet Str)) : Sweep :=
  { s.tracker.nodes.toList.foldl (Sweep.crossMissed presenceOwned) s with
    tracker :=
      { s.tracker with
        nodes := s.tracker.nodes.mapMaybe fun fqn node =>
          if s.seen.contains fqn then some node
          else node.missed s.tracker.settings (presenceOwns presenceOwned fqn) } }

def collapsedKey (leftAs : Str) : Str := str "!departed: " ++ leftAs

def addCollapsedContent (affected : OMap Str Str) (count : Nat) (leftAs : Str) : OMap Str Str :=
  if count = 0 then affected
  else
    affected.insert (collapsedKey leftAs)
      (trimTo
        (str "and " ++ decimal count ++ str " more required node(s) left the graph " ++ leftAs ++
          str "; not named individually (tracked_node_cap is full)")
        kMaxLifecycleDetailChars)

def newly (s : Sweep) (crossed : OSet Str) (p : NodeState → Bool) : List Str :=
  let t := s.tracker
  namesWhere t.nodes (fun fqn node => p node && crossed.contains fqn && !node.isDeparted t.settings) ++
    namesWhere t.nodes (fun fqn node => p node && crossed.contains fqn && node.isDeparted t.settings)

def content (nodes : OMap Str NodeState) (p : NodeState → Bool) (detail : Str → NodeState → Str) :
    OMap Str Str :=
  nodes.mapMaybe fun fqn node => if p node then some (detail fqn node) else none

def namesSet (nodes : OMap Str NodeState) (p : NodeState → Bool) : OSet Str :=
  Std.ExtTreeSet.ofList (namesWhere nodes fun _ node => p node) compare

def Sweep.report (s : Sweep) : LifecycleExpectationReport :=
  let t := s.tracker
  let c := t.settings
  { affected := addCollapsedContent
      (content t.nodes (·.inViolation c) (NodeState.inactiveDetail c))
      t.collapsedInactive (str "not active")
    newlyAffected := newly s s.crossedViolation (·.inViolation c)
    unreadableAffected := addCollapsedContent
      (content t.nodes (·.inUnmeasured .unreadable) (NodeState.unmeasuredDetail c))
      t.collapsedUnreadable (str "with an unread lifecycle state")
    newlyUnreadable := newly s s.crossedUnmeasured (·.inUnmeasured .unreadable)
    notManagedAffected := addCollapsedContent
      (content t.nodes (·.inUnmeasured .notManaged) (NodeState.unmeasuredDetail c))
      t.collapsedNotManaged (str "unmanaged")
    newlyNotManaged := newly s s.crossedUnmeasured (·.inUnmeasured .notManaged)
    pending := namesSet t.nodes fun node => node.pendsViolation c || node.pendsUnmeasured
    pendingViolation := namesSet t.nodes (·.pendsViolation c)
    pendingViolationDeparted := namesSet t.nodes fun node =>
      node.pendsViolation c && node.isDeparted c
    pendingUnreadable := namesSet t.nodes fun node =>
      node.pendsUnmeasured && node.cause = .unreadable
    pendingNotManaged := namesSet t.nodes fun node =>
      node.pendsUnmeasured && node.cause = .notManaged
    trackingSaturated := s.saturated
    saturationStarted := s.saturated && !t.saturatedLastTick }

/-- The entries that match nothing are counted, and each is reported once. -/
def noMatchStep (matched : List Str) (state : LifecycleExpectationTracker × List Str) (entry : Str) :
    LifecycleExpectationTracker × List Str :=
  let (t, reported) := state
  if entry ∈ matched then ({ t with noMatch := t.noMatch.insert entry 0 }, reported)
  else
    let count := t.noMatch[entry]?.getD 0 + 1
    let t := { t with noMatch := t.noMatch.insert entry count }
    if count > t.settings.noMatchWarnTicks ∧ entry ∉ t.reportedNoMatch then
      ({ t with reportedNoMatch := t.reportedNoMatch.insert entry }, reported ++ [entry])
    else (t, reported)

def sweepMatched (t : LifecycleExpectationTracker) (ms : List LifecycleMatch) : Sweep :=
  (collectMatches ms).toList.foldl (fun (s : Sweep) entry => s.matched entry.1 entry.2)
    { tracker := t }

def sweep (t : LifecycleExpectationTracker) (ms : List LifecycleMatch)
    (presenceOwned : Option (OSet Str)) : Sweep :=
  (t.sweepMatched ms).absence presenceOwned

def update (t : LifecycleExpectationTracker) (ms : List LifecycleMatch)
    (presenceOwned : Option (OSet Str)) :
    LifecycleExpectationTracker × LifecycleExpectationReport :=
  let s := t.sweep ms presenceOwned
  let (t, unmatched) := t.settings.requireActive.toList.foldl (noMatchStep (ms.map (·.entry)))
    ({ s.tracker with saturatedLastTick := s.saturated }, [])
  (t, { s.report with entriesMatchingNothing := unmatched })

end LifecycleExpectationTracker

end Medkit.GraphWatchdog
