import Medkit.Lib.Bytes
import Medkit.Lib.Machine
import Medkit.Lib.OrderedMap

/-! The log manager's ring buffers. Entries come from the log source, from tests and from
triggers, and each node name gets a buffer of its own. -/
namespace Medkit.Gateway

open Lib

structure LogEntry where
  id : Int := 0
  stampSec : Int := 0
  stampNanosec : Nat := 0
  level : Nat
  /-- the logger's name, without a leading slash -/
  name : Str
  msg : Str := []
  function : Str := []
  file : Str := []
  line : Nat := 0

structure LogManager where
  maxBufferSize : Nat
  buffers : OMap Str (List LogEntry) := ∅
  /-- names a warning was emitted for -/
  droppedNodes : OSet Str := ∅
  droppedTotal : Nat := 0
  nextId : Int := 1

namespace LogManager

def severityToLevel (severity : Str) : Nat :=
  if severity = str "debug" then 10
  else if severity = str "info" then 20
  else if severity = str "warning" then 30
  else if severity = str "error" then 40
  else if severity = str "fatal" then 50
  else 0

def normalizeFqn : Str → Str
  | 47 :: rest => rest
  | fqn => fqn

/-- `max_buffer_size_ * 10`, a `size_t`. -/
def bufferCap (m : LogManager) : Nat := m.maxBufferSize * 10 % 2 ^ 64

def push (m : LogManager) (entry : LogEntry) : LogManager :=
  let buf := (m.buffers[entry.name]?).getD [] ++ [entry]
  { m with
    buffers := m.buffers.insert entry.name
      (if buf.length > m.maxBufferSize then buf.tail else buf) }

/-- The entry is buffered, or dropped if it needs a buffer too many. The text is a warning. -/
def pushCapped (m : LogManager) (entry : LogEntry) : LogManager × Option Str :=
  if entry.name ∉ m.buffers ∧ m.bufferCap ≤ m.buffers.size then
    ({ m with
        droppedTotal := m.droppedTotal + 1
        droppedNodes := m.droppedNodes.insert entry.name },
      if entry.name ∈ m.droppedNodes then none
      else some (str "LogManager: dropping log entries from new node '" ++ entry.name ++
        str "' - distinct-node buffer cap reached (" ++ decimal m.bufferCap ++ str ")"))
  else (m.push entry, none)

/-- `suppressBuffer` is the answer of the observing providers. -/
def onLogEntry (m : LogManager) (source : LogEntry) (suppressBuffer : Bool) :
    LogManager × Option Str :=
  let stamped := { m with nextId := m.nextId + 1 }
  if suppressBuffer then (stamped, none)
  else stamped.pushCapped { source with id := m.nextId }

def injectEntryForTesting (m : LogManager) (entry : LogEntry) : LogManager × Option Str :=
  m.pushCapped entry

/-- `metadata` is the text of a non-empty object; `now` is the wall clock. -/
def addLogEntry (m : LogManager) (entityId severity message : Str) (metadata : Option Str)
    (now : Int × Nat) : LogManager :=
  let level := severityToLevel severity
  let entry : LogEntry :=
    { id := m.nextId
      stampSec := now.1
      stampNanosec := now.2
      level := if level = 0 then 20 else level
      name := normalizeFqn entityId
      msg := message ++ (metadata.elim [] fun text => str " " ++ text) }
  { m with nextId := m.nextId + 1 }.push entry

end LogManager

inductive LogCall where
  | onLogEntry (source : LogEntry) (suppressBuffer : Bool)
  | injectEntryForTesting (entry : LogEntry)
  | addLogEntry (entityId severity message : Str) (metadata : Option Str) (now : Int × Nat)

def logMachine (maxBufferSize : Nat) : Machine LogManager LogCall (Option Str) where
  init := { maxBufferSize }
  step m
    | .onLogEntry source suppressBuffer => m.onLogEntry source suppressBuffer
    | .injectEntryForTesting entry => m.injectEntryForTesting entry
    | .addLogEntry entityId severity message metadata now =>
        (m.addLogEntry entityId severity message metadata now, none)

/-! ## Bounds -/

def LogCall.bufferName : LogCall → Option Str
  | .onLogEntry source suppressBuffer => if suppressBuffer then none else some source.name
  | .injectEntryForTesting entry => some entry.name
  | .addLogEntry entityId _ _ _ _ => some (LogManager.normalizeFqn entityId)

def LogCall.HasRoom (m : LogManager) (call : LogCall) : Prop :=
  ∀ name ∈ call.bufferName, name ∈ m.buffers ∨ m.buffers.size < m.bufferCap
deriving Decidable

namespace LogManager

structure Bounded (maxBufferSize : Nat) (m : LogManager) : Prop where
  buffers : m.buffers.size ≤ 10 * maxBufferSize
  entries : ∀ (name : Str) (buf : List LogEntry), m.buffers[name]? = some buf →
    buf.length ≤ maxBufferSize
  names : m.buffers.size + m.droppedNodes.size ≤ 10 * maxBufferSize

structure Roomy (maxBufferSize : Nat) (m : LogManager) : Prop where
  settings : m.maxBufferSize = maxBufferSize
  buffers : m.buffers.size ≤ m.bufferCap
  entries : ∀ (name : Str) (buf : List LogEntry), m.buffers[name]? = some buf →
    buf.length ≤ maxBufferSize
  dropped : m.droppedNodes = ∅

variable {m : LogManager} {maxBufferSize : Nat} {entry : LogEntry}

section

variable (h : Roomy maxBufferSize m)

include h

theorem Roomy.bounded : Bounded maxBufferSize m := by
  have hcap : m.buffers.size ≤ 10 * maxBufferSize := by
    have hle := h.buffers
    have hmod : m.bufferCap ≤ m.maxBufferSize * 10 := Nat.mod_le _ _
    rw [h.settings] at hmod
    omega
  refine ⟨hcap, h.entries, ?_⟩
  rw [h.dropped]
  exact hcap

theorem Roomy.push (hroom : entry.name ∈ m.buffers ∨ m.buffers.size < m.bufferCap) :
    Roomy maxBufferSize (m.push entry) := by
  refine ⟨h.settings, ?_, ?_, h.dropped⟩
  · have hle := h.buffers
    change (m.buffers.insert _ _).size ≤ m.bufferCap
    rw [Std.ExtTreeMap.size_insert]
    split <;> grind
  · intro name buf hbuf
    change (m.buffers.insert _ _)[name]? = some buf at hbuf
    by_cases hname : entry.name = name
    · subst hname
      have hold : ((m.buffers[entry.name]?).getD []).length ≤ maxBufferSize := by
        cases hget : m.buffers[entry.name]? with
        | none => exact Nat.zero_le _
        | some old => exact h.entries _ old hget
      rw [Std.ExtTreeMap.getElem?_insert_self, Option.some.injEq, h.settings] at hbuf
      subst hbuf
      split
      · rw [List.length_tail, List.length_append, List.length_singleton]
        omega
      · omega
    · rw [OMap.getElem?_insert_of_ne hname] at hbuf
      exact h.entries name buf hbuf

theorem Roomy.pushCapped (hroom : entry.name ∈ m.buffers ∨ m.buffers.size < m.bufferCap) :
    Roomy maxBufferSize (m.pushCapped entry).1 := by
  unfold LogManager.pushCapped
  split
  · rename_i hfull
    rcases hroom with hmem | hlt
    · exact absurd hmem hfull.1
    · omega
  · exact h.push hroom

theorem Roomy.stamped (id : Int) : Roomy maxBufferSize { m with nextId := id } :=
  ⟨h.settings, h.buffers, h.entries, h.dropped⟩

theorem Roomy.step {call : LogCall} (hcall : call.HasRoom m) :
    Roomy maxBufferSize ((logMachine maxBufferSize).step m call).1 := by
  cases call with
  | onLogEntry source suppressBuffer =>
    cases suppressBuffer with
    | true => exact h.stamped _
    | false => exact (h.stamped _).pushCapped (hcall source.name rfl)
  | injectEntryForTesting entry => exact h.pushCapped (hcall entry.name rfl)
  | addLogEntry entityId severity message metadata now =>
    exact (h.stamped _).push (hcall _ rfl)

end

end LogManager

/-- In every run whose new names come while there is room for their buffers, the buffers, their
entries and the names that are remembered stay within the cap. -/
theorem buffers_and_names_bounded {maxBufferSize : Nat}
    {history : List (Event LogManager LogCall (Option Str))} {m : LogManager}
    (hrun : (logMachine maxBufferSize).Runs (fun m call => call.HasRoom m) history m) :
    m.Bounded maxBufferSize := by
  have hroomy := hrun.invariant (fun _ m => m.Roomy maxBufferSize)
    ⟨rfl, Nat.zero_le _, fun name buf hbuf => by simp [logMachine] at hbuf, rfl⟩
    (fun _ _ _ _ hroom h => h.step hroom)
  exact hroomy.bounded

def entryOf (name : Str) : LogEntry := { level := 20, name }

theorem buffers_and_names_bounded_for_camera :
    ((logMachine 1).exec { maxBufferSize := 1 }
      [.onLogEntry (entryOf (str "camera")) false, .onLogEntry (entryOf (str "camera")) false,
        .addLogEntry (str "/lidar") (str "error") (str "lost") none (5, 0)]).Bounded 1 :=
  buffers_and_names_bounded (Machine.Runs.start.exec _ (by decide))

theorem exec_dropped (names : List Str) (m : LogManager) (hcap : m.bufferCap = 0)
    (hbuffers : m.buffers = ∅) :
    ((logMachine 0).exec m (names.map fun name => .onLogEntry (entryOf name) false)).droppedNodes =
      names.foldl (fun s name => s.insert name) m.droppedNodes := by
  induction names generalizing m with
  | nil => rfl
  | cons name names ih =>
    have hdrop : ((logMachine 0).step m (.onLogEntry (entryOf name) false)).1 =
        { m with
          nextId := m.nextId + 1
          droppedTotal := m.droppedTotal + 1
          droppedNodes := m.droppedNodes.insert name } := by
      change (LogManager.pushCapped _ _).1 = _
      rw [LogManager.pushCapped, if_pos]
      · rfl
      · exact ⟨by simp [hbuffers], hcap.trans_le (Nat.zero_le _)⟩
    rw [List.map_cons, Machine.exec, hdrop]
    exact ih _ hcap hbuffers

/-- Programmatic entries get eleven buffers where ten are the cap, and the names of dropped
nodes are kept without any bound. -/
theorem buffers_and_names_unbounded :
    10 * 1 < ((logMachine 1).exec { maxBufferSize := 1 } ((List.range 11).map fun n =>
      .addLogEntry (decimal n) (str "info") [] none (0, 0))).buffers.size ∧
    ∀ bound : Nat → Nat, ∃ maxBufferSize calls, bound maxBufferSize <
      ((logMachine maxBufferSize).exec { maxBufferSize } calls).droppedNodes.size := by
  refine ⟨by decide, ?_⟩
  intro bound
  let names := (List.range (bound 0 + 1)).map decimal
  refine ⟨0, names.map fun name => .onLogEntry (entryOf name) false, ?_⟩
  rw [exec_dropped names _ rfl rfl, ← Std.ExtTreeSet.length_toList]
  have hsub : names ⊆ (names.foldl (fun s name => s.insert name) (∅ : OSet Str)).toList := by
    intro name hname
    rw [Std.ExtTreeSet.mem_toList, OSet.mem_foldl_insert]
    exact .inl hname
  have hnodup : names.Nodup := List.nodup_range.map decimal_injective
  have hle := (hnodup.subperm hsub).length_le
  rw [List.length_map, List.length_range] at hle
  exact hle

end Medkit.Gateway
