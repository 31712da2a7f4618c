import Medkit.Lib.Machine
import Medkit.FaultManager.SqliteFaultStorage

/-! The value snapshots of both fault stores. A capture stores one row for each
topic, all under one capture id, and the cap evicts whole captures, oldest first,
but never the newest. -/
namespace Medkit.FaultManager

open Lib

def SnapshotData.ofFault (faultCode : Str) (snapshot : SnapshotData) : Bool :=
  snapshot.faultCode = faultCode

def SnapshotData.selected (faultCode topicFilter : Str) (snapshot : SnapshotData) : Bool :=
  snapshot.ofFault faultCode && (topicFilter.isEmpty || snapshot.topic = topicFilter)

def SnapshotData.NotOlder (a b : SnapshotData) : Prop :=
  b.captureId < a.captureId ∨ b.captureId = a.captureId ∧ b.capturedAtNs ≤ a.capturedAtNs
deriving Decidable

inductive SnapshotCall where
  | storeSnapshots (snapshots : List SnapshotData)
  | setMaxSnapshotsPerFault (maxCount : Nat)
  | setRetainSnapshotsOnClear (retain : Bool)
  | reportFaultEvent (r : FaultReport)
  | clearFault (faultCode : Str)
  | reclassifyHealedAsCleared

/-! ## In memory -/

structure InMemorySnapshotStore extends InMemoryFaultStorage where
  /-- 0 = unlimited -/
  maxSnapshotsPerFault : Nat := 0

namespace InMemorySnapshotStore

/-- The loop that evicts the oldest capture but the newest until the fault fits.
Each round erases a row, so the number of rows is fuel enough. -/
def trimCaptures (maxCount : Nat) (faultCode : Str) (newest : Int) :
    Nat → List SnapshotData → List SnapshotData
  | 0, updated => updated
  | fuel + 1, updated =>
      let mine := updated.filter (·.ofFault faultCode)
      if mine.length ≤ maxCount then updated
      else
        match ((mine.map (·.captureId)).filter (· ≠ newest)).min? with
        | none => updated
        | some oldest =>
            trimCaptures maxCount faultCode newest fuel
              (updated.filter fun s => !(s.ofFault faultCode && s.captureId = oldest))

def storeSnapshots (st : InMemorySnapshotStore) (snapshots : List SnapshotData) :
    InMemorySnapshotStore :=
  match snapshots with
  | [] => st
  | first :: _ =>
      let updated := st.snapshots ++ snapshots
      let newest := ((updated.filter (·.ofFault first.faultCode)).map (·.captureId)).max?
      let kept :=
        match newest with
        | some newest =>
            if st.maxSnapshotsPerFault > 0 then
              trimCaptures st.maxSnapshotsPerFault first.faultCode newest updated.length updated
            else updated
        | none => updated
      { st with snapshots := kept }

/-- `std::stable_sort`, which an insertion sort by a reflexive comparison is. -/
def getSnapshots (st : InMemorySnapshotStore) (faultCode topicFilter : Str) : List SnapshotData :=
  (st.snapshots.filter (·.selected faultCode topicFilter)).insertionSort SnapshotData.NotOlder

def step (st : InMemorySnapshotStore) : SnapshotCall → InMemorySnapshotStore
  | .storeSnapshots snapshots => st.storeSnapshots snapshots
  | .setMaxSnapshotsPerFault maxCount => { st with maxSnapshotsPerFault := maxCount }
  | .setRetainSnapshotsOnClear retain => { st with retainSnapshotsOnClear := retain }
  | .reportFaultEvent r =>
      { st with toInMemoryFaultStorage := (st.toInMemoryFaultStorage.reportFaultEvent r).1 }
  | .clearFault faultCode =>
      { st with toInMemoryFaultStorage := (st.toInMemoryFaultStorage.clearFault faultCode).1 }
  | .reclassifyHealedAsCleared =>
      { st with toInMemoryFaultStorage := st.toInMemoryFaultStorage.reclassifyHealedAsCleared.1 }

end InMemorySnapshotStore

def inMemorySnapshots : Machine InMemorySnapshotStore SnapshotCall Unit where
  init := {}
  step st call := (st.step call, ())

/-! ## SQLite -/

structure SqliteSnapshotStore extends SqliteFaultStorage where
  maxSnapshotsPerFault : Nat := 0

namespace SqliteSnapshotStore

/-- What the trim statement deletes: the capture of the smallest id, unless it is
the newest. -/
def trimmed (faultCode : Str) (newest : Int) (table : Table SnapshotData) (_ : Nat)
    (snapshot : SnapshotData) : Bool :=
  let oldest := ((table.select (·.ofFault faultCode)).map (·.2.captureId)).min?
  snapshot.ofFault faultCode && some snapshot.captureId = oldest && snapshot.captureId ≠ newest

def trimCaptures (maxCount : Nat) (faultCode : Str) (newest : Int) :
    Nat → Table SnapshotData → Table SnapshotData
  | 0, table => table
  | fuel + 1, table =>
      if (table.select (·.ofFault faultCode)).length ≤ maxCount then table
      else
        let drop := trimmed faultCode newest table
        if sqlite3Changes (table.countMatching drop) = 0 then table.delete drop
        else trimCaptures maxCount faultCode newest fuel (table.delete drop)

def storeSnapshots (db : SqliteSnapshotStore) (snapshots : List SnapshotData) :
    SqliteSnapshotStore :=
  match snapshots with
  | [] => db
  | first :: _ =>
      let inserted := snapshots.foldl Table.insert db.snapshots
      let newestCapture :=
        (((inserted.select (·.ofFault first.faultCode)).map (·.2.captureId)).max?).getD 0
      { db with
        snapshots :=
          if db.maxSnapshotsPerFault > 0 then
            trimCaptures db.maxSnapshotsPerFault first.faultCode newestCapture
              inserted.rows.toList.length inserted
          else inserted }

def readSnapshot (snapshot : SnapshotData) : SnapshotData :=
  { snapshot with
    faultCode := columnText snapshot.faultCode
    topic := columnText snapshot.topic
    messageType := columnText snapshot.messageType
    data := columnText snapshot.data }

/-- `ORDER BY capture_id DESC, captured_at_ns DESC` leaves the order among equal
rows open. -/
def GetSnapshots (db : SqliteSnapshotStore) (faultCode topicFilter : Str)
    (answer : List SnapshotData) : Prop :=
  ∃ rows : List SnapshotData,
    rows.Perm ((db.snapshots.select (·.selected faultCode topicFilter)).map (·.2)) ∧
      rows.Pairwise SnapshotData.NotOlder ∧ answer = rows.map readSnapshot

def step (db : SqliteSnapshotStore) : SnapshotCall → SqliteSnapshotStore
  | .storeSnapshots snapshots => db.storeSnapshots snapshots
  | .setMaxSnapshotsPerFault maxCount => { db with maxSnapshotsPerFault := maxCount }
  | .setRetainSnapshotsOnClear retain => { db with retainSnapshotsOnClear := retain }
  | .reportFaultEvent r =>
      { db with toSqliteFaultStorage := (db.toSqliteFaultStorage.reportFaultEvent r).1 }
  | .clearFault faultCode =>
      { db with toSqliteFaultStorage := (db.toSqliteFaultStorage.clearFault faultCode).1 }
  | .reclassifyHealedAsCleared =>
      { db with toSqliteFaultStorage := db.toSqliteFaultStorage.reclassifyHealedAsCleared.1 }

end SqliteSnapshotStore

def sqliteSnapshots : Machine SqliteSnapshotStore SnapshotCall Unit where
  init := {}
  step db call := (db.step call, ())

/-! ## Trimming -/

theorem InMemorySnapshotStore.length_evicted_lt {faultCode : Str} {newest oldest : Int}
    {updated : List SnapshotData}
    (holdest : (((updated.filter (·.ofFault faultCode)).map (·.captureId)).filter
      (· ≠ newest)).min? = some oldest) :
    (updated.filter fun s => !(s.ofFault faultCode && s.captureId = oldest)).length <
      updated.length := by
  have hmem := List.min?_mem holdest
  obtain ⟨s, hs, hid⟩ := List.mem_map.mp (List.mem_filter.mp hmem).1
  obtain ⟨hs, hfault⟩ := List.mem_filter.mp hs
  apply List.length_filter_lt_length_iff_exists.mpr
  exact ⟨s, hs, by simp [hfault, hid]⟩

theorem InMemorySnapshotStore.trimCaptures_settled (maxCount : Nat) (faultCode : Str)
    (newest : Int) (fuel : Nat) (updated : List SnapshotData) (hfuel : updated.length ≤ fuel) :
    let kept := trimCaptures maxCount faultCode newest fuel updated
    (kept.filter (·.ofFault faultCode)).length ≤ maxCount ∨
      ∀ s ∈ kept, s.ofFault faultCode → s.captureId = newest := by
  induction fuel generalizing updated with
  | zero =>
    have hnil : updated = [] := List.length_eq_zero_iff.mp (by omega)
    simp [trimCaptures, hnil]
  | succ fuel ih =>
    unfold trimCaptures
    dsimp only
    split
    · rename_i hfits
      exact .inl hfits
    · split
      · rename_i hnone
        refine .inr fun s hs hfault => ?_
        rw [List.min?_eq_none_iff, List.filter_eq_nil_iff] at hnone
        have := hnone s.captureId (List.mem_map.mpr ⟨s, List.mem_filter.mpr ⟨hs, hfault⟩, rfl⟩)
        simpa using this
      · rename_i oldest holdest
        have hlt := length_evicted_lt holdest
        exact ih _ (by omega)

end Medkit.FaultManager
