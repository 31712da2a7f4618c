import Medkit.Lib.Table
import Medkit.FaultManager.FaultStorage
import Medkit.FaultManager.JsonArray

/-! The SQLite fault store. A row holds what the bound parameters put there; the
SQL text is read as the relational operations it names. Statements that fail and
texts beyond SQLite's length limit are left out. -/
namespace Medkit.FaultManager

open Lib

def int32Max : Nat := 2147483647
def int64Max : Nat := 9223372036854775807

/-- `sqlite3_column_text` read into a `std::string` without its length: the text
ends at its first NUL byte. -/
def columnText (stored : Str) : Str := cString stored

/-- `sqlite3_changes` answers in an `int`. -/
def sqlite3Changes (count : Nat) : Int := (count : Int).bmod 4294967296

theorem sqlite3Changes_of_le {count : Nat} (h : count ≤ int32Max) :
    sqlite3Changes count = count := by
  unfold sqlite3Changes int32Max at *
  rw [Int.bmod_def]
  split <;> omega

structure FaultRow where
  severity : Byte
  description : Str
  firstOccurredNs : Int
  lastOccurredNs : Int
  occurrenceCount : Nat
  status : FaultStatus
  /-- JSON array text -/
  reportingSources : Str
  debounceCounter : Int
  lastFailedNs : Int
  lastPassedNs : Int
  confirmedAtNs : Int
deriving DecidableEq

namespace FaultRow

def created (r : FaultReport) : FaultRow :=
  let initialStatus :=
    if bypassesDebounce r.config r.severity then .confirmed
    else computeDebounceStatus (-1) .unset r.config
  { severity := r.severity
    description := r.description
    firstOccurredNs := r.timestamp
    lastOccurredNs := r.timestamp
    occurrenceCount := 1
    status := initialStatus
    reportingSources := serializeJsonArray [r.sourceId]
    debounceCounter := -1
    lastFailedNs := r.timestamp
    lastPassedNs := 0
    confirmedAtNs := if initialStatus = .confirmed then r.timestamp else 0 }

def isReactivation (row : FaultRow) : Bool := row.status = .cleared

/-- The counter that the FAILED branch starts from: clamped on read, and reset for
a CLEARED fault so that the decrement makes it −1. -/
def failedFrom (row : FaultRow) (config : DebounceConfig) : Int :=
  if row.isReactivation then 0 else clampDebounceCounter row.debounceCounter config

/-- `UPDATE faults` of the FAILED branch, which a reactivation shares. -/
def failed (row : FaultRow) (r : FaultReport) : FaultRow :=
  let sources := Std.ExtTreeSet.ofList (parseJsonArray (columnText row.reportingSources)) compare
  let debounceCounter := clampDebounceCounter (row.failedFrom r.config - 1) r.config
  let newStatus :=
    if bypassesDebounce r.config r.severity then .confirmed
    else computeDebounceStatus debounceCounter row.status r.config
  { row with
    severity := max row.severity r.severity
    description := if r.description.isEmpty then row.description else r.description
    firstOccurredNs := if row.isReactivation then r.timestamp else row.firstOccurredNs
    lastOccurredNs := r.timestamp
    lastFailedNs := r.timestamp
    occurrenceCount :=
      if row.isReactivation && row.occurrenceCount < uint32Max then row.occurrenceCount + 1
      else row.occurrenceCount
    reportingSources := serializeJsonArray (sources.insert r.sourceId).toList
    status := newStatus
    debounceCounter := debounceCounter
    confirmedAtNs :=
      if newStatus = .confirmed ∧ row.status ≠ .confirmed then r.timestamp
      else row.confirmedAtNs }

def passed (row : FaultRow) (r : FaultReport) : FaultRow :=
  let debounceCounter :=
    clampDebounceCounter (clampDebounceCounter row.debounceCounter r.config + 1) r.config
  { row with
    lastPassedNs := r.timestamp
    status := computeDebounceStatus debounceCounter row.status r.config
    debounceCounter := debounceCounter }

def toMsg (faultCode : Str) (row : FaultRow) : FaultMsg where
  faultCode := columnText faultCode
  severity := row.severity
  description := columnText row.description
  firstOccurred := row.firstOccurredNs
  lastOccurred := row.lastOccurredNs
  lastPassed := row.lastPassedNs
  -- read as int64, handed out as uint32
  occurrenceCount := row.occurrenceCount % 4294967296
  status := row.status
  reportingSources := parseJsonArray (columnText row.reportingSources)

end FaultRow

structure SqliteFaultStorage where
  faults : OMap Str FaultRow := ∅
  nearMisses : Table NearMissRecord := {}
  snapshots : Table SnapshotData := {}
  retainSnapshotsOnClear : Bool := false
  maxNearMissesPerFault : Nat := 0

namespace SqliteFaultStorage

/-- 0 and bounds that an `int64` parameter cannot carry keep everything. -/
def unlimited (maxCount : Nat) : Bool := maxCount = 0 || maxCount > int64Max

def recordNearMissLocked (db : SqliteFaultStorage) (r : FaultReport) (row : FaultRow) :
    SqliteFaultStorage :=
  let inserted := db.nearMisses.insert
    { faultCode := r.faultCode
      occurredAtNs := r.timestamp
      debounceCounter := row.debounceCounter
      confirmationThreshold := r.config.confirmationThreshold
      severity := r.severity
      sourceId := r.sourceId
      resultingStatus := row.status }
  let ofCode (record : NearMissRecord) : Bool := record.faultCode = r.faultCode
  { db with
    nearMisses :=
      if unlimited db.maxNearMissesPerFault then inserted
      else
        inserted.delete fun id record =>
          ofCode record && !(inserted.newestIds ofCode db.maxNearMissesPerFault).contains id }

def storeFailed (db : SqliteFaultStorage) (r : FaultReport) (row : FaultRow) :
    SqliteFaultStorage :=
  let db := { db with faults := db.faults.insert r.faultCode row }
  if isNearMiss true row.status then db.recordNearMissLocked r row else db

def reportFaultEvent (db : SqliteFaultStorage) (r : FaultReport) : SqliteFaultStorage × Bool :=
  match db.faults[r.faultCode]? with
  | some row =>
      if row.isReactivation && !r.isFailed then (db, false)
      else if r.isFailed then (db.storeFailed r (row.failed r), row.isReactivation)
      else ({ db with faults := db.faults.insert r.faultCode (row.passed r) }, row.isReactivation)
  | none =>
      if !r.isFailed then (db, false)
      else (db.storeFailed r (.created r), true)

def getFault (db : SqliteFaultStorage) (faultCode : Str) : Option FaultMsg :=
  db.faults[faultCode]?.map (FaultRow.toMsg faultCode)

def clearFault (db : SqliteFaultStorage) (faultCode : Str) : SqliteFaultStorage × Bool :=
  let snapshots :=
    if db.retainSnapshotsOnClear then db.snapshots
    else db.snapshots.delete fun _ snapshot => snapshot.faultCode = faultCode
  let changed := if faultCode ∈ db.faults then 1 else 0
  ({ db with
      snapshots := snapshots
      faults := db.faults.alter faultCode (·.map fun row => { row with status := .cleared }) },
    decide (sqlite3Changes changed > 0))

def reclassifyHealedAsCleared (db : SqliteFaultStorage) : SqliteFaultStorage × List Str :=
  let healed := (db.faults.toList.filter (·.2.status = .healed)).map (·.1)
  let reclassified := healed.map columnText
  if reclassified.isEmpty then (db, reclassified)
  else
    ({ db with
        snapshots :=
          if db.retainSnapshotsOnClear then db.snapshots
          else db.snapshots.delete fun _ snapshot => healed.contains snapshot.faultCode
        faults := db.faults.map fun _ row =>
          if row.status = .healed then { row with status := .cleared } else row },
      reclassified)

def setMaxNearMissesPerFault (db : SqliteFaultStorage) (maxCount : Nat) :
    SqliteFaultStorage × Nat :=
  let db := { db with maxNearMissesPerFault := maxCount }
  if unlimited maxCount then (db, 0)
  else
    let beyond (id : Nat) (record : NearMissRecord) : Bool :=
      db.nearMisses.rowNumber (·.faultCode) id record > maxCount
    let changed := sqlite3Changes (db.nearMisses.countMatching beyond)
    ({ db with nearMisses := db.nearMisses.delete beyond },
      if changed > 0 then changed.toNat else 0)

def readNearMiss (record : NearMissRecord) : NearMissRecord :=
  { record with
    faultCode := columnText record.faultCode
    sourceId := columnText record.sourceId }

def getNearMisses (db : SqliteFaultStorage) (faultCode : Str) : List NearMissRecord :=
  (db.nearMisses.select (·.faultCode = faultCode)).map fun entry => readNearMiss entry.2

variable (db : SqliteFaultStorage)

theorem mem_healed (code : Str) :
    code ∈ (db.faults.toList.filter (·.2.status = .healed)).map (·.1) ↔
      ∃ row, db.faults[code]? = some row ∧ row.status = .healed := by
  simp [Std.ExtTreeMap.mem_toList_iff_getElem?_eq_some]

/-- The early return on an empty list is no special case for the rows. -/
theorem reclassifyHealedAsCleared_faults (code : Str) :
    db.reclassifyHealedAsCleared.1.faults[code]? =
      db.faults[code]?.map fun row =>
        if row.status = .healed then { row with status := .cleared } else row := by
  unfold reclassifyHealedAsCleared
  dsimp only
  split
  · rename_i hempty
    rw [List.isEmpty_iff, List.map_eq_nil_iff] at hempty
    have hnone := db.mem_healed code
    rw [hempty] at hnone
    cases hrow : db.faults[code]? with
    | none => rfl
    | some row =>
      have hstatus : row.status ≠ .healed := fun hs => by
        simpa using hnone.mpr ⟨row, hrow, hs⟩
      simp [hstatus]
  · simp

theorem reclassifyHealedAsCleared_frame :
    db.reclassifyHealedAsCleared.1.nearMisses = db.nearMisses ∧
      db.reclassifyHealedAsCleared.1.maxNearMissesPerFault = db.maxNearMissesPerFault := by
  unfold reclassifyHealedAsCleared
  dsimp only
  split <;> exact ⟨rfl, rfl⟩

theorem reclassifyHealedAsCleared_codes : db.reclassifyHealedAsCleared.2 =
      ((db.faults.toList.filter (·.2.status = .healed)).map (·.1)).map columnText := by
  unfold reclassifyHealedAsCleared
  dsimp only
  split <;> rfl

end SqliteFaultStorage

end Medkit.FaultManager
