import Medkit.Lib.Machine
import Medkit.FaultManager.SqliteFaultStorage

/-! The rosbag rows of both fault stores. A row links a fault code to the path of
a recording; the faults of a burst share a recording, and a fault may keep
several. Losing the last row of a path unlinks the recording, so each call also
says which paths it removed from disk. The two stores keep these rows apart from
everything else they hold, hence the states of their own. -/
namespace Medkit.FaultManager

open Lib

/-- An IEEE double, up to the sign of zero. -/
inductive Double where
  | nan
  | negInf
  | posInf
  | finite (value : ℚ)
deriving DecidableEq

structure RosbagFileInfo where
  faultCode : Str
  recordingId : Str
  filePath : Str
  format : Str
  durationSec : Double
  sizeBytes : Nat
  createdAtNs : Int

/-- The last component of the path; a trailing slash is tolerated. -/
def rosbagRecordingId (filePath : Str) : Str :=
  ((filePath.reverse.dropWhile (· = charByte '/')).takeWhile (· ≠ charByte '/')).reverse

namespace RosbagFileInfo

def toRow (info : RosbagFileInfo) : RosbagFileInfo :=
  if info.recordingId.isEmpty then { info with recordingId := rosbagRecordingId info.filePath }
  else info

def sameLink (row other : RosbagFileInfo) : Bool :=
  other.faultCode = row.faultCode && other.filePath = row.filePath

def ofFault (faultCode : Str) (info : RosbagFileInfo) : Bool := info.faultCode = faultCode

def ofRecording (recordingId : Str) (info : RosbagFileInfo) : Bool := info.recordingId = recordingId

end RosbagFileInfo

open RosbagFileInfo (ofFault ofRecording)

/-- `remove_all` on each of the paths that no row references any more. -/
def unlinkUnreferenced (pathReferenced : Str → Bool) (paths : List Str) : List Str :=
  (Std.ExtTreeSet.ofList paths compare).toList.filter fun path => !pathReferenced path

inductive RosbagCall where
  | setMaxRosbagsPerFault (maxCount : Nat)
  | storeRosbagFile (info : RosbagFileInfo)
  | storeRosbagFiles (infos : List RosbagFileInfo)
  | deleteRosbagFile (faultCode : Str)
  | deleteRosbagFiles (faultCodes : List Str)
  | deleteRosbagRecording (recordingId : Str)

inductive RosbagValue where
  | done
  | thrown
  | flag (value : Bool)
  | count (value : Nat)
deriving DecidableEq

structure RosbagReply where
  value : RosbagValue
  /-- paths removed from disk -/
  unlinked : List Str := []
  /-- rows that a store pushed out over the cap -/
  evicted : List (Nat × RosbagFileInfo) := []

/-! ## In memory -/

structure InMemoryRosbags where
  /-- `rosbag_files_`, each row with its sequence number, and `rosbag_seq_` -/
  rosbagFiles : Numbered RosbagFileInfo := {}
  /-- 0 = unlimited -/
  maxRosbagsPerFault : Nat := 1

namespace InMemoryRosbags

def pathReferenced (st : InMemoryRosbags) (filePath : Str) : Bool :=
  st.rosbagFiles.rows.any fun row => row.2.filePath = filePath

def storeRow (maxCount : Nat) (updated : Numbered RosbagFileInfo) (info : RosbagFileInfo) :
    Numbered RosbagFileInfo × List (Nat × RosbagFileInfo) :=
  let row := info.toRow
  let updated := updated.upsert row.sameLink row
  if maxCount = 0 then (updated, [])
  else
    let mine := updated.rows.filter fun other => other.2.ofFault row.faultCode
    if mine.length ≤ maxCount then (updated, [])
    else
      let doomed := (oldestFirst (·.createdAtNs) mine).take (mine.length - maxCount)
      (updated.remove fun other => (doomed.map (·.1)).contains other.1, doomed)

def storeRows (maxCount : Nat) : Numbered RosbagFileInfo → List (Nat × RosbagFileInfo) →
    List RosbagFileInfo → Numbered RosbagFileInfo × List (Nat × RosbagFileInfo)
  | updated, evicted, [] => (updated, evicted)
  | updated, evicted, info :: infos =>
      let (updated, doomed) := storeRow maxCount updated info
      storeRows maxCount updated (evicted ++ doomed) infos

/-- The rows are replaced as a whole, and the evicted paths are looked at only
then. -/
def storeRosbagFiles (st : InMemoryRosbags) (infos : List RosbagFileInfo) :
    InMemoryRosbags × RosbagReply :=
  let (updated, evicted) := storeRows st.maxRosbagsPerFault st.rosbagFiles [] infos
  let st := { st with rosbagFiles := updated }
  (st,
    { value := .done
      unlinked := unlinkUnreferenced st.pathReferenced (evicted.map (·.2.filePath))
      evicted := evicted })

def storeRosbagFile (st : InMemoryRosbags) (info : RosbagFileInfo) :
    InMemoryRosbags × RosbagReply :=
  st.storeRosbagFiles [info]

def dropRows (st : InMemoryRosbags) (drop : RosbagFileInfo → Bool) : InMemoryRosbags :=
  { st with rosbagFiles := st.rosbagFiles.remove fun row => drop row.2 }

def touched (st : InMemoryRosbags) (drop : RosbagFileInfo → Bool) : List Str :=
  (st.rosbagFiles.rows.filter fun row => drop row.2).map (·.2.filePath)

def deleteRosbagFile (st : InMemoryRosbags) (faultCode : Str) : InMemoryRosbags × RosbagReply :=
  let left := st.dropRows (ofFault faultCode)
  if left.rosbagFiles.rows.length = st.rosbagFiles.rows.length then
    (left, { value := .flag false })
  else
    (left,
      { value := .flag true
        unlinked := unlinkUnreferenced left.pathReferenced (st.touched (ofFault faultCode)) })

def deleteRosbagFilesLoop (st : InMemoryRosbags) (deleted : Nat) (unlinked : List Str) :
    List Str → InMemoryRosbags × RosbagReply
  | [] => (st, { value := .count deleted, unlinked := unlinked })
  | code :: codes =>
      let (st, reply) := st.deleteRosbagFile code
      deleteRosbagFilesLoop st (if reply.value = .flag true then deleted + 1 else deleted)
        (unlinked ++ reply.unlinked) codes

def deleteRosbagFiles (st : InMemoryRosbags) (faultCodes : List Str) :
    InMemoryRosbags × RosbagReply :=
  st.deleteRosbagFilesLoop 0 [] faultCodes

/-- An empty id addresses a set, not a recording. -/
def deleteRosbagRecording (st : InMemoryRosbags) (recordingId : Str) :
    InMemoryRosbags × RosbagReply :=
  if recordingId.isEmpty then (st, { value := .count 0 })
  else
    let left := st.dropRows (ofRecording recordingId)
    (left,
      { value := .count (st.touched (ofRecording recordingId)).length
        unlinked := unlinkUnreferenced left.pathReferenced (st.touched (ofRecording recordingId)) })

def getAllRosbagFiles (st : InMemoryRosbags) : List RosbagFileInfo :=
  (oldestFirst (·.createdAtNs) st.rosbagFiles.rows).map (·.2)

def addBytes (bytes : OMap Str Nat) (info : RosbagFileInfo) : OMap Str Nat :=
  bytes.insert info.filePath (max (bytes[info.filePath]?.getD 0) info.sizeBytes)

def bytesPerPath (st : InMemoryRosbags) : OMap Str Nat :=
  (st.rosbagFiles.rows.map (·.2)).foldl addBytes ∅

def getTotalRosbagStorageBytes (st : InMemoryRosbags) : Nat :=
  (st.bytesPerPath.toList.map (·.2)).sum % 2 ^ 64

def step (st : InMemoryRosbags) : RosbagCall → InMemoryRosbags × RosbagReply
  | .setMaxRosbagsPerFault maxCount =>
      ({ st with maxRosbagsPerFault := maxCount }, { value := .done })
  | .storeRosbagFile info => st.storeRosbagFile info
  | .storeRosbagFiles infos => st.storeRosbagFiles infos
  | .deleteRosbagFile faultCode => st.deleteRosbagFile faultCode
  | .deleteRosbagFiles faultCodes => st.deleteRosbagFiles faultCodes
  | .deleteRosbagRecording recordingId => st.deleteRosbagRecording recordingId

end InMemoryRosbags

def inMemoryRosbags : Machine InMemoryRosbags RosbagCall RosbagReply where
  init := {}
  step := InMemoryRosbags.step

/-! ## SQLite -/

structure SqliteRosbags where
  rosbagFiles : Table RosbagFileInfo := {}
  maxRosbagsPerFault : Nat := 1

namespace SqliteRosbags

/-- `SELECT COUNT(*) … WHERE file_path = ?` is positive. -/
def pathReferenced (db : SqliteRosbags) (filePath : Str) : Bool :=
  !(db.rosbagFiles.select (·.filePath = filePath)).isEmpty

/-- The ids of the subquery `ORDER BY created_at_ns DESC, id DESC LIMIT`; a cap that
is negative as an `int64` is no limit. -/
def newestIds (maxCount : Nat) (mine : List (Nat × RosbagFileInfo)) : List Nat :=
  if maxCount > int64Max then mine.map (·.1)
  else ((newestFirst (·.createdAtNs) mine).take maxCount).map (·.1)

/-- `none` when a statement fails: a NaN is bound as NULL, which the column
refuses, and the automatic key may be used up. -/
def storeRosbagFileLocked (maxCount : Nat) (table : Table RosbagFileInfo) (info : RosbagFileInfo) :
    Option (Table RosbagFileInfo × List (Nat × RosbagFileInfo)) :=
  let row := info.toRow
  if row.durationSec = .nan ∨ table.sequence ≥ int64Max then none
  else
    let table := table.upsert row.sameLink row
    if maxCount = 0 then some (table, [])
    else
      let mine := table.select (ofFault row.faultCode)
      let kept := newestIds maxCount mine
      some (table.delete fun id other => other.ofFault row.faultCode && !kept.contains id,
        mine.filter fun other => !kept.contains other.1)

def storeRows (maxCount : Nat) : Table RosbagFileInfo → List (Nat × RosbagFileInfo) →
    List RosbagFileInfo → Option (Table RosbagFileInfo × List (Nat × RosbagFileInfo))
  | table, evicted, [] => some (table, evicted)
  | table, evicted, info :: infos =>
      match storeRosbagFileLocked maxCount table info with
      | none => none
      | some (table, doomed) => storeRows maxCount table (evicted ++ doomed) infos

/-- One transaction; a failure rolls back and is thrown on. -/
def storeRosbagFiles (db : SqliteRosbags) (infos : List RosbagFileInfo) :
    SqliteRosbags × RosbagReply :=
  match storeRows db.maxRosbagsPerFault db.rosbagFiles [] infos with
  | none => (db, { value := .thrown })
  | some (table, evicted) =>
      let db := { db with rosbagFiles := table }
      (db,
        { value := .done
          unlinked := unlinkUnreferenced db.pathReferenced
            (evicted.map fun row => columnText row.2.filePath)
          evicted := evicted })

def storeRosbagFile (db : SqliteRosbags) (info : RosbagFileInfo) : SqliteRosbags × RosbagReply :=
  db.storeRosbagFiles [info]

/-- `DELETE … WHERE drop`. -/
def dropRows (db : SqliteRosbags) (drop : RosbagFileInfo → Bool) : SqliteRosbags :=
  { db with rosbagFiles := db.rosbagFiles.delete fun _ row => drop row }

/-- `SELECT file_path … WHERE drop`. -/
def touched (db : SqliteRosbags) (drop : RosbagFileInfo → Bool) : List Str :=
  (db.rosbagFiles.select drop).map fun row => columnText row.2.filePath

def changes (db : SqliteRosbags) (drop : RosbagFileInfo → Bool) : Int :=
  sqlite3Changes (db.rosbagFiles.select drop).length

def deleteRosbagFile (db : SqliteRosbags) (faultCode : Str) : SqliteRosbags × RosbagReply :=
  let left := db.dropRows (ofFault faultCode)
  (left,
    { value := .flag (decide (db.changes (ofFault faultCode) > 0))
      unlinked := unlinkUnreferenced left.pathReferenced (db.touched (ofFault faultCode)) })

def deleteRows (db : SqliteRosbags) (deleted : Nat) (paths : List Str) :
    List Str → SqliteRosbags × Nat × List Str
  | [] => (db, deleted, paths)
  | code :: codes =>
      deleteRows (db.dropRows (ofFault code))
        (if db.changes (ofFault code) > 0 then deleted + 1 else deleted)
        (paths ++ db.touched (ofFault code)) codes

def deleteRosbagFiles (db : SqliteRosbags) (faultCodes : List Str) : SqliteRosbags × RosbagReply :=
  let (left, deleted, paths) := db.deleteRows 0 [] faultCodes
  (left, { value := .count deleted, unlinked := unlinkUnreferenced left.pathReferenced paths })

def deleteRosbagRecording (db : SqliteRosbags) (recordingId : Str) : SqliteRosbags × RosbagReply :=
  if recordingId.isEmpty || (db.touched (ofRecording recordingId)).isEmpty then (db, { value := .count 0 })
  else
    let left := db.dropRows (ofRecording recordingId)
    (left,
      -- the int, cast to size_t
      { value := .count (db.changes (ofRecording recordingId) % 2 ^ 64).toNat
        unlinked := unlinkUnreferenced left.pathReferenced (db.touched (ofRecording recordingId)) })

def readRosbagRow (row : RosbagFileInfo) : RosbagFileInfo :=
  { row with
    faultCode := columnText row.faultCode
    recordingId := columnText row.recordingId
    filePath := columnText row.filePath
    format := columnText row.format }

def step (db : SqliteRosbags) : RosbagCall → SqliteRosbags × RosbagReply
  | .setMaxRosbagsPerFault maxCount =>
      ({ db with maxRosbagsPerFault := maxCount }, { value := .done })
  | .storeRosbagFile info => db.storeRosbagFile info
  | .storeRosbagFiles infos => db.storeRosbagFiles infos
  | .deleteRosbagFile faultCode => db.deleteRosbagFile faultCode
  | .deleteRosbagFiles faultCodes => db.deleteRosbagFiles faultCodes
  | .deleteRosbagRecording recordingId => db.deleteRosbagRecording recordingId

end SqliteRosbags

def sqliteRosbags : Machine SqliteRosbags RosbagCall RosbagReply where
  init := {}
  step := SqliteRosbags.step

def bagOf (faultCode path : String) (createdAtNs : Int) : RosbagFileInfo where
  faultCode := str faultCode
  recordingId := []
  filePath := str path
  format := str "mcap"
  durationSec := .finite 2
  sizeBytes := 1000000
  createdAtNs := createdAtNs

end Medkit.FaultManager
