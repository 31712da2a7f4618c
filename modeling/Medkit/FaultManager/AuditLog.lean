import Medkit.Lib.OrderedMap
import Medkit.Lib.Tokens

/-! The hash-chained audit log over its four tables. SHA-256 and the JSON string
encoder are parameters. Every SQL statement of an append and of a rotation can
fail; a failed transaction is rolled back. -/
namespace Medkit.FaultManager

open Lib

structure AuditEvent where
  faultCode : Str
  transition : Str
  severity : Byte
  status : Str
  sourceId : Str
  description : Str
  occurredAtNs : Int
deriving DecidableEq

structure AuditRow where
  event : AuditEvent
  prevHash : Str
  recordHash : Str

structure ChainHead where
  seq : Int
  recordHash : Str

structure Anchor where
  sealedAtNs : Int
  lastHash : Str

structure AuditDb where
  auditLog : OMap Int AuditRow := ∅
  chainHead : Option ChainHead := none
  anchors : OMap Int Anchor := ∅
  /-- `audit_prune_guard.enabled` -/
  pruneGuard : Bool := false

structure AuditVerifyResult where
  ok : Bool := true
  checked : Int := 0
  badSeq : Int := 0
  error : String := ""

structure AuditCodec where
  sha256 : Str → Str
  jsonEncode : Str → Str

def genesisHash : Str := List.replicate 64 48

namespace AuditCodec

variable (codec : AuditCodec)

def sha256Hex (data : Str) : Str := hexEncode (codec.sha256 data)

def canonicalize (seq : Int) (event : AuditEvent) : Str :=
  str "\x7b\"seq\":" ++ intDecimal seq ++
  (str ",\"ts\":" ++ intDecimal event.occurredAtNs ++
  (str ",\"code\":" ++ codec.jsonEncode event.faultCode ++
  (str ",\"transition\":" ++ codec.jsonEncode event.transition ++
  (str ",\"severity\":" ++ decimal event.severity ++
  (str ",\"status\":" ++ codec.jsonEncode event.status ++
  (str ",\"source\":" ++ codec.jsonEncode event.sourceId ++
  (str ",\"description\":" ++ codec.jsonEncode event.description ++ str "\x7d")))))))

def recordHash (prevHash : Str) (seq : Int) (event : AuditEvent) : Str :=
  codec.sha256Hex (prevHash ++ codec.canonicalize seq event)

end AuditCodec

/-! ## Statements -/

inductive AppendStatement where
  | begin | insert | storeHead | commit
deriving DecidableEq

/-- The two SELECTs fail in two ways: preparing throws, stepping only looks as if
there were no row. -/
inductive RotateStatement where
  | prepareCount | stepCount | prepareBoundary | stepBoundary
  | begin | openGuard | insertAnchor | deleteRecords | pruneAnchors | closeGuard | commit
deriving DecidableEq

/-- A statement of a transaction; `none` is the exception that rolls it back. -/
def runStatement {σ : Type} [DecidableEq σ] (failing : Option σ) (statement : σ)
    (effect : AuditDb → Option AuditDb) (db : AuditDb) : Option AuditDb :=
  if failing = some statement then none else effect db

namespace AuditDb

/-- `COALESCE(MIN(seq), 0)`. -/
def minSeq (db : AuditDb) : Int := (db.auditLog.toList.head?.map (·.1)).getD 0

def insertRecord (seq : Int) (row : AuditRow) (db : AuditDb) : Option AuditDb :=
  if seq ∈ db.auditLog then none
  else some { db with auditLog := db.auditLog.insert seq row }

def storeHead (head : ChainHead) (db : AuditDb) : Option AuditDb :=
  some { db with chainHead := some head }

def setPruneGuard (enabled : Bool) (db : AuditDb) : Option AuditDb :=
  some { db with pruneGuard := enabled }

/-- `ON CONFLICT(last_seq) DO NOTHING`, behind the insert trigger. -/
def insertAnchor (lastSeq : Int) (anchor : Anchor) (db : AuditDb) : Option AuditDb :=
  if !db.pruneGuard then none
  else some { db with anchors := db.anchors.insertIfNew lastSeq anchor }

/-- The delete triggers fire for each row that a closed guard protects. -/
def deleteRecords (boundarySeq : Int) (db : AuditDb) : Option AuditDb :=
  if !db.pruneGuard && db.auditLog.toList.any (fun entry => entry.1 ≤ boundarySeq) then none
  else some { db with auditLog := db.auditLog.keep fun seq _ => ¬ seq ≤ boundarySeq }

def pruneAnchors (boundarySeq : Int) (db : AuditDb) : Option AuditDb :=
  if !db.pruneGuard && db.anchors.toList.any (fun entry => entry.1 < boundarySeq) then none
  else some { db with anchors := db.anchors.keep fun seq _ => ¬ seq < boundarySeq }

end AuditDb

/-! ## The log -/

structure FaultAuditLog where
  db : AuditDb
  /-- cached copy of the head row -/
  head : ChainHead
  retentionMaxRecords : Int
  rotationFailures : Nat := 0

namespace FaultAuditLog

def loadHead (db : AuditDb) : ChainHead := db.chainHead.getD ⟨0, genesisHash⟩

/-- The constructor on an existing or empty database; a negative retention means
unlimited. -/
def openLog (db : AuditDb) (retentionMaxRecords : Int) : FaultAuditLog where
  db := db
  head := loadHead db
  retentionMaxRecords := if retentionMaxRecords < 0 then 0 else retentionMaxRecords

/-- The transaction that seals and prunes everything up to the boundary row. -/
def sealAndPrune (db : AuditDb) (boundarySeq : Int) (boundary : AuditRow)
    (failing : Option RotateStatement) : Option AuditDb := do
  let db ← runStatement failing .begin some db
  let db ← runStatement failing .openGuard (AuditDb.setPruneGuard true) db
  let db ← runStatement failing .insertAnchor
    (AuditDb.insertAnchor boundarySeq ⟨boundary.event.occurredAtNs, boundary.recordHash⟩) db
  let db ← runStatement failing .deleteRecords (AuditDb.deleteRecords boundarySeq) db
  let db ← runStatement failing .pruneAnchors (AuditDb.pruneAnchors boundarySeq) db
  let db ← runStatement failing .closeGuard (AuditDb.setPruneGuard false) db
  runStatement failing .commit some db

/-- The database after a rotation, or `none` where the source throws. -/
def rotateIfNeeded (log : FaultAuditLog) (failing : Option RotateStatement) : Option AuditDb :=
  if log.retentionMaxRecords ≤ 0 then some log.db
  else if failing = some .prepareCount then none
  else
    let count : Int := if failing = some .stepCount then 0 else log.db.auditLog.size
    let minSeq : Int := if failing = some .stepCount then 0 else log.db.minSeq
    if count ≤ log.retentionMaxRecords then some log.db
    else
      let pruneCount := count - log.retentionMaxRecords
      let boundarySeq := minSeq + pruneCount - 1
      if failing = some .prepareBoundary then none
      else if failing = some .stepBoundary then some log.db
      else
        match log.db.auditLog[boundarySeq]? with
        | none => some log.db
        | some boundary => sealAndPrune log.db boundarySeq boundary failing

variable (codec : AuditCodec)

def appendRecord (log : FaultAuditLog) (event : AuditEvent) (failing : Option AppendStatement) :
    Option AuditDb := do
  let newSeq := log.head.seq + 1
  let recordHash := codec.recordHash log.head.recordHash newSeq event
  let db ← runStatement failing .begin some log.db
  let db ← runStatement failing .insert
    (AuditDb.insertRecord newSeq ⟨event, log.head.recordHash, recordHash⟩) db
  let db ← runStatement failing .storeHead (AuditDb.storeHead ⟨newSeq, recordHash⟩) db
  runStatement failing .commit some db

/-- Retention after a committed append: a failed rotation is swallowed and
counted. -/
def rotateAfterAppend (log : FaultAuditLog) (failing : Option RotateStatement) : FaultAuditLog :=
  match log.rotateIfNeeded failing with
  | some db => { log with db := db }
  | none => { log with rotationFailures := log.rotationFailures + 1 }

/-- The new sequence number, or `none` where the source throws. -/
def append (log : FaultAuditLog) (event : AuditEvent) (appendFails : Option AppendStatement)
    (rotateFails : Option RotateStatement) : FaultAuditLog × Option Int :=
  match log.appendRecord codec event appendFails with
  | none => (log, none)
  | some db =>
      let newSeq := log.head.seq + 1
      let head : ChainHead := ⟨newSeq, codec.recordHash log.head.recordHash newSeq event⟩
      (rotateAfterAppend { log with db := db, head := head } rotateFails, some newSeq)

/-! ## Verification -/

structure VerifyState where
  first : Bool := true
  expectedSeq : Int := 0
  expectedPrev : Str := []
  checked : Int := 0

def VerifyState.fail (st : VerifyState) (badSeq : Int) (error : String) : AuditVerifyResult where
  ok := false
  checked := st.checked
  badSeq := badSeq
  error := error

/-- How a row has to connect to what comes before it: the first one to genesis or
to a sealed anchor, every other one to its predecessor. -/
def checkLink (db : AuditDb) (st : VerifyState) (seq : Int) (row : AuditRow) :
    Except AuditVerifyResult Unit :=
  if st.first then
    if seq = 1 then
      if row.prevHash ≠ genesisHash then
        .error (st.fail seq "first record does not link to genesis")
      else .ok ()
    else
      match db.anchors[seq - 1]? with
      | none =>
          .error (st.fail seq
            "no sealed anchor for the oldest retained record (history truncated)")
      | some anchor =>
          if row.prevHash ≠ anchor.lastHash then
            .error (st.fail seq "oldest retained record does not link to its sealed anchor")
          else .ok ()
  else if seq ≠ st.expectedSeq then
    .error (st.fail seq "non-contiguous seq (record deleted or reordered)")
  else if row.prevHash ≠ st.expectedPrev then
    .error (st.fail seq "prev_hash does not match previous record_hash (chain broken)")
  else .ok ()

def verifyRow (db : AuditDb) (st : VerifyState) (entry : Int × AuditRow) :
    Except AuditVerifyResult VerifyState :=
  match checkLink db st entry.1 entry.2 with
  | .error result => .error result
  | .ok () =>
      if codec.recordHash entry.2.prevHash entry.1 entry.2.event ≠ entry.2.recordHash then
        .error (st.fail entry.1 "record_hash mismatch (record tampered)")
      else
        .ok { first := false
              expectedSeq := entry.1 + 1
              expectedPrev := entry.2.recordHash
              checked := st.checked + 1 }

def verifyHead (db : AuditDb) (st : VerifyState) : AuditVerifyResult :=
  if st.checked > 0 then
    match db.chainHead with
    | none =>
        st.fail (st.expectedSeq - 1)
          "audit_chain_head row missing while audit_log is non-empty (head deleted / truncated)"
    | some persisted =>
        if persisted.seq ≠ st.expectedSeq - 1 ∨ persisted.recordHash ≠ st.expectedPrev then
          st.fail persisted.seq "persisted head does not match the last retained record"
        else { checked := st.checked }
  else
    match db.chainHead with
    | none => { checked := st.checked }
    | some persisted =>
        if persisted.seq ≠ 0 ∧
            db.anchors[persisted.seq]?.map (·.lastHash) ≠ some persisted.recordHash then
          st.fail persisted.seq "head references a record that is neither retained nor sealed"
        else { checked := st.checked }

def verify (db : AuditDb) : AuditVerifyResult :=
  match db.auditLog.toList.foldlM (verifyRow codec db) {} with
  | .error result => result
  | .ok st => verifyHead db st

end FaultAuditLog

end Medkit.FaultManager
