import Medkit.Lib.HashChain
import Medkit.Lib.Machine
import Medkit.FaultManager.AuditLog

/-! The audit log as a hash chain. The walk of `verify` accepts exactly the linked
segments that start at genesis or at a sealed anchor and end at the persisted
head; appends, rotations and restarts, failing wherever they may, keep the tables
such a segment of one history. -/
namespace Medkit.FaultManager

open Lib HashChain

/-! ## What verification accepts -/

def rowBlock (entry : Int × AuditRow) : Block AuditEvent Str where
  seq := entry.1
  event := entry.2.event
  prev := entry.2.prevHash
  hash := entry.2.recordHash

def Anchored (db : AuditDb) (seq : Int) (prevHash : Str) : Prop :=
  if seq = 1 then prevHash = genesisHash
  else db.anchors[seq - 1]?.map (·.lastHash) = some prevHash

/-- The condition that `verify` tests, on the rows in order of their number. -/
def Accepted (codec : AuditCodec) (db : AuditDb) : List (Int × AuditRow) → Prop
  | [] => ∀ persisted, db.chainHead = some persisted → persisted.seq ≠ 0 →
      db.anchors[persisted.seq]?.map (·.lastHash) = some persisted.recordHash
  | oldest :: rest =>
      Anchored db oldest.1 oldest.2.prevHash ∧
        Linked codec.recordHash oldest.1 oldest.2.prevHash ((oldest :: rest).map rowBlock) ∧
        db.chainHead =
          some ⟨(chainEnd oldest.1 oldest.2.prevHash ((oldest :: rest).map rowBlock)).1 - 1,
            (chainEnd oldest.1 oldest.2.prevHash ((oldest :: rest).map rowBlock)).2⟩

namespace FaultAuditLog

variable {codec : AuditCodec} {db : AuditDb}

variable {seq : Int} {row : AuditRow} {st : VerifyState} {result : AuditVerifyResult}

theorem checkLink_first : checkLink db {} seq row = .ok () ↔ Anchored db seq row.prevHash := by
  unfold checkLink Anchored
  simp only [if_true]
  by_cases hseq : seq = 1
  · simp [hseq]
  · rw [if_neg hseq, if_neg hseq]
    cases db.anchors[seq - 1]? with
    | none => simp
    | some anchor => simp [eq_comm]

theorem checkLink_next (hst : st.first = false) :
    checkLink db st seq row = .ok () ↔ seq = st.expectedSeq ∧ row.prevHash = st.expectedPrev := by
  unfold checkLink
  rw [hst]
  simp only [Bool.false_eq_true, if_false]
  split_ifs <;> simp_all

theorem verifyRow_eq_ok {st' : VerifyState} {entry : Int × AuditRow} :
    verifyRow codec db st entry = .ok st' ↔
      checkLink db st entry.1 entry.2 = .ok () ∧
        codec.recordHash entry.2.prevHash entry.1 entry.2.event = entry.2.recordHash ∧
        st' = { first := false, expectedSeq := entry.1 + 1, expectedPrev := entry.2.recordHash
                checked := st.checked + 1 } := by
  unfold verifyRow
  cases checkLink db st entry.1 entry.2 with
  | error result => simp
  | ok u =>
    simp only [true_and]
    split_ifs with h
    · simp [h]
    · simp [not_not.mp h, eq_comm]

theorem foldlM_verifyRow {entries : List (Int × AuditRow)} {st' : VerifyState}
    (hst : st.first = false) : entries.foldlM (verifyRow codec db) st = .ok st' ↔
      Linked codec.recordHash st.expectedSeq st.expectedPrev (entries.map rowBlock) ∧
        st' = { first := false
                expectedSeq :=
                  (chainEnd st.expectedSeq st.expectedPrev (entries.map rowBlock)).1
                expectedPrev :=
                  (chainEnd st.expectedSeq st.expectedPrev (entries.map rowBlock)).2
                checked := st.checked + entries.length } := by
  induction entries generalizing st with
  | nil =>
    cases st
    subst hst
    simp [Linked, chainEnd, pure, Except.pure, eq_comm]
  | cons entry entries ih =>
    rw [List.foldlM_cons]
    constructor
    · intro h
      cases hrow : verifyRow codec db st entry with
      | error result => simp [hrow, bind, Except.bind] at h
      | ok next =>
        obtain ⟨hlink, hhash, rfl⟩ := verifyRow_eq_ok.mp hrow
        obtain ⟨hseq, hprev⟩ := (checkLink_next hst).mp hlink
        rw [hrow] at h
        obtain ⟨hrest, rfl⟩ := (ih rfl).mp h
        refine ⟨⟨hseq, hprev, hhash, hrest⟩, ?_⟩
        simp [chainEnd, rowBlock]
        ring
    · rintro ⟨⟨hseq, hprev, hhash, hrest⟩, rfl⟩
      have hlink : checkLink db st entry.1 entry.2 = .ok () :=
        (checkLink_next hst).mpr ⟨hseq, hprev⟩
      rw [verifyRow_eq_ok.mpr ⟨hlink, hhash, rfl⟩]
      refine (ih rfl).mpr ⟨hrest, ?_⟩
      simp [chainEnd, rowBlock]
      ring

theorem verifyHead_ok (hst : 0 < st.checked) :
    (verifyHead db st).ok = true ↔ db.chainHead = some ⟨st.expectedSeq - 1, st.expectedPrev⟩ := by
  unfold verifyHead
  rw [if_pos hst]
  cases db.chainHead with
  | none => simp [VerifyState.fail]
  | some persisted =>
    cases persisted
    dsimp only
    split_ifs with h
    · simp [VerifyState.fail]
      tauto
    · simpa using h

theorem checkLink_error (h : checkLink db st seq row = .error result) : result.ok = false := by
  unfold checkLink at h
  split at h
  · split at h
    · split at h <;> cases h
      rfl
    · split at h
      · cases h
        rfl
      · split at h <;> cases h
        rfl
  · split_ifs at h <;> cases h <;> rfl

theorem verifyRow_error {entry : Int × AuditRow} (h : verifyRow codec db st entry = .error result) :
    result.ok = false := by
  unfold verifyRow at h
  cases hlink : checkLink db st entry.1 entry.2 with
  | error first =>
    rw [hlink] at h
    cases h
    exact checkLink_error hlink
  | ok u =>
    rw [hlink] at h
    dsimp only at h
    split at h <;> cases h
    rfl

theorem foldlM_error {entries : List (Int × AuditRow)}
    (h : entries.foldlM (verifyRow codec db) st = .error result) : result.ok = false := by
  induction entries generalizing st with
  | nil => simp [pure, Except.pure] at h
  | cons entry entries ih =>
    rw [List.foldlM_cons] at h
    cases hrow : verifyRow codec db st entry with
    | error first =>
      rw [hrow] at h
      cases h
      exact verifyRow_error hrow
    | ok next =>
      rw [hrow] at h
      exact ih h

theorem verify_ok_iff_walk : (verify codec db).ok = true ↔
      ∃ st, db.auditLog.toList.foldlM (verifyRow codec db) {} = .ok st ∧
        (verifyHead db st).ok = true := by
  unfold verify
  cases hwalk : db.auditLog.toList.foldlM (verifyRow codec db) {} with
  | error result => simp [foldlM_error hwalk]
  | ok st => simp

theorem verify_ok_iff : (verify codec db).ok = true ↔ Accepted codec db db.auditLog.toList := by
  rw [verify_ok_iff_walk]
  cases db.auditLog.toList with
  | nil =>
    simp only [List.foldlM_nil, pure, Except.pure, Except.ok.injEq, exists_eq_left', Accepted,
      verifyHead]
    rw [if_neg (by decide)]
    cases db.chainHead with
    | none => simp
    | some persisted =>
      dsimp only
      split_ifs with h
      · simpa [VerifyState.fail] using h
      · simpa using h
  | cons oldest rest =>
    rw [List.foldlM_cons]
    constructor
    · rintro ⟨st, hwalk, hhead⟩
      cases hrow : verifyRow codec db {} oldest with
      | error result => simp [hrow, bind, Except.bind] at hwalk
      | ok next =>
        obtain ⟨hlink, hhash, rfl⟩ := verifyRow_eq_ok.mp hrow
        rw [hrow] at hwalk
        obtain ⟨hrest, rfl⟩ := (foldlM_verifyRow rfl).mp hwalk
        exact ⟨checkLink_first.mp hlink, ⟨rfl, rfl, hhash, hrest⟩,
          (verifyHead_ok (by dsimp only; omega)).mp hhead⟩
    · rintro ⟨hanchored, ⟨-, -, hhash, hrest⟩, hhead⟩
      have hrow := verifyRow_eq_ok.mpr ⟨checkLink_first.mpr hanchored, hhash, rfl⟩
      rw [hrow]
      exact ⟨_, (foldlM_verifyRow rfl).mpr ⟨hrest, rfl⟩,
        (verifyHead_ok (by dsimp only; omega)).mpr hhead⟩

end FaultAuditLog

/-! ## Transactions -/

theorem runStatement_eq_some {σ : Type} [DecidableEq σ] {failing : Option σ} {statement : σ}
    {effect : AuditDb → Option AuditDb} {db db' : AuditDb}
    (h : runStatement failing statement effect db = some db') : effect db = some db' := by
  unfold runStatement at h
  split at h
  · cases h
  · exact h

namespace FaultAuditLog

abbrev recorded (codec : AuditCodec) (log : FaultAuditLog) (event : AuditEvent) : AuditDb :=
  let hash := codec.recordHash log.head.recordHash (log.head.seq + 1) event
  { log.db with
    auditLog := log.db.auditLog.insert (log.head.seq + 1) ⟨event, log.head.recordHash, hash⟩
    chainHead := some ⟨log.head.seq + 1, hash⟩ }

theorem appendRecord_eq_some {codec : AuditCodec} {log : FaultAuditLog} {event : AuditEvent}
    {failing : Option AppendStatement} {db : AuditDb}
    (h : log.appendRecord codec event failing = some db) :
    db = log.recorded codec event := by
  simp only [appendRecord, bind, Option.bind_eq_some_iff] at h
  obtain ⟨db₁, h₁, db₂, h₂, db₃, h₃, h₄⟩ := h
  obtain rfl := Option.some.inj (runStatement_eq_some h₁)
  have hinsert := runStatement_eq_some h₂
  unfold AuditDb.insertRecord at hinsert
  split at hinsert
  · cases hinsert
  · obtain rfl := Option.some.inj hinsert
    obtain rfl := Option.some.inj (runStatement_eq_some h₃)
    obtain rfl := Option.some.inj (runStatement_eq_some h₄)
    rfl

theorem sealAndPrune_eq_some {db db' : AuditDb} {boundarySeq : Int} {boundary : AuditRow}
    {failing : Option RotateStatement}
    (h : sealAndPrune db boundarySeq boundary failing = some db') :
    db' = { db with
      auditLog := db.auditLog.keep fun seq _ => ¬ seq ≤ boundarySeq
      anchors := OMap.keep (fun seq _ => ¬ seq < boundarySeq)
        (db.anchors.insertIfNew boundarySeq ⟨boundary.event.occurredAtNs, boundary.recordHash⟩)
      pruneGuard := false } := by
  simp only [sealAndPrune, bind, Option.bind_eq_some_iff] at h
  obtain ⟨db₁, h₁, db₂, h₂, db₃, h₃, db₄, h₄, db₅, h₅, db₆, h₆, h₇⟩ := h
  obtain rfl := Option.some.inj (runStatement_eq_some h₁)
  obtain rfl := Option.some.inj (runStatement_eq_some h₂)
  obtain rfl := Option.some.inj (runStatement_eq_some h₃)
  obtain rfl := Option.some.inj (runStatement_eq_some h₄)
  obtain rfl := Option.some.inj (runStatement_eq_some h₅)
  obtain rfl := Option.some.inj (runStatement_eq_some h₆)
  obtain rfl := Option.some.inj (runStatement_eq_some h₇)
  rfl

/-- A rotation leaves the tables alone or seals and prunes up to the row that
leaves exactly `retentionMaxRecords` of the counted ones. -/
theorem rotateIfNeeded_cases {log : FaultAuditLog} {failing : Option RotateStatement}
    {db : AuditDb} (h : log.rotateIfNeeded failing = some db) :
    db = log.db ∨
      ∃ boundary, 0 < log.retentionMaxRecords ∧
        log.retentionMaxRecords < log.db.auditLog.size ∧
        log.db.auditLog[log.db.minSeq +
          (log.db.auditLog.size - log.retentionMaxRecords) - 1]? = some boundary ∧
        sealAndPrune log.db (log.db.minSeq +
          (log.db.auditLog.size - log.retentionMaxRecords) - 1) boundary failing = some db := by
  unfold rotateIfNeeded at h
  split at h
  · exact .inl (Option.some.inj h).symm
  rename_i hretention
  split at h
  · cases h
  by_cases hstep : failing = some .stepCount
  · -- the failed count reads 0, which no positive retention exceeds
    simp only [hstep, if_true] at h
    rw [if_pos (by omega)] at h
    exact .inl (Option.some.inj h).symm
  · simp only [hstep, if_false] at h
    split at h
    · exact .inl (Option.some.inj h).symm
    rename_i hcount
    split at h
    · cases h
    split at h
    · exact .inl (Option.some.inj h).symm
    split at h
    · exact .inl (Option.some.inj h).symm
    · rename_i boundary hboundary
      exact .inr ⟨boundary, by omega, by omega, hboundary, h⟩

end FaultAuditLog

end Medkit.FaultManager
