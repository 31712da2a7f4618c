import Medkit.FaultManager.AuditChain

/-! The tables of the audit log hold the end of one history of events: everything
behind the sealed boundary, and the anchor at the boundary once something has
been pruned. -/
namespace Medkit.FaultManager

open Lib HashChain

def historyHash (codec : AuditCodec) (events : List AuditEvent) : Str :=
  digest codec.recordHash genesisHash events

def historyTail (codec : AuditCodec) (events : List AuditEvent) (lo : Nat) :
    List (Block AuditEvent Str) :=
  chainTail codec.recordHash genesisHash events lo

theorem length_historyTail (codec : AuditCodec) (events : List AuditEvent) (lo : Nat) :
    (historyTail codec events lo).length = events.length - lo :=
  length_chainTail

theorem historyTail_linked (codec : AuditCodec) {events : List AuditEvent} {lo : Nat}
    (hlo : lo ≤ events.length) :
    Linked codec.recordHash (lo + 1) (historyHash codec (events.take lo))
        (historyTail codec events lo) ∧
      chainEnd (lo + 1) (historyHash codec (events.take lo)) (historyTail codec events lo) =
        ((events.length : Int) + 1, historyHash codec events) :=
  linked_chainTail hlo

def blockRow (b : Block AuditEvent Str) : Int × AuditRow := (b.seq, ⟨b.event, b.prev, b.hash⟩)

@[simp] theorem rowBlock_blockRow (b : Block AuditEvent Str) : rowBlock (blockRow b) = b := rfl

theorem accepted_cons_iff {codec : AuditCodec} {db : AuditDb} {b : Block AuditEvent Str}
    {rest : List (Block AuditEvent Str)} :
    Accepted codec db ((b :: rest).map blockRow) ↔
      Anchored db b.seq b.prev ∧ Linked codec.recordHash b.seq b.prev (b :: rest) ∧
        db.chainHead = some ⟨(chainEnd b.seq b.prev (b :: rest)).1 - 1,
          (chainEnd b.seq b.prev (b :: rest)).2⟩ := by
  have hmap : (blockRow b :: rest.map blockRow).map rowBlock = b :: rest := by
    simp [Function.comp_def]
  simp only [List.map_cons (f := blockRow), Accepted, hmap]
  rfl

structure AuditInvariant (codec : AuditCodec) (events : List AuditEvent) (lo : Nat)
    (log : FaultAuditLog) : Prop where
  head : log.head = ⟨events.length, historyHash codec events⟩
  chainHead : log.db.chainHead = if events = [] then none else some log.head
  rows : log.db.auditLog.toList = (historyTail codec events lo).map blockRow
  anchors : ∀ seq : Int, log.db.anchors[seq]?.map (·.lastHash) =
    if seq = lo ∧ 0 < lo then some (historyHash codec (events.take lo)) else none
  lo_le : lo ≤ events.length
  lo_lt : events ≠ [] → lo < events.length

namespace AuditInvariant

variable {codec : AuditCodec} {events : List AuditEvent} {lo : Nat} {log : FaultAuditLog}

section

variable (h : AuditInvariant codec events lo log)

include h

theorem mem_auditLog {seq : Int} {row : AuditRow} :
    log.db.auditLog[seq]? = some row ↔ ∃ b ∈ historyTail codec events lo, blockRow b = (seq, row) := by
  rw [← Std.ExtTreeMap.mem_toList_iff_getElem?_eq_some, h.rows, List.mem_map]

theorem seq_mem_iff (seq : Int) :
    seq ∈ log.db.auditLog ↔ (lo : Int) < seq ∧ seq ≤ log.head.seq := by
  rw [Std.ExtTreeMap.mem_iff_isSome_getElem?, Option.isSome_iff_exists]
  simp only [h.mem_auditLog, h.head]
  constructor
  · intro ⟨row, b, hb, heq⟩
    obtain ⟨i, e, hlo, he, rfl⟩ := mem_chainTail.mp hb
    obtain ⟨hi, -⟩ := List.getElem?_eq_some_iff.mp he
    cases heq
    dsimp only
    omega
  · intro ⟨hlow, hhigh⟩
    obtain ⟨i, rfl⟩ : ∃ i : Nat, seq = i + 1 := ⟨(seq - 1).toNat, by omega⟩
    have hi : i < events.length := by omega
    exact ⟨_, _, mem_chainTail.mpr ⟨i, events[i], by omega, List.getElem?_eq_getElem hi, rfl⟩, rfl⟩

theorem size_auditLog : log.db.auditLog.size = events.length - lo := by
  rw [← Std.ExtTreeMap.length_toList, h.rows, List.length_map, length_historyTail]

theorem minSeq_eq (hlt : lo < events.length) : log.db.minSeq = lo + 1 := by
  unfold AuditDb.minSeq
  rw [h.rows]
  obtain ⟨hlinked, -⟩ := historyTail_linked codec h.lo_le
  have hlen := length_historyTail codec events lo
  cases htail : historyTail codec events lo with
  | nil =>
    rw [htail, List.length_nil] at hlen
    omega
  | cons b rest =>
    rw [htail] at hlinked
    exact hlinked.1

end

theorem openLog_empty (retention : Int) :
    AuditInvariant codec [] 0 (FaultAuditLog.openLog {} retention) where
  head := rfl
  chainHead := rfl
  rows := rfl
  anchors seq := by simp [FaultAuditLog.openLog]
  lo_le := le_rfl
  lo_lt := by simp

section

variable (h : AuditInvariant codec events lo log)

include h

theorem openLog (retention : Int) :
    AuditInvariant codec events lo (FaultAuditLog.openLog log.db retention) := by
  have hhead : FaultAuditLog.loadHead log.db = log.head := by
    unfold FaultAuditLog.loadHead
    rw [h.chainHead]
    split
    · rename_i hempty
      subst hempty
      exact h.head.symm
    · rfl
  exact { h with
    head := hhead.trans h.head
    chainHead := by
      change log.db.chainHead = if events = [] then none else some (FaultAuditLog.loadHead log.db)
      rw [hhead]
      exact h.chainHead }

theorem append (event : AuditEvent) : AuditInvariant codec (events ++ [event]) lo
      { log with
        db := log.recorded codec event
        head := ⟨log.head.seq + 1,
          codec.recordHash log.head.recordHash (log.head.seq + 1) event⟩ } where
  head := by
    simp [h.head, historyHash, digest_concat]
  chainHead := by simp
  rows := by
    dsimp only
    rw [OMap.toList_insert_of_lt, h.rows, historyTail, historyTail, chainTail_concat h.lo_le,
      List.map_append]
    · simp [h.head, blockRow, historyHash]
    · intro entry hentry
      have hmem := (h.seq_mem_iff entry.1).mp
        (Std.ExtTreeMap.mem_iff_isSome_getElem?.mpr (by
          rw [Std.ExtTreeMap.mem_toList_iff_getElem?_eq_some.mp hentry]; rfl))
      exact compare_lt_iff_lt.mpr (by omega)
  anchors seq := by
    rw [h.anchors seq, List.take_append_of_le_length h.lo_le]
  lo_le := by
    have := h.lo_le
    simp
    omega
  lo_lt _ := by
    have := h.lo_le
    simp
    omega

/-- Sealing and pruning at a record `cut` of the retained tail moves the boundary
there; the anchor takes over the hash of that record. -/
theorem sealAndPrune {cut : Nat} (hlo : lo < cut) (hcut : cut < events.length) {boundary : AuditRow}
    (hboundary : log.db.auditLog[(cut : Int)]? = some boundary) {failing : Option RotateStatement}
    {db : AuditDb} (hdb : FaultAuditLog.sealAndPrune log.db cut boundary failing = some db) :
    AuditInvariant codec events cut { log with db := db } := by
  have hhash : boundary.recordHash = historyHash codec (events.take cut) := by
    obtain ⟨b, hb, heq⟩ := h.mem_auditLog.mp hboundary
    obtain ⟨i, e, -, -, rfl⟩ := mem_chainTail.mp hb
    obtain ⟨hseq, hrow⟩ := Prod.mk.inj heq
    have hi : i + 1 = cut := by
      dsimp only at hseq
      omega
    rw [← hrow, ← hi, historyHash]
  have hfresh : (cut : Int) ∉ log.db.anchors := by
    intro hmem
    obtain ⟨anchor, hanchor⟩ := Option.isSome_iff_exists.mp
      (Std.ExtTreeMap.mem_iff_isSome_getElem?.mp hmem)
    have hnone := h.anchors cut
    rw [hanchor, if_neg (by omega)] at hnone
    simp at hnone
  obtain rfl := FaultAuditLog.sealAndPrune_eq_some hdb
  exact
    { head := h.head
      chainHead := h.chainHead
      rows := by
        dsimp only
        rw [OMap.toList_keep, h.rows, List.filter_map, historyTail, historyTail,
          ← filter_chainTail hlo.le]
        rfl
      anchors := by
        intro seq
        simp only [OMap.getElem?_keep, Std.ExtTreeMap.getElem?_insertIfNew,
          Std.LawfulEqCmp.compare_eq_iff_eq]
        by_cases hseq : (cut : Int) = seq
        · subst hseq
          rw [if_pos ⟨rfl, hfresh⟩, if_pos ⟨rfl, by omega⟩]
          simp [hhash]
        · have hold := h.anchors seq
          rw [if_neg (by tauto), if_neg (by omega)]
          cases hanchor : log.db.anchors[seq]? with
          | none => rfl
          | some anchor =>
            rw [hanchor] at hold
            -- the only anchor below the new one sits at the old boundary
            have : seq = lo := by
              by_contra hne
              rw [if_neg (by tauto)] at hold
              simp at hold
            simp [Option.filter]
            omega
      lo_le := hcut.le
      lo_lt := fun _ => hcut }

theorem rotateIfNeeded {failing : Option RotateStatement} {db : AuditDb}
    (hrotate : log.rotateIfNeeded failing = some db) :
    ∃ lo', AuditInvariant codec events lo' { log with db := db } := by
  rcases FaultAuditLog.rotateIfNeeded_cases hrotate with rfl | ⟨boundary, hpos, hcount, hrow, hseal⟩
  · exact ⟨lo, h⟩
  · rw [h.size_auditLog] at *
    have hlo := h.lo_le
    rw [h.minSeq_eq (by omega)] at hrow hseal
    -- of `length - lo` rows from `lo + 1` on, all but the newest `retention` go
    obtain ⟨cut, hcut⟩ : ∃ cut : Nat, (cut : Int) = events.length - log.retentionMaxRecords :=
      ⟨(events.length - log.retentionMaxRecords).toNat, by omega⟩
    have hboundary : (lo : Int) + 1 + ((events.length - lo : Nat) - log.retentionMaxRecords) - 1 =
        cut := by omega
    rw [hboundary] at hrow hseal
    exact ⟨cut, h.sealAndPrune (by omega) (by omega) hrow hseal⟩

theorem rotateAfterAppend (failing : Option RotateStatement) :
    ∃ lo', AuditInvariant codec events lo' (log.rotateAfterAppend failing) := by
  unfold FaultAuditLog.rotateAfterAppend
  split
  · rename_i db hrotate
    exact h.rotateIfNeeded hrotate
  · exact ⟨lo, { h with }⟩

theorem chainHead_of_ne_nil (hne : events ≠ []) :
    log.db.chainHead = some ⟨events.length, historyHash codec events⟩ := by
  rw [h.chainHead, if_neg hne, h.head]

theorem anchored : Anchored log.db (lo + 1) (historyHash codec (events.take lo)) := by
  unfold Anchored
  split
  · obtain rfl : lo = 0 := by omega
    rfl
  · rw [add_sub_cancel_right, h.anchors, if_pos ⟨rfl, by omega⟩]

theorem verify_ok : (FaultAuditLog.verify codec log.db).ok = true := by
  rw [FaultAuditLog.verify_ok_iff, h.rows]
  have hlen := length_historyTail codec events lo
  obtain ⟨hlinked, hend⟩ := historyTail_linked codec h.lo_le
  cases htail : historyTail codec events lo with
  | nil =>
    intro persisted hpersisted
    have hempty : events = [] := by
      by_contra hne
      have := h.lo_lt hne
      rw [htail, List.length_nil] at hlen
      omega
    rw [h.chainHead, if_pos hempty] at hpersisted
    cases hpersisted
  | cons b rest =>
    rw [htail] at hlinked hend hlen
    have hne : events ≠ [] := by
      rintro rfl
      simp at hlen
    have hseq : b.seq = lo + 1 := hlinked.1
    have hprev : b.prev = historyHash codec (events.take lo) := hlinked.2.1
    rw [accepted_cons_iff, hseq, hprev, hend, h.chainHead_of_ne_nil hne, add_sub_cancel_right]
    exact ⟨h.anchored, hlinked, rfl⟩

end

end AuditInvariant

/-! ## Runs -/

/-- A call names the statement it fails at, if any. Closing the log and opening
it again may change the retention. -/
inductive AuditCall where
  | append (event : AuditEvent) (appendFails : Option AppendStatement)
      (rotateFails : Option RotateStatement)
  | reopen (retentionMaxRecords : Int)

def auditMachine (codec : AuditCodec) (retentionMaxRecords : Int) :
    Machine FaultAuditLog AuditCall (Option Int) where
  init := FaultAuditLog.openLog {} retentionMaxRecords
  step log
    | .append event appendFails rotateFails => log.append codec event appendFails rotateFails
    | .reopen retentionMaxRecords => (FaultAuditLog.openLog log.db retentionMaxRecords, none)

def appendedEvents : List (Event FaultAuditLog AuditCall (Option Int)) → List AuditEvent
  | [] => []
  | ⟨_, .append event _ _, some _⟩ :: earlier => appendedEvents earlier ++ [event]
  | _ :: earlier => appendedEvents earlier

section Run

variable {codec : AuditCodec} {events : List AuditEvent} {lo : Nat} {log : FaultAuditLog}

theorem AuditInvariant.append_step (h : AuditInvariant codec events lo log) (event : AuditEvent)
    (appendFails : Option AppendStatement) (rotateFails : Option RotateStatement) :
    ∃ lo', AuditInvariant codec
      (if (log.append codec event appendFails rotateFails).2 = none then events
        else events ++ [event]) lo'
      (log.append codec event appendFails rotateFails).1 := by
  unfold FaultAuditLog.append
  cases hdb : log.appendRecord codec event appendFails with
  | none => exact ⟨lo, h⟩
  | some db =>
    obtain rfl := FaultAuditLog.appendRecord_eq_some hdb
    exact (h.append event).rotateAfterAppend rotateFails

theorem auditInvariant_of_run {retention : Int} {guard : FaultAuditLog → AuditCall → Prop}
    {h : List (Event FaultAuditLog AuditCall (Option Int))}
    (hr : (auditMachine codec retention).Runs guard h log) :
    ∃ lo, AuditInvariant codec (appendedEvents h) lo log := by
  apply hr.invariant (fun h log => ∃ lo, AuditInvariant codec (appendedEvents h) lo log)
  · exact ⟨0, AuditInvariant.openLog_empty retention⟩
  · intro h log call _ _ ⟨lo, hinv⟩
    cases call with
    | append event appendFails rotateFails =>
      have hstep := hinv.append_step event appendFails rotateFails
      simp only [auditMachine]
      cases hout : (log.append codec event appendFails rotateFails).2 with
      | none => simpa [appendedEvents, hout] using hstep
      | some seq => simpa [appendedEvents, hout] using hstep
    | reopen retention' => exact ⟨lo, hinv.openLog retention'⟩

/-- In a consistent log an append fails exactly when one of its statements does. -/
theorem AuditInvariant.append_fails_iff (h : AuditInvariant codec events lo log)
    (event : AuditEvent) (appendFails : Option AppendStatement)
    (rotateFails : Option RotateStatement) :
    (log.append codec event appendFails rotateFails).2 = none ↔ appendFails ≠ none := by
  have hfresh : log.head.seq + 1 ∉ log.db.auditLog := by
    rw [h.seq_mem_iff]
    omega
  unfold FaultAuditLog.append
  cases hdb : log.appendRecord codec event appendFails with
  | none =>
    simp only [true_iff]
    rintro rfl
    simp [FaultAuditLog.appendRecord, runStatement, AuditDb.insertRecord, AuditDb.storeHead,
      hfresh] at hdb
  | some db =>
    have hnone : appendFails = none := by
      cases appendFails with
      | none => rfl
      | some statement =>
        cases statement <;>
          simp [FaultAuditLog.appendRecord, runStatement] at hdb
    simp [hnone]

theorem FaultAuditLog.append_failed {event : AuditEvent} {appendFails : Option AppendStatement}
    {rotateFails : Option RotateStatement}
    (h : (log.append codec event appendFails rotateFails).2 = none) :
    (log.append codec event appendFails rotateFails).1 = log := by
  unfold FaultAuditLog.append at *
  split
  · rfl
  · rename_i db hdb
    rw [hdb] at h
    cases h

/-- The log verifies in every state that appends, rotations and restarts reach,
whatever fails on the way: its rows are contiguous up to the head, an anchor sits
right below them, and a failed append changes nothing. -/
theorem audit_log_consistent {retention : Int}
    (hlog : (auditMachine codec retention).Reachable log) :
    (FaultAuditLog.verify codec log.db).ok = true ∧
      (∃ boundary : Int, 0 ≤ boundary ∧ boundary ≤ log.head.seq ∧
        (0 < log.head.seq → boundary < log.head.seq) ∧
        (∀ seq : Int, seq ∈ log.db.auditLog ↔ boundary < seq ∧ seq ≤ log.head.seq) ∧
        ∀ seq : Int, seq ∈ log.db.anchors → seq = boundary) ∧
      ∀ (event : AuditEvent) (appendFails : Option AppendStatement)
        (rotateFails : Option RotateStatement),
        ((log.append codec event appendFails rotateFails).2 = none ↔ appendFails ≠ none) ∧
        ((log.append codec event appendFails rotateFails).2 = none →
          (log.append codec event appendFails rotateFails).1 = log) := by
  obtain ⟨h, hr⟩ := hlog
  obtain ⟨lo, hinv⟩ := auditInvariant_of_run hr
  have hseq : log.head.seq = (appendedEvents h).length := by rw [hinv.head]
  have hlo := hinv.lo_le
  refine ⟨hinv.verify_ok, ⟨lo, by omega, by omega, ?_, hinv.seq_mem_iff, ?_⟩, ?_⟩
  · intro hpos
    have hne : appendedEvents h ≠ [] := by
      intro hnil
      rw [hnil, List.length_nil] at hseq
      omega
    have := hinv.lo_lt hne
    omega
  · intro seq hmem
    by_contra hne
    have hnone := hinv.anchors seq
    rw [if_neg (by tauto), Option.map_eq_none_iff] at hnone
    rw [Std.ExtTreeMap.mem_iff_isSome_getElem?, hnone] at hmem
    cases hmem
  · intro event appendFails rotateFails
    exact ⟨hinv.append_fails_iff event appendFails rotateFails, FaultAuditLog.append_failed⟩

end Run

def sampleAuditEvent : AuditEvent where
  faultCode := str "MOTOR_TEMP"
  transition := str "confirmed"
  severity := 2
  status := str "CONFIRMED"
  sourceId := str "/motor"
  description := []
  occurredAtNs := 7

/-- A rotation that fails on COMMIT, an append that fails on INSERT and a restart
before the next append. -/
theorem audit_log_consistent_after_failures :
    let codec : AuditCodec := ⟨fun _ => [7], fun s => s⟩
    let log := (auditMachine codec 1).exec (FaultAuditLog.openLog {} 1)
      [.append sampleAuditEvent none none, .append sampleAuditEvent none (some .commit),
        .append sampleAuditEvent (some .insert) none, .reopen 1,
        .append sampleAuditEvent none none]
    log.head.seq = 3 ∧ log.db.anchors.toList.map (·.1) = [2] ∧
      (FaultAuditLog.verify codec log.db).ok = true := by
  intro codec log
  exact ⟨by decide, by decide,
    (audit_log_consistent (Machine.reachable_exec (auditMachine codec 1) _)).1⟩

end Medkit.FaultManager
