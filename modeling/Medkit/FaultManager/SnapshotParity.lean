import Medkit.FaultManager.Snapshots
import Medkit.FaultManager.StorageParity

/-! The two backends hold the same snapshot rows. What decides which rows go is
the status of the faults, so the statuses and the counters they come from are
followed along; the other fields of the faults are not. -/
namespace Medkit.FaultManager

open Lib

structure SnapshotsAgree (st : InMemorySnapshotStore) (db : SqliteSnapshotStore) : Prop where
  snapshots : db.snapshots.rows.toList.map (·.2) = st.snapshots
  faults : ∀ code : Str, Option.Rel StatusMatches st.faults[code]? db.faults[code]?
  retain : db.retainSnapshotsOnClear = st.retainSnapshotsOnClear
  cap : db.maxSnapshotsPerFault = st.maxSnapshotsPerFault

/-! ## Storing -/

variable (table : Table SnapshotData)

theorem map_row_select (p : SnapshotData → Bool) :
    (table.select p).map (·.2) = (table.rows.toList.map (·.2)).filter p := by
  unfold Table.select
  rw [List.filter_map]
  rfl

theorem toList_foldl_insert (snapshots : List SnapshotData) :
    (snapshots.foldl Table.insert table).rows.toList.map (·.2) =
      table.rows.toList.map (·.2) ++ snapshots := by
  induction snapshots generalizing table with
  | nil => exact (List.append_nil _).symm
  | cons first rest ih =>
    rw [List.foldl_cons, ih, Table.toList_insert, List.map_append, List.append_assoc]
    rfl

theorem min?_filter_ne {ids : List Int} {newest : Int} (hnewest : ∀ id ∈ ids, id ≤ newest) :
    (ids.filter (· ≠ newest)).min? = ids.min?.filter (· ≠ newest) := by
  cases hmin : ids.min? with
  | none =>
    rw [List.min?_eq_none_iff.mp hmin]
    rfl
  | some oldest =>
    obtain ⟨hmem, hle⟩ := List.min?_eq_some_iff.mp hmin
    by_cases heq : oldest = newest
    · subst heq
      have hnone : ids.filter (· ≠ oldest) = [] := by
        rw [List.filter_eq_nil_iff]
        intro id hid
        simpa using le_antisymm (hnewest id hid) (hle id hid)
      rw [hnone, Option.filter_some, if_neg (by simp)]
      rfl
    · rw [Option.filter_some, if_pos (by simpa using heq)]
      apply List.min?_eq_some_iff.mpr
      exact ⟨List.mem_filter.mpr ⟨hmem, by simpa using heq⟩,
        fun id hid => hle id (List.mem_filter.mp hid).1⟩

theorem map_row_delete_trimmed (faultCode : Str) (newest : Int) {table : Table SnapshotData}
    {updated : List SnapshotData} (hrows : table.rows.toList.map (·.2) = updated) :
    (table.delete (SqliteSnapshotStore.trimmed faultCode newest table)).rows.toList.map (·.2) =
      updated.filter fun s => !(s.ofFault faultCode && some s.captureId =
        ((updated.filter (·.ofFault faultCode)).map (·.captureId)).min?.filter (· ≠ newest)) := by
  have hids : (table.select (·.ofFault faultCode)).map (·.2.captureId) =
      (updated.filter (·.ofFault faultCode)).map (·.captureId) := by
    rw [← hrows, ← map_row_select, List.map_map]
    rfl
  rw [Table.toList_delete, ← hrows, List.filter_map, hrows]
  apply congrArg
  apply List.filter_congr
  intro entry _
  unfold SqliteSnapshotStore.trimmed
  rw [hids]
  cases ((updated.filter (·.ofFault faultCode)).map (·.captureId)).min? with
  | none => simp
  | some oldest =>
    rw [Option.filter_some]
    grind

theorem countMatching_add_delete (drop : Nat → SnapshotData → Bool) :
    table.countMatching drop + ((table.delete drop).rows.toList.map (·.2)).length =
      (table.rows.toList.map (·.2)).length := by
  rw [Table.toList_delete, List.length_map, List.length_map]
  unfold Table.countMatching
  exact (List.length_eq_length_filter_add fun entry : Nat × SnapshotData =>
    drop entry.1 entry.2).symm

/-- The captures of a fault are trimmed alike: the smallest capture id is the oldest
other than the newest, unless only the newest is left. -/
theorem trimCaptures_rows (maxCount : Nat) (faultCode : Str) {newest : Int} (fuel : Nat)
    {table : Table SnapshotData} {updated : List SnapshotData}
    (hrows : table.rows.toList.map (·.2) = updated) (hcount : updated.length ≤ int32Max)
    (hnewest : ∀ s ∈ updated, s.ofFault faultCode → s.captureId ≤ newest) :
    (SqliteSnapshotStore.trimCaptures maxCount faultCode newest fuel table).rows.toList.map (·.2) =
      InMemorySnapshotStore.trimCaptures maxCount faultCode newest fuel updated := by
  induction fuel generalizing table updated with
  | zero => exact hrows
  | succ fuel ih =>
    have hlength : (table.select (·.ofFault faultCode)).length =
        (updated.filter (·.ofFault faultCode)).length := by
      rw [← hrows, ← map_row_select, List.length_map]
    have hids : ∀ id ∈ (updated.filter (·.ofFault faultCode)).map (·.captureId), id ≤ newest := by
      intro id hid
      obtain ⟨s, hs, rfl⟩ := List.mem_map.mp hid
      obtain ⟨hs, hfault⟩ := List.mem_filter.mp hs
      exact hnewest s hs hfault
    have hdelete := map_row_delete_trimmed faultCode newest hrows
    have hcounted := countMatching_add_delete table
      (SqliteSnapshotStore.trimmed faultCode newest table)
    rw [hdelete, hrows] at hcounted
    unfold SqliteSnapshotStore.trimCaptures InMemorySnapshotStore.trimCaptures
    dsimp only
    rw [hlength, min?_filter_ne hids]
    split
    · exact hrows
    cases htarget : ((updated.filter (·.ofFault faultCode)).map (·.captureId)).min?.filter
        (· ≠ newest) with
    | none =>
      have hsame : updated.filter (fun s => !(s.ofFault faultCode &&
          decide (some s.captureId = none))) = updated := List.filter_eq_self.mpr (by simp)
      rw [htarget, hsame] at hdelete hcounted
      have hzero : table.countMatching (SqliteSnapshotStore.trimmed faultCode newest table) = 0 := by
        omega
      rw [if_pos (by rw [hzero]; rfl)]
      exact hdelete
    | some oldest =>
      simp only [htarget, Option.some.injEq] at hdelete hcounted
      have hmem := List.min?_mem (Option.filter_eq_some_iff.mp htarget).1
      obtain ⟨s, hs, hid⟩ := List.mem_map.mp hmem
      obtain ⟨hs, hfault⟩ := List.mem_filter.mp hs
      have hlt : (updated.filter fun s =>
          !(s.ofFault faultCode && decide (s.captureId = oldest))).length < updated.length := by
        apply List.length_filter_lt_length_iff_exists.mpr
        exact ⟨s, hs, by simp [hfault, hid]⟩
      rw [if_neg (by rw [sqlite3Changes_of_le (by omega)]; omega)]
      apply ih hdelete (by omega)
      intro s hs
      exact hnewest s (List.mem_filter.mp hs).1

namespace SnapshotsAgree

variable {st : InMemorySnapshotStore} {db : SqliteSnapshotStore}

theorem storeSnapshots (h : SnapshotsAgree st db) (snapshots : List SnapshotData)
    (hcount : st.snapshots.length + snapshots.length ≤ int32Max) :
    SnapshotsAgree (st.storeSnapshots snapshots) (db.storeSnapshots snapshots) := by
  cases snapshots with
  | nil => exact h
  | cons first rest =>
    have hinserted := toList_foldl_insert db.snapshots (first :: rest)
    rw [h.snapshots] at hinserted
    have hids : ((((first :: rest).foldl Table.insert db.snapshots).select
        (·.ofFault first.faultCode)).map (·.2.captureId)) =
        ((st.snapshots ++ first :: rest).filter (·.ofFault first.faultCode)).map
          (·.captureId) := by
      rw [← hinserted, ← map_row_select, List.map_map]
      rfl
    have hlength : ((first :: rest).foldl Table.insert db.snapshots).rows.toList.length =
        (st.snapshots ++ first :: rest).length := by
      rw [← hinserted, List.length_map]
    refine ⟨?_, h.faults, h.retain, h.cap⟩
    unfold InMemorySnapshotStore.storeSnapshots SqliteSnapshotStore.storeSnapshots
    dsimp only
    rw [hids, hlength, h.cap]
    -- the batch itself is among the rows, so there is a newest capture
    obtain ⟨newest, hnewest⟩ : ∃ newest, (((st.snapshots ++ first :: rest).filter
        (·.ofFault first.faultCode)).map (·.captureId)).max? = some newest := by
      apply Option.isSome_iff_exists.mp
      rw [Option.isSome_iff_ne_none, ne_eq, List.max?_eq_none_iff, List.map_eq_nil_iff,
        List.filter_eq_nil_iff]
      push Not
      exact ⟨first, by simp, by simp [SnapshotData.ofFault]⟩
    rw [hnewest, Option.getD_some]
    dsimp only
    split
    · apply trimCaptures_rows _ _ _ hinserted (by rw [List.length_append]; exact hcount)
      intro s hs hfault
      apply (List.max?_eq_some_iff.mp hnewest).2
      exact List.mem_map.mpr ⟨s, List.mem_filter.mpr ⟨hs, hfault⟩, rfl⟩
    · exact hinserted

end SnapshotsAgree

/-! ## The calls of the fault store -/

theorem InMemoryFaultStorage.reportFaultEvent_snapshots (st : InMemoryFaultStorage)
    (r : FaultReport) : (st.reportFaultEvent r).1.snapshots = st.snapshots ∧
      (st.reportFaultEvent r).1.retainSnapshotsOnClear = st.retainSnapshotsOnClear := by
  have hstore (state : FaultState) : (st.storeFailed r state).snapshots = st.snapshots ∧
      (st.storeFailed r state).retainSnapshotsOnClear = st.retainSnapshotsOnClear := by
    unfold storeFailed
    dsimp only
    split <;> exact ⟨rfl, rfl⟩
  unfold reportFaultEvent
  split <;> split_ifs <;> first | exact ⟨rfl, rfl⟩ | exact hstore _

variable (db : SqliteFaultStorage)

theorem SqliteFaultStorage.reportFaultEvent_snapshots (r : FaultReport) :
    (db.reportFaultEvent r).1.snapshots = db.snapshots ∧
      (db.reportFaultEvent r).1.retainSnapshotsOnClear = db.retainSnapshotsOnClear := by
  have hstore (row : FaultRow) : (db.storeFailed r row).snapshots = db.snapshots ∧
      (db.storeFailed r row).retainSnapshotsOnClear = db.retainSnapshotsOnClear := by
    unfold storeFailed
    dsimp only
    split <;> exact ⟨rfl, rfl⟩
  unfold reportFaultEvent
  split <;> split_ifs <;> first | exact ⟨rfl, rfl⟩ | exact hstore _

theorem SqliteFaultStorage.storeFailed_faults (r : FaultReport) (row : FaultRow) :
    (db.storeFailed r row).faults = db.faults.insert r.faultCode row := by
  unfold storeFailed
  dsimp only
  split <;> rfl

def FaultRow.afterReport (r : FaultReport) : Option FaultRow → Option FaultRow
  | none => if r.isFailed then some (.created r) else none
  | some row =>
      if row.isReactivation && !r.isFailed then some row
      else if r.isFailed then some (row.failed r)
      else some (row.passed r)

theorem SqliteFaultStorage.reportFaultEvent_faults (r : FaultReport) (code : Str) :
    (db.reportFaultEvent r).1.faults[code]? =
      if r.faultCode = code then FaultRow.afterReport r db.faults[code]? else db.faults[code]? := by
  unfold reportFaultEvent FaultRow.afterReport
  by_cases hcode : r.faultCode = code
  · subst hcode
    rw [if_pos rfl]
    cases hrow : db.faults[r.faultCode]? with
    | none => dsimp only; split_ifs <;> simp_all [storeFailed_faults]
    | some row => dsimp only; split_ifs <;> simp_all [storeFailed_faults]
  · rw [if_neg hcode]
    split <;> split_ifs <;> simp [storeFailed_faults, Std.ExtTreeMap.getElem?_insert, hcode]

theorem StatusMatches.afterReport {r : FaultReport} (hc : r.config.Valid)
    {before : Option FaultState} {stored : Option FaultRow}
    (h : Option.Rel StatusMatches before stored) :
    Option.Rel StatusMatches (FaultState.afterReport r before) (FaultRow.afterReport r stored) := by
  unfold FaultState.afterReport FaultRow.afterReport
  cases h with
  | none =>
    dsimp only
    split
    · exact .some (.created r)
    · exact .none
  | @some state row hm =>
    have hre : row.isReactivation = decide (state.status = .cleared) := by
      rw [FaultRow.isReactivation, hm.status]
    dsimp only
    rw [hre]
    by_cases hcleared : state.status = .cleared <;> by_cases hfailed : r.isFailed
    · simpa [hcleared, hfailed] using Option.Rel.some (hm.reactivated hc hcleared)
    · simpa [hcleared, hfailed] using Option.Rel.some hm
    · simpa [hcleared, hfailed] using Option.Rel.some (hm.failed hcleared)
    · simpa [hcleared, hfailed] using Option.Rel.some (hm.passed r)

theorem map_row_delete (table : Table SnapshotData) (p : SnapshotData → Bool) :
    (table.delete fun _ snapshot => p snapshot).rows.toList.map (·.2) =
      (table.rows.toList.map (·.2)).filter fun snapshot => !p snapshot := by
  rw [Table.toList_delete, List.filter_map]
  rfl

/-- Reclassification drops the snapshots of the HEALED faults; that there may be none
is no special case in either backend. -/
theorem InMemoryFaultStorage.reclassifyHealedAsCleared_snapshots (st : InMemoryFaultStorage) :
    st.reclassifyHealedAsCleared.1.snapshots =
      if st.retainSnapshotsOnClear then st.snapshots
      else st.snapshots.filter
        (·.faultCode ∉ (st.faults.toList.filter (·.2.status = .healed)).map (·.1)) := by
  unfold reclassifyHealedAsCleared
  dsimp only
  cases (st.faults.toList.filter (·.2.status = .healed)).map (·.1) with
  | nil => simp
  | cons code codes => cases st.retainSnapshotsOnClear <;> simp

theorem SqliteFaultStorage.reclassifyHealedAsCleared_snapshots :
    db.reclassifyHealedAsCleared.1.snapshots.rows.toList.map (·.2) =
      if db.retainSnapshotsOnClear then db.snapshots.rows.toList.map (·.2)
      else (db.snapshots.rows.toList.map (·.2)).filter
        (·.faultCode ∉ (db.faults.toList.filter (·.2.status = .healed)).map (·.1)) := by
  unfold reclassifyHealedAsCleared
  dsimp only
  generalize (db.faults.toList.filter (·.2.status = .healed)).map (·.1) = healed
  cases healed with
  | nil => simp
  | cons code codes =>
    rw [if_neg (by simp)]
    dsimp only
    split
    · rfl
    · rw [map_row_delete]
      apply List.filter_congr
      simp

namespace SnapshotsAgree

variable {st : InMemorySnapshotStore} {db : SqliteSnapshotStore}

theorem reportFaultEvent (h : SnapshotsAgree st db) {r : FaultReport} (hc : r.config.Valid) :
    SnapshotsAgree (st.step (.reportFaultEvent r)) (db.step (.reportFaultEvent r)) := by
  obtain ⟨hsnapshots, hretain⟩ := st.toInMemoryFaultStorage.reportFaultEvent_snapshots r
  obtain ⟨hsnapshots', hretain'⟩ := db.toSqliteFaultStorage.reportFaultEvent_snapshots r
  refine ⟨?_, fun code => ?_, ?_, h.cap⟩
  · exact (congrArg (fun t : Table SnapshotData => t.rows.toList.map (·.2)) hsnapshots').trans
      (h.snapshots.trans hsnapshots.symm)
  · have hfaults := st.toInMemoryFaultStorage.reportFaultEvent_faults r code
    have hfaults' := db.toSqliteFaultStorage.reportFaultEvent_faults r code
    simp only [InMemorySnapshotStore.step, SqliteSnapshotStore.step, hfaults, hfaults']
    split
    · exact StatusMatches.afterReport hc (h.faults code)
    · exact h.faults code
  · exact hretain'.trans (h.retain.trans hretain.symm)

/-- SQLite deletes the snapshots before it looks for the fault. -/
theorem clearFault (h : SnapshotsAgree st db) {faultCode : Str}
    (hknown : st.retainSnapshotsOnClear ∨ faultCode ∈ st.faults ∨
      ∀ snapshot ∈ st.snapshots, snapshot.faultCode ≠ faultCode) :
    SnapshotsAgree (st.step (.clearFault faultCode)) (db.step (.clearFault faultCode)) := by
  have hframe : (st.toInMemoryFaultStorage.clearFault faultCode).1.retainSnapshotsOnClear =
      st.retainSnapshotsOnClear := by
    unfold InMemoryFaultStorage.clearFault
    split <;> rfl
  have hsnapshots : (st.toInMemoryFaultStorage.clearFault faultCode).1.snapshots =
      if st.retainSnapshotsOnClear then st.snapshots
      else st.snapshots.filter (·.faultCode ≠ faultCode) := by
    unfold InMemoryFaultStorage.clearFault
    split
    · rename_i habsent
      split
      · rfl
      · rename_i hretain
        symm
        apply List.filter_eq_self.mpr
        intro snapshot hsnapshot
        have hnone : faultCode ∉ st.faults := by
          rw [Std.ExtTreeMap.mem_iff_isSome_getElem?, habsent]
          simp
        simpa using ((hknown.resolve_left hretain).resolve_left hnone) snapshot hsnapshot
    · rfl
  refine ⟨?_, rel_clearFault h.faults (·.withStatus .cleared) faultCode,
    h.retain.trans hframe.symm, h.cap⟩
  simp only [InMemorySnapshotStore.step, SqliteSnapshotStore.step, hsnapshots,
    SqliteFaultStorage.clearFault, h.retain]
  split
  · exact h.snapshots
  · rw [map_row_delete, h.snapshots]
    apply List.filter_congr
    simp

theorem reclassifyHealedAsCleared (h : SnapshotsAgree st db) :
    SnapshotsAgree (st.step .reclassifyHealedAsCleared) (db.step .reclassifyHealedAsCleared) := by
  have hretain : db.toSqliteFaultStorage.reclassifyHealedAsCleared.1.retainSnapshotsOnClear =
      db.retainSnapshotsOnClear := by
    unfold SqliteFaultStorage.reclassifyHealedAsCleared
    dsimp only
    split <;> rfl
  refine ⟨?_, rel_reclassifyHealedAsCleared h.faults (·.withStatus .cleared) (·.status),
    hretain.trans h.retain, h.cap⟩
  simp only [InMemorySnapshotStore.step, SqliteSnapshotStore.step,
    SqliteFaultStorage.reclassifyHealedAsCleared_snapshots,
    InMemoryFaultStorage.reclassifyHealedAsCleared_snapshots, h.retain, h.snapshots,
    mem_healed_iff h.faults (·.status)]

end SnapshotsAgree

/-! ## Queries -/

instance : Std.Total SnapshotData.NotOlder :=
  ⟨fun a b => by unfold SnapshotData.NotOlder; omega⟩

instance : IsTrans SnapshotData SnapshotData.NotOlder :=
  ⟨fun a b c => by unfold SnapshotData.NotOlder; omega⟩

structure SnapshotData.Plain (snapshot : SnapshotData) : Prop where
  faultCode : (0 : Byte) ∉ snapshot.faultCode
  topic : (0 : Byte) ∉ snapshot.topic
  messageType : (0 : Byte) ∉ snapshot.messageType
  data : (0 : Byte) ∉ snapshot.data

theorem SnapshotData.Plain.readSnapshot {snapshot : SnapshotData} (h : snapshot.Plain) :
    SqliteSnapshotStore.readSnapshot snapshot = snapshot := by
  unfold SqliteSnapshotStore.readSnapshot columnText
  rw [cString_eq_self h.faultCode, cString_eq_self h.topic, cString_eq_self h.messageType,
    cString_eq_self h.data]

def SnapshotData.place (snapshot : SnapshotData) : Int × Int :=
  (snapshot.captureId, snapshot.capturedAtNs)

variable {st : InMemorySnapshotStore}

theorem SnapshotsAgree.getSnapshots {db : SqliteSnapshotStore} (h : SnapshotsAgree st db)
    (hplain : ∀ snapshot ∈ st.snapshots, snapshot.Plain) {faultCode topicFilter : Str}
    {answer : List SnapshotData} (hanswer : db.GetSnapshots faultCode topicFilter answer) :
    answer.Perm (st.getSnapshots faultCode topicFilter) ∧
      answer.map SnapshotData.place =
        (st.getSnapshots faultCode topicFilter).map SnapshotData.place := by
  obtain ⟨rows, hperm, hsorted, rfl⟩ := hanswer
  rw [map_row_select, h.snapshots] at hperm
  have hread : rows.map SqliteSnapshotStore.readSnapshot = rows := by
    conv_rhs => rw [← List.map_id rows]
    apply List.map_congr_left
    intro snapshot hsnapshot
    exact (hplain snapshot (List.mem_filter.mp (hperm.mem_iff.mp hsnapshot)).1).readSnapshot
  have hsame : rows.Perm (st.getSnapshots faultCode topicFilter) :=
    hperm.trans (List.perm_insertionSort _ _).symm
  have hsorted' : (st.getSnapshots faultCode topicFilter).Pairwise SnapshotData.NotOlder :=
    List.pairwise_insertionSort _ _
  rw [hread]
  refine ⟨hsame, ?_⟩
  -- two orders of the same places, both from the newest down
  have hplaces : (rows.map SnapshotData.place).Pairwise
      fun p q => q.1 < p.1 ∨ q.1 = p.1 ∧ q.2 ≤ p.2 := List.pairwise_map.mpr hsorted
  have hplaces' : ((st.getSnapshots faultCode topicFilter).map SnapshotData.place).Pairwise
      fun p q => q.1 < p.1 ∨ q.1 = p.1 ∧ q.2 ≤ p.2 := List.pairwise_map.mpr hsorted'
  apply (hsame.map SnapshotData.place).eq_of_pairwise _ hplaces hplaces'
  intro p q _ _ hpq hqp
  exact Prod.ext (by omega) (by omega)

/-! ## Runs -/

/-- The calls after which the backends hold the same snapshots: thresholds as
`sanitize_debounce_config` leaves them, no clear of a code that has snapshots but
no fault, texts without NUL bytes, and rows that an `int` can count. -/
def SnapshotCall.WithinSqlite (st : InMemorySnapshotStore) : SnapshotCall → Prop
  | .reportFaultEvent r => r.config.Valid
  | .clearFault faultCode => st.retainSnapshotsOnClear ∨ faultCode ∈ st.faults ∨
      ∀ snapshot ∈ st.snapshots, snapshot.faultCode ≠ faultCode
  | .storeSnapshots snapshots => (∀ snapshot ∈ snapshots, snapshot.Plain) ∧
      st.snapshots.length + snapshots.length ≤ int32Max
  | _ => True

theorem trimCaptures_subset (maxCount : Nat) (faultCode : Str) (newest : Int) (fuel : Nat)
    (updated : List SnapshotData) :
    InMemorySnapshotStore.trimCaptures maxCount faultCode newest fuel updated ⊆ updated := by
  induction fuel generalizing updated with
  | zero => exact List.Subset.refl _
  | succ fuel ih =>
    unfold InMemorySnapshotStore.trimCaptures
    dsimp only
    split
    · exact List.Subset.refl _
    · split
      · exact List.Subset.refl _
      · intro s hs
        exact (List.mem_filter.mp (ih _ hs)).1

theorem InMemorySnapshotStore.step_snapshots {call : SnapshotCall} (hcall : call.WithinSqlite st)
    (h : ∀ snapshot ∈ st.snapshots, snapshot.Plain) :
    ∀ snapshot ∈ (st.step call).snapshots, snapshot.Plain := by
  intro snapshot hsnapshot
  cases call with
  | storeSnapshots snapshots =>
    have hmem : snapshot ∈ st.snapshots ++ snapshots := by
      unfold step storeSnapshots at hsnapshot
      cases snapshots with
      | nil => simpa using hsnapshot
      | cons first rest =>
        dsimp only at hsnapshot
        split at hsnapshot
        · split at hsnapshot
          · exact trimCaptures_subset _ _ _ _ _ hsnapshot
          · exact hsnapshot
        · exact hsnapshot
    exact (List.mem_append.mp hmem).elim (h snapshot) (hcall.1 snapshot)
  | setMaxSnapshotsPerFault maxCount => exact h snapshot hsnapshot
  | setRetainSnapshotsOnClear retain => exact h snapshot hsnapshot
  | reportFaultEvent r =>
    apply h snapshot
    rw [← (st.toInMemoryFaultStorage.reportFaultEvent_snapshots r).1]
    exact hsnapshot
  | clearFault faultCode =>
    apply h snapshot
    simp only [step, InMemoryFaultStorage.clearFault] at hsnapshot
    split at hsnapshot
    · exact hsnapshot
    · dsimp only at hsnapshot
      split at hsnapshot
      · exact hsnapshot
      · exact (List.mem_filter.mp hsnapshot).1
  | reclassifyHealedAsCleared =>
    apply h snapshot
    simp only [step, InMemoryFaultStorage.reclassifyHealedAsCleared_snapshots] at hsnapshot
    split at hsnapshot
    · exact hsnapshot
    · exact (List.mem_filter.mp hsnapshot).1

theorem snapshotsAgree_step {db : SqliteSnapshotStore} {call : SnapshotCall}
    (h : SnapshotsAgree st db ∧ ∀ snapshot ∈ st.snapshots, snapshot.Plain)
    (hcall : call.WithinSqlite st) : SnapshotsAgree (st.step call) (db.step call) ∧
      ∀ snapshot ∈ (st.step call).snapshots, snapshot.Plain := by
  refine ⟨?_, InMemorySnapshotStore.step_snapshots hcall h.2⟩
  cases call with
  | storeSnapshots snapshots => exact h.1.storeSnapshots snapshots hcall.2
  | setMaxSnapshotsPerFault maxCount =>
    exact ⟨h.1.snapshots, h.1.faults, h.1.retain, rfl⟩
  | setRetainSnapshotsOnClear retain => exact ⟨h.1.snapshots, h.1.faults, rfl, h.1.cap⟩
  | reportFaultEvent r => exact h.1.reportFaultEvent hcall
  | clearFault faultCode => exact h.1.clearFault hcall
  | reclassifyHealedAsCleared => exact h.1.reclassifyHealedAsCleared

theorem snapshotsAgree_init : SnapshotsAgree {} {} :=
  ⟨rfl, fun code => by simp, rfl, rfl⟩

/-- Both backends hold the same snapshot rows of every fault code at the end of
every such run, and hand them out in the same order up to rows of equal place. -/
theorem snapshot_backends_agree (calls : List SnapshotCall)
    (hcalls : inMemorySnapshots.Guarded (fun st call => call.WithinSqlite st) {} calls) :
    let st := inMemorySnapshots.exec {} calls
    let db := sqliteSnapshots.exec {} calls
    (∀ code, (db.snapshots.select (·.ofFault code)).map (·.2) =
      st.snapshots.filter (·.ofFault code)) ∧
    ∀ code topicFilter answer, db.GetSnapshots code topicFilter answer →
      answer.Perm (st.getSnapshots code topicFilter) ∧
        answer.map SnapshotData.place =
          (st.getSnapshots code topicFilter).map SnapshotData.place := by
  intro st db
  obtain ⟨⟨hagree, hplain⟩, -⟩ := Machine.lockstep inMemorySnapshots sqliteSnapshots
    (fun st call => call.WithinSqlite st)
    (fun st db => SnapshotsAgree st db ∧ ∀ snapshot ∈ st.snapshots, snapshot.Plain)
    (fun _ _ => True) (fun _ _ _ h hcall => ⟨snapshotsAgree_step h hcall, trivial⟩)
    ⟨snapshotsAgree_init, by simp⟩ hcalls
  exact ⟨fun code => by rw [map_row_select, hagree.snapshots],
    fun code topicFilter answer hanswer => hagree.getSnapshots hplain hanswer⟩

def motorSnapshot (topic : String) (captureId : Int) : SnapshotData where
  faultCode := str "MOTOR_TEMP"
  topic := str topic
  messageType := str "std_msgs/msg/Float64"
  data := str "1.5"
  capturedAtNs := 10 * captureId
  captureId := captureId

def captureCalls : List SnapshotCall :=
  [.reportFaultEvent (nearMissReport (str "hot")), .setMaxSnapshotsPerFault 3,
    .storeSnapshots [motorSnapshot "/temp" 1, motorSnapshot "/rpm" 1],
    .storeSnapshots [motorSnapshot "/temp" 2],
    .storeSnapshots [motorSnapshot "/temp" 3, motorSnapshot "/rpm" 3]]

theorem snapshot_backends_agree_after_captures :
    let st := inMemorySnapshots.exec {} captureCalls
    let db := sqliteSnapshots.exec {} captureCalls
    st.getSnapshots (str "MOTOR_TEMP") [] =
        [motorSnapshot "/temp" 3, motorSnapshot "/rpm" 3, motorSnapshot "/temp" 2] ∧
      (db.snapshots.select (·.ofFault (str "MOTOR_TEMP"))).map (·.2) =
        st.snapshots.filter (·.ofFault (str "MOTOR_TEMP")) := by
  have hplain (topic : String) (captureId : Int) (h : (0 : Byte) ∉ str topic) :
      (motorSnapshot topic captureId).Plain :=
    ⟨show (0 : Byte) ∉ str "MOTOR_TEMP" by decide, h,
      show (0 : Byte) ∉ str "std_msgs/msg/Float64" by decide,
      show (0 : Byte) ∉ str "1.5" by decide⟩
  have htemp (captureId : Int) := hplain "/temp" captureId (by decide)
  have hrpm (captureId : Int) := hplain "/rpm" captureId (by decide)
  have hcalls : inMemorySnapshots.Guarded (fun st call => call.WithinSqlite st) {}
      captureCalls := by
    refine ⟨⟨by decide, by decide⟩, trivial, ⟨?_, by decide⟩, ⟨?_, by decide⟩,
      ⟨?_, by decide⟩, trivial⟩
    · simpa using ⟨htemp 1, hrpm 1⟩
    · simpa using htemp 2
    · simpa using ⟨htemp 3, hrpm 3⟩
  exact ⟨by decide, (snapshot_backends_agree captureCalls hcalls).1 (str "MOTOR_TEMP")⟩

/-- Clearing a code that has a snapshot but no fault: the in-memory store returns
before it looks at the snapshots, SQLite has deleted them by then. -/
theorem clear_without_fault_differs :
    let calls : List SnapshotCall :=
      [.storeSnapshots [motorSnapshot "/temp" 1], .clearFault (str "MOTOR_TEMP")]
    (inMemorySnapshots.exec {} calls).snapshots = [motorSnapshot "/temp" 1] ∧
      (sqliteSnapshots.exec {} calls).snapshots.rows.toList = [] := by
  decide

end Medkit.FaultManager
