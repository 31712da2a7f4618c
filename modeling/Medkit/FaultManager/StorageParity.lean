import Medkit.Lib.Machine
import Medkit.FaultManager.SqliteFaultStorage

/-! The two storage backends side by side. The SQLite store refines the in-memory
one as long as no text that it reads back through a NUL-terminated buffer holds a
NUL byte and the near-miss table stays within what an `int` row count can tell. -/
namespace Medkit.FaultManager

open Lib

inductive StorageCall where
  | reportFaultEvent (r : FaultReport)
  | clearFault (faultCode : Str)
  | reclassifyHealedAsCleared
  | setMaxNearMissesPerFault (maxCount : Nat)

inductive StorageResult where
  | flag (value : Bool)
  | codes (value : List Str)
  | count (value : Nat)

/-- Equal answers; lists of codes are compared as sets. -/
inductive StorageResult.Agree : StorageResult → StorageResult → Prop
  | flag (value : Bool) : Agree (.flag value) (.flag value)
  | codes {left right : List Str} : (∀ code, code ∈ left ↔ code ∈ right) →
      Agree (.codes left) (.codes right)
  | count (value : Nat) : Agree (.count value) (.count value)

def inMemoryMachine : Machine InMemoryFaultStorage StorageCall StorageResult where
  init := {}
  step st
    | .reportFaultEvent r => ((st.reportFaultEvent r).1, .flag (st.reportFaultEvent r).2)
    | .clearFault faultCode => ((st.clearFault faultCode).1, .flag (st.clearFault faultCode).2)
    | .reclassifyHealedAsCleared =>
        (st.reclassifyHealedAsCleared.1, .codes st.reclassifyHealedAsCleared.2)
    | .setMaxNearMissesPerFault maxCount =>
        ((st.setMaxNearMissesPerFault maxCount).1, .count (st.setMaxNearMissesPerFault maxCount).2)

def sqliteMachine : Machine SqliteFaultStorage StorageCall StorageResult where
  init := {}
  step db
    | .reportFaultEvent r => ((db.reportFaultEvent r).1, .flag (db.reportFaultEvent r).2)
    | .clearFault faultCode => ((db.clearFault faultCode).1, .flag (db.clearFault faultCode).2)
    | .reclassifyHealedAsCleared =>
        (db.reclassifyHealedAsCleared.1, .codes db.reclassifyHealedAsCleared.2)
    | .setMaxNearMissesPerFault maxCount =>
        ((db.setMaxNearMissesPerFault maxCount).1, .count (db.setMaxNearMissesPerFault maxCount).2)

def InMemoryFaultStorage.nearMissCount (st : InMemoryFaultStorage) : Nat :=
  (st.nearMisses.toList.map fun entry => entry.2.length).sum

/-! ## Rows -/

theorem FaultRow.failedFrom_of_live {row : FaultRow} {config : DebounceConfig}
    (hlive : row.status ≠ .cleared) :
    row.failedFrom config = clampDebounceCounter row.debounceCounter config := by
  simp [FaultRow.failedFrom, FaultRow.isReactivation, hlive]

theorem FaultRow.clamp_failedFrom_of_cleared {row : FaultRow} {config : DebounceConfig}
    (hc : config.Valid) (hcleared : row.status = .cleared) :
    clampDebounceCounter (row.failedFrom config - 1) config = -1 := by
  simpa [FaultRow.failedFrom, FaultRow.isReactivation, hcleared] using clamp_neg_one hc

structure StatusMatches (state : FaultState) (row : FaultRow) : Prop where
  status : row.status = state.status
  debounceCounter : row.debounceCounter = state.debounceCounter

namespace StatusMatches

variable {state : FaultState} {row : FaultRow} {r : FaultReport}

theorem created (r : FaultReport) : StatusMatches (.created r) (.created r) := by
  rw [FaultState.created, FaultState.settle_eq]
  exact ⟨rfl, rfl⟩

theorem passed (h : StatusMatches state row) (r : FaultReport) :
    StatusMatches (state.passed r) (row.passed r) := by
  constructor
  · simp [FaultRow.passed, FaultState.passed, FaultState.updateStatus, h.debounceCounter, h.status]
  · simp [FaultRow.passed, FaultState.passed, FaultState.updateStatus, h.debounceCounter]

theorem failed (h : StatusMatches state row) (hlive : state.status ≠ .cleared) :
    StatusMatches (state.failed r) (row.failed r) := by
  have hcounter : row.failedFrom r.config = clampDebounceCounter state.debounceCounter r.config := by
    rw [FaultRow.failedFrom_of_live (h.status ▸ hlive), h.debounceCounter]
  rw [FaultState.failed, FaultState.settle_eq]
  exact ⟨by simp [FaultRow.failed, hcounter, h.status], by simp [FaultRow.failed, hcounter]⟩

theorem reactivated (hc : r.config.Valid) (h : StatusMatches state row)
    (hcleared : state.status = .cleared) : StatusMatches (state.reactivated r) (row.failed r) := by
  have hcounter := FaultRow.clamp_failedFrom_of_cleared hc (h.status.trans hcleared)
  rw [FaultState.reactivated, FaultState.settle_eq]
  exact ⟨by simp [FaultRow.failed, hcounter, h.status], by simp [FaultRow.failed, hcounter]⟩

theorem withStatus (h : StatusMatches state row) (status : FaultStatus) :
    StatusMatches { state with status := status } { row with status := status } :=
  ⟨rfl, h.debounceCounter⟩

end StatusMatches

structure RowMatches (code : Str) (state : FaultState) (row : FaultRow) : Prop extends
    StatusMatches state row where
  faultCode : state.faultCode = code
  code_readable : (0 : Byte) ∉ code
  severity : row.severity = state.severity
  description : row.description = state.description
  description_readable : (0 : Byte) ∉ state.description
  firstOccurred : row.firstOccurredNs = state.firstOccurred
  lastOccurred : row.lastOccurredNs = state.lastOccurred
  lastPassed : row.lastPassedNs = state.lastPassedTime
  occurrenceCount : row.occurrenceCount = state.occurrenceCount
  count_le : state.occurrenceCount ≤ uint32Max
  sources : row.reportingSources = serializeJsonArray state.reportingSources.toList
  sources_readable : ∀ source ∈ state.reportingSources, (0 : Byte) ∉ source

namespace RowMatches

variable {code : Str} {state : FaultState} {row : FaultRow}

section

variable (h : RowMatches code state row)

include h

theorem read_sources :
    parseJsonArray (columnText row.reportingSources) = state.reportingSources.toList := by
  have hread : (0 : Byte) ∉ serializeJsonArray state.reportingSources.toList :=
    zero_notMem_serializeJsonArray fun source hsource =>
      h.sources_readable source (Std.ExtTreeSet.mem_toList.mp hsource)
  rw [h.sources, columnText, cString_eq_self hread, serializeJsonArray, parseJsonArray_brackets,
    parseElements_joinElements (length_le_joinElements _)]

theorem toMsg : row.toMsg code = state.toMsg := by
  have hcount : state.occurrenceCount % 4294967296 = state.occurrenceCount :=
    Nat.mod_eq_of_lt (Nat.lt_succ_of_le h.count_le)
  have hcode : columnText code = code := cString_eq_self h.code_readable
  have hdesc : columnText state.description = state.description :=
    cString_eq_self h.description_readable
  simp only [FaultRow.toMsg, FaultState.toMsg, h.read_sources, h.faultCode, h.severity,
    h.description, h.firstOccurred, h.lastOccurred, h.lastPassed, h.occurrenceCount, h.status,
    hcount, hcode, hdesc]

theorem withStatus (status : FaultStatus) :
    RowMatches code { state with status := status } { row with status := status } :=
  { h with status := rfl }

theorem passed (r : FaultReport) : RowMatches code (state.passed r) (row.passed r) :=
  { h with toStatusMatches := h.toStatusMatches.passed r, lastPassed := rfl }

/-- Parsing the stored array, adding a source and writing it again is what adding
the source to the set does. -/
theorem insert_source (source : Str) :
    (Std.ExtTreeSet.ofList (parseJsonArray (columnText row.reportingSources)) compare).insert
        source =
      state.reportingSources.insert source := by
  rw [h.read_sources, OSet.ofList_toList]

theorem sources_readable_insert {source : Str} (hsource : (0 : Byte) ∉ source) :
    ∀ s ∈ state.reportingSources.insert source, (0 : Byte) ∉ s := by
  intro s hs
  rcases Std.ExtTreeSet.mem_insert.mp hs with heq | hs
  · exact Std.LawfulEqOrd.eq_of_compare heq ▸ hsource
  · exact h.sources_readable s hs

end

end RowMatches

theorem max_eq_escalated (old new : Byte) : max old new = if new > old then new else old := by
  by_cases h : new > old
  · rw [if_pos h, max_eq_right h.le]
  · rw [if_neg h, max_eq_left (not_lt.mp h)]

structure FaultReport.Readable (r : FaultReport) : Prop where
  faultCode : (0 : Byte) ∉ r.faultCode
  description : (0 : Byte) ∉ r.description
  sourceId : (0 : Byte) ∉ r.sourceId

namespace RowMatches

variable {code : Str} {state : FaultState} {row : FaultRow} {r : FaultReport}
variable (hread : r.Readable)

include hread

theorem description_readable_updated (h : RowMatches code state row) :
    (0 : Byte) ∉ if r.description.isEmpty then state.description else r.description := by
  split
  · exact h.description_readable
  · exact hread.description

theorem created : RowMatches r.faultCode (.created r) (.created r) := by
  have hsources : ∀ s ∈ (∅ : OSet Str).insert r.sourceId, (0 : Byte) ∉ s := by
    intro s hs
    rcases Std.ExtTreeSet.mem_insert.mp hs with heq | hs
    · exact Std.LawfulEqOrd.eq_of_compare heq ▸ hread.sourceId
    · simp at hs
  have hstatus := StatusMatches.created r
  rw [FaultState.created, FaultState.settle_eq] at hstatus ⊢
  exact
    { toStatusMatches := hstatus, faultCode := rfl, code_readable := hread.faultCode
      severity := rfl, description := rfl
      description_readable := hread.description, firstOccurred := rfl, lastOccurred := rfl
      lastPassed := rfl, occurrenceCount := rfl, count_le := show 1 ≤ uint32Max by decide
      sources := by rfl, sources_readable := hsources }

theorem failed (h : RowMatches code state row) (hlive : state.status ≠ .cleared) :
    RowMatches code (state.failed r) (row.failed r) := by
  have hnew : row.isReactivation = false := by simp [FaultRow.isReactivation, h.status, hlive]
  have hstatus := h.toStatusMatches.failed hlive (r := r)
  rw [FaultState.failed, FaultState.settle_eq] at hstatus ⊢
  exact
    { h with
      toStatusMatches := hstatus
      severity := by simp [FaultRow.failed, h.severity, max_eq_escalated]
      description := by simp [FaultRow.failed, h.description]
      description_readable := h.description_readable_updated hread
      firstOccurred := by simp [FaultRow.failed, hnew, h.firstOccurred]
      lastOccurred := rfl
      occurrenceCount := by simp [FaultRow.failed, hnew, h.occurrenceCount]
      sources := by simp only [FaultRow.failed, h.insert_source]
      sources_readable := h.sources_readable_insert hread.sourceId }

/-- The in-memory store resets the counter to −1; SQLite resets it to 0 and lets
the FAILED branch count down. -/
theorem reactivated (hc : r.config.Valid) (h : RowMatches code state row)
    (hcleared : state.status = .cleared) :
    RowMatches code (state.reactivated r) (row.failed r) := by
  have hnew : row.isReactivation = true := by simp [FaultRow.isReactivation, h.status, hcleared]
  have hstatus := h.toStatusMatches.reactivated hc hcleared
  rw [FaultState.reactivated, FaultState.settle_eq] at hstatus ⊢
  exact
    { h with
      toStatusMatches := hstatus
      severity := by simp [FaultRow.failed, h.severity, max_eq_escalated]
      description := by simp [FaultRow.failed, h.description]
      description_readable := h.description_readable_updated hread
      firstOccurred := by simp [FaultRow.failed, hnew]
      lastOccurred := rfl
      occurrenceCount := by simp [FaultRow.failed, hnew, h.occurrenceCount]
      count_le := by
        have := h.count_le
        dsimp only
        split <;> omega
      sources := by simp only [FaultRow.failed, h.insert_source]
      sources_readable := h.sources_readable_insert hread.sourceId }

end RowMatches

/-! ## The faults of both stores -/

section Faults

variable {R : Str → FaultState → FaultRow → Prop} {st : InMemoryFaultStorage}
  {db : SqliteFaultStorage}
  (hfaults : ∀ code : Str, Option.Rel (R code) st.faults[code]? db.faults[code]?)
  (hclear : ∀ {code state row}, R code state row →
    R code { state with status := .cleared } { row with status := .cleared })
  (hstatus : ∀ {code state row}, R code state row → row.status = state.status)

include hfaults

include hclear in
theorem rel_clearFault (cleared code : Str) :
    Option.Rel (R code) (st.clearFault cleared).1.faults[code]?
      (db.clearFault cleared).1.faults[code]? := by
  have hrel := hfaults code
  rw [InMemoryFaultStorage.clearFault_faults]
  simp only [SqliteFaultStorage.clearFault, Std.ExtTreeMap.getElem?_alter]
  by_cases hcode : cleared = code
  · subst hcode
    simp only [if_pos, Std.ReflCmp.compare_self]
    generalize st.faults[cleared]? = before at hrel
    generalize db.faults[cleared]? = stored at hrel
    cases hrel with
    | none => exact .none
    | some hm => exact .some (hclear hm)
  · simpa [hcode] using hrel

include hstatus

include hclear in
theorem rel_reclassifyHealedAsCleared (code : Str) :
    Option.Rel (R code) st.reclassifyHealedAsCleared.1.faults[code]?
      db.reclassifyHealedAsCleared.1.faults[code]? := by
  have hrel := hfaults code
  rw [SqliteFaultStorage.reclassifyHealedAsCleared_faults]
  simp only [InMemoryFaultStorage.reclassifyHealedAsCleared, Std.ExtTreeMap.getElem?_map]
  generalize st.faults[code]? = before at hrel
  generalize db.faults[code]? = stored at hrel
  cases hrel with
  | none => exact .none
  | some hm =>
    simp only [Option.map_some, hstatus hm]
    split
    · exact .some (hclear hm)
    · exact .some hm

theorem mem_healed_iff (code : Str) :
    code ∈ (st.faults.toList.filter (·.2.status = .healed)).map (·.1) ↔
      code ∈ (db.faults.toList.filter (·.2.status = .healed)).map (·.1) := by
  have hrel := hfaults code
  rw [SqliteFaultStorage.mem_healed]
  simp only [List.mem_map, List.mem_filter, Prod.exists,
    Std.ExtTreeMap.mem_toList_iff_getElem?_eq_some, decide_eq_true_eq, exists_and_right,
    exists_eq_right]
  generalize st.faults[code]? = before at hrel
  generalize db.faults[code]? = stored at hrel
  cases hrel with
  | none => simp
  | some hm => simp [hstatus hm]

end Faults

/-! ## Stores -/

structure StoresAgree (st : InMemoryFaultStorage) (db : SqliteFaultStorage) : Prop where
  faults : ∀ code : Str, Option.Rel (RowMatches code) st.faults[code]? db.faults[code]?
  nearMisses : ∀ code : Str,
    (db.nearMisses.select (·.faultCode = code)).map (·.2) = st.getNearMisses code
  readable : ∀ entry ∈ db.nearMisses.rows.toList,
    (0 : Byte) ∉ entry.2.faultCode ∧ (0 : Byte) ∉ entry.2.sourceId
  bound : db.maxNearMissesPerFault = st.maxNearMissesPerFault

section NearMisses

variable {st : InMemoryFaultStorage} {db : SqliteFaultStorage}

theorem length_getNearMisses_le (st : InMemoryFaultStorage) (code : Str) :
    (st.getNearMisses code).length ≤ st.nearMissCount := by
  unfold InMemoryFaultStorage.getNearMisses InMemoryFaultStorage.nearMissCount
  cases h : st.nearMisses[code]? with
  | none => simp
  | some series =>
    have hmem := Std.ExtTreeMap.mem_toList_iff_getElem?_eq_some.mpr h
    exact List.single_le_sum (by simp) _ (List.mem_map.mpr ⟨(code, series), hmem, rfl⟩)

theorem trimSeries_eq_drop (maxCount : Nat) (series : List NearMissRecord) :
    InMemoryFaultStorage.trimSeries maxCount series =
      series.drop (series.length - maxCount) := by
  unfold InMemoryFaultStorage.trimSeries
  split
  · rfl
  · rw [show series.length - maxCount = 0 by omega, List.drop_zero]

theorem getNearMisses_recordNearMiss (st : InMemoryFaultStorage) (state : FaultState)
    (r : FaultReport) (code : Str) : (st.recordNearMiss state r).getNearMisses code =
      if state.faultCode = code then
        let series := st.getNearMisses code ++
          [{ faultCode := state.faultCode, occurredAtNs := r.timestamp
             debounceCounter := state.debounceCounter
             confirmationThreshold := r.config.confirmationThreshold, severity := r.severity
             sourceId := r.sourceId, resultingStatus := state.status }]
        if st.maxNearMissesPerFault > 0 then
          series.drop (series.length - st.maxNearMissesPerFault)
        else series
      else st.getNearMisses code := by
  unfold InMemoryFaultStorage.recordNearMiss InMemoryFaultStorage.getNearMisses
  simp only [Std.ExtTreeMap.getElem?_insert, trimSeries_eq_drop]
  by_cases hcode : state.faultCode = code
  · subst hcode
    simp
  · simp [hcode]

theorem drop_of_unlimited {maxCount : Nat} {series : List NearMissRecord}
    (hunlimited : SqliteFaultStorage.unlimited maxCount) (hlen : series.length ≤ int64Max) :
    (if maxCount > 0 then series.drop (series.length - maxCount) else series) = series := by
  simp only [SqliteFaultStorage.unlimited, Bool.or_eq_true, decide_eq_true_eq] at hunlimited
  split
  · rw [show series.length - maxCount = 0 by omega, List.drop_zero]
  · rfl

theorem select_recordNearMissLocked (db : SqliteFaultStorage) (r : FaultReport) (row : FaultRow)
    (code : Str) :
    ((db.recordNearMissLocked r row).nearMisses.select (·.faultCode = code)).map (·.2) =
      if r.faultCode = code then
        let series := (db.nearMisses.select (·.faultCode = code)).map (·.2) ++
          [{ faultCode := r.faultCode, occurredAtNs := r.timestamp
             debounceCounter := row.debounceCounter
             confirmationThreshold := r.config.confirmationThreshold, severity := r.severity
             sourceId := r.sourceId, resultingStatus := row.status }]
        if SqliteFaultStorage.unlimited db.maxNearMissesPerFault then series
        else series.drop (series.length - db.maxNearMissesPerFault)
      else (db.nearMisses.select (·.faultCode = code)).map (·.2) := by
  unfold SqliteFaultStorage.recordNearMissLocked
  dsimp only
  by_cases hcode : r.faultCode = code
  · subst hcode
    rw [if_pos rfl]
    split
    · simp [Table.select_insert]
    · rw [Table.select_delete_oldest, List.map_drop]
      simp [Table.select_insert]
  · rw [if_neg hcode]
    split
    · simp [Table.select_insert, hcode]
    · rw [Table.select_delete_other _ fun record => record.faultCode = r.faultCode]
      · simp [Table.select_insert, hcode]
      · simp +contextual
      · simp only [decide_eq_true_eq]
        intro record hrecord heq
        exact hcode (heq.symm.trans hrecord)

theorem StoresAgree.recordNearMiss (h : StoresAgree st db) {r : FaultReport} (hread : r.Readable)
    (hcount : st.nearMissCount ≤ int32Max) {state : FaultState} {row : FaultRow}
    (hm : RowMatches r.faultCode state row) :
    StoresAgree (st.recordNearMiss state r) (db.recordNearMissLocked r row) := by
  refine ⟨h.faults, fun code => ?_, ?_, h.bound⟩
  · rw [getNearMisses_recordNearMiss, select_recordNearMissLocked, hm.faultCode]
    split
    · rename_i hcode
      rw [h.nearMisses code, h.bound, hm.debounceCounter, hm.status]
      dsimp only
      split
      · rename_i hunlimited
        have hlen := length_getNearMisses_le st code
        rw [drop_of_unlimited hunlimited]
        simp only [List.length_append, List.length_singleton, int64Max, int32Max] at *
        omega
      · rename_i hlimited
        simp only [SqliteFaultStorage.unlimited, Bool.or_eq_true, decide_eq_true_eq,
          not_or] at hlimited
        rw [if_pos (by omega)]
    · exact h.nearMisses code
  · intro entry hentry
    unfold SqliteFaultStorage.recordNearMissLocked at hentry
    dsimp only at hentry
    split at hentry
    case' isFalse => replace hentry := Table.mem_of_mem_delete hentry
    all_goals
      rw [Table.toList_insert] at hentry
      exact List.forall_mem_append.mpr
        ⟨h.readable, List.forall_mem_singleton.mpr ⟨hread.faultCode, hread.sourceId⟩⟩ entry hentry

end NearMisses

section Calls

variable {st : InMemoryFaultStorage} {db : SqliteFaultStorage}

section

variable (h : StoresAgree st db)

include h

theorem StoresAgree.insertFault {code : Str} {state : FaultState} {row : FaultRow}
    (hm : RowMatches code state row) : StoresAgree { st with faults := st.faults.insert code state }
      { db with faults := db.faults.insert code row } := by
  refine { h with faults := fun other => ?_ }
  simp only [Std.ExtTreeMap.getElem?_insert]
  by_cases hcode : code = other
  · subst hcode
    simpa using Option.Rel.some hm
  · simpa [hcode] using h.faults other

theorem StoresAgree.storeFailed {r : FaultReport} (hread : r.Readable)
    (hcount : st.nearMissCount ≤ int32Max) {state : FaultState} {row : FaultRow}
    (hm : RowMatches r.faultCode state row) :
    StoresAgree (st.storeFailed r state) (db.storeFailed r row) := by
  have hinsert := h.insertFault hm
  unfold InMemoryFaultStorage.storeFailed SqliteFaultStorage.storeFailed
  rw [hm.status]
  dsimp only
  split
  · exact hinsert.recordNearMiss hread hcount hm
  · exact hinsert

theorem StoresAgree.reportFaultEvent {r : FaultReport} (hc : r.config.Valid)
    (hread : r.isFailed → r.Readable) (hcount : st.nearMissCount ≤ int32Max) :
    StoresAgree (st.reportFaultEvent r).1 (db.reportFaultEvent r).1 ∧
      (st.reportFaultEvent r).2 = (db.reportFaultEvent r).2 := by
  have hrel := h.faults r.faultCode
  unfold InMemoryFaultStorage.reportFaultEvent SqliteFaultStorage.reportFaultEvent
  generalize st.faults[r.faultCode]? = before at hrel
  generalize db.faults[r.faultCode]? = stored at hrel
  cases hrel with
  | none =>
    by_cases hfailed : r.isFailed
    · simpa [hfailed] using h.storeFailed (hread hfailed) hcount (.created (hread hfailed))
    · simpa [hfailed] using h
  | @some state row hm =>
    have hre : row.isReactivation = decide (state.status = .cleared) := by
      rw [FaultRow.isReactivation, hm.status]
    by_cases hcleared : state.status = .cleared
    · by_cases hfailed : r.isFailed
      · simpa [hfailed, hcleared, hre] using
          h.storeFailed (hread hfailed) hcount (hm.reactivated (hread hfailed) hc hcleared)
      · simpa [hfailed, hcleared, hre] using h
    · by_cases hfailed : r.isFailed
      · simpa [hfailed, hcleared, hre] using
          h.storeFailed (hread hfailed) hcount (hm.failed (hread hfailed) hcleared)
      · simpa [hfailed, hcleared, hre] using h.insertFault (hm.passed r)

theorem StoresAgree.clearFault (cleared : Str) :
    StoresAgree (st.clearFault cleared).1 (db.clearFault cleared).1 ∧
      (st.clearFault cleared).2 = (db.clearFault cleared).2 := by
  have hsame : (st.clearFault cleared).1.nearMisses = st.nearMisses ∧
      (st.clearFault cleared).1.maxNearMissesPerFault = st.maxNearMissesPerFault := by
    unfold InMemoryFaultStorage.clearFault
    split <;> exact ⟨rfl, rfl⟩
  refine ⟨⟨rel_clearFault h.faults (·.withStatus .cleared) cleared, fun code => ?_, h.readable,
    h.bound.trans hsame.2.symm⟩, ?_⟩
  · rw [InMemoryFaultStorage.getNearMisses, hsame.1]
    exact h.nearMisses code
  · have hrel := h.faults cleared
    unfold InMemoryFaultStorage.clearFault SqliteFaultStorage.clearFault
    simp only [Std.ExtTreeMap.mem_iff_isSome_getElem?]
    generalize st.faults[cleared]? = before at hrel
    generalize db.faults[cleared]? = stored at hrel
    cases hrel with
    | none => simp [sqlite3Changes_of_le]
    | some hm => simp [sqlite3Changes_of_le (show 1 ≤ int32Max by decide)]

theorem StoresAgree.code_readable {code : Str} {row : FaultRow} (hrow : db.faults[code]? = some row) :
    (0 : Byte) ∉ code := by
  have hrel := h.faults code
  rw [hrow] at hrel
  generalize st.faults[code]? = before at hrel
  cases hrel with
  | some hm => exact hm.code_readable

theorem StoresAgree.reclassifyHealedAsCleared :
    StoresAgree st.reclassifyHealedAsCleared.1 db.reclassifyHealedAsCleared.1 ∧
      ∀ code, code ∈ st.reclassifyHealedAsCleared.2 ↔ code ∈ db.reclassifyHealedAsCleared.2 := by
  obtain ⟨hnear, hbound⟩ := db.reclassifyHealedAsCleared_frame
  refine ⟨⟨rel_reclassifyHealedAsCleared h.faults (·.withStatus .cleared) (·.status),
    fun code => ?_, hnear ▸ h.readable, hbound ▸ h.bound⟩, fun code => ?_⟩
  · rw [hnear]
    exact h.nearMisses code
  · have hread : ((db.faults.toList.filter (·.2.status = .healed)).map (·.1)).map columnText =
        (db.faults.toList.filter (·.2.status = .healed)).map (·.1) := by
      refine (List.map_congr_left fun healed hhealed => ?_).trans (List.map_id _)
      obtain ⟨row, hrow, -⟩ := (db.mem_healed healed).mp hhealed
      exact cString_eq_self (h.code_readable hrow)
    rw [db.reclassifyHealedAsCleared_codes, hread]
    exact mem_healed_iff h.faults (·.status) code

end

theorem getNearMisses_setMax (st : InMemoryFaultStorage) (maxCount : Nat) (code : Str) :
    (st.setMaxNearMissesPerFault maxCount).1.getNearMisses code =
      if maxCount > 0 then
        (st.getNearMisses code).drop ((st.getNearMisses code).length - maxCount)
      else st.getNearMisses code := by
  unfold InMemoryFaultStorage.setMaxNearMissesPerFault InMemoryFaultStorage.getNearMisses
  by_cases hzero : maxCount = 0
  · simp [hzero]
  · simp only [hzero, if_false, if_pos (Nat.pos_of_ne_zero hzero), Std.ExtTreeMap.getElem?_map]
    cases st.nearMisses[code]? with
    | none => simp
    | some series => simp [trimSeries_eq_drop]

/-- The rows that the window query numbers beyond the bound are as many as the
in-memory store evicts. -/
theorem StoresAgree.countMatching (h : StoresAgree st db) (maxCount : Nat) :
    db.nearMisses.countMatching
        (fun id record => db.nearMisses.rowNumber (·.faultCode) id record > maxCount) =
      (st.nearMisses.toList.map fun entry => entry.2.length - maxCount).sum := by
  have hlen (code : Str) : (db.nearMisses.select (·.faultCode = code)).length =
      (st.getNearMisses code).length := by
    rw [← h.nearMisses code, List.length_map]
  have hcover : ∀ entry ∈ db.nearMisses.rows.toList,
      entry.2.faultCode ∈ st.nearMisses.toList.map (·.1) := by
    intro entry hentry
    have hmem : entry.2 ∈ st.getNearMisses entry.2.faultCode := by
      rw [← h.nearMisses entry.2.faultCode]
      exact List.mem_map.mpr ⟨entry, List.mem_filter.mpr ⟨hentry, by simp⟩, rfl⟩
    unfold InMemoryFaultStorage.getNearMisses at hmem
    cases hseries : st.nearMisses[entry.2.faultCode]? with
    | none => simp [hseries] at hmem
    | some series =>
      exact List.mem_map.mpr
        ⟨(_, series), Std.ExtTreeMap.mem_toList_iff_getElem?_eq_some.mpr hseries, rfl⟩
  have hnodup : (st.nearMisses.toList.map (·.1)).Nodup := by
    rw [List.Nodup, List.pairwise_map]
    refine (Std.ExtTreeMap.ordered_keys_toList (t := st.nearMisses)).imp ?_
    intro a b hab heq
    rw [heq] at hab
    simp at hab
  rw [Table.countMatching_eq_sum _ _ (·.faultCode) hnodup hcover, List.map_map]
  refine congrArg List.sum (List.map_congr_left fun entry hentry => ?_)
  have hseries : st.getNearMisses entry.1 = entry.2 := by
    simp [InMemoryFaultStorage.getNearMisses,
      Std.ExtTreeMap.mem_toList_iff_getElem?_eq_some.mp hentry]
  simp only [Function.comp_apply, Table.select_delete_rowNumber, List.length_drop, hlen, hseries]
  omega

theorem evicted_le (st : InMemoryFaultStorage) (maxCount : Nat) :
    (st.nearMisses.toList.map fun entry => entry.2.length - maxCount).sum ≤ st.nearMissCount :=
  List.sum_le_sum fun _ _ => Nat.sub_le _ _

theorem evicted_of_unlimited {maxCount : Nat} (hunlimited : SqliteFaultStorage.unlimited maxCount)
    (hcount : st.nearMissCount ≤ int32Max) : (st.setMaxNearMissesPerFault maxCount).2 = 0 := by
  simp only [SqliteFaultStorage.unlimited, Bool.or_eq_true, decide_eq_true_eq] at hunlimited
  unfold InMemoryFaultStorage.setMaxNearMissesPerFault
  split
  · rfl
  · refine List.sum_eq_zero fun n hn => ?_
    obtain ⟨entry, hentry, rfl⟩ := List.mem_map.mp hn
    have hlen : entry.2.length ≤ st.nearMissCount :=
      List.single_le_sum (by simp) _ (List.mem_map.mpr ⟨entry, hentry, rfl⟩)
    simp only [int32Max, int64Max] at *
    omega

theorem StoresAgree.setMaxNearMissesPerFault (h : StoresAgree st db)
    (hcount : st.nearMissCount ≤ int32Max) (maxCount : Nat) :
    StoresAgree (st.setMaxNearMissesPerFault maxCount).1 (db.setMaxNearMissesPerFault maxCount).1 ∧
      (st.setMaxNearMissesPerFault maxCount).2 = (db.setMaxNearMissesPerFault maxCount).2 := by
  have hfaults : (st.setMaxNearMissesPerFault maxCount).1.faults = st.faults ∧
      (st.setMaxNearMissesPerFault maxCount).1.maxNearMissesPerFault = maxCount := by
    unfold InMemoryFaultStorage.setMaxNearMissesPerFault
    dsimp only
    split <;> exact ⟨rfl, rfl⟩
  by_cases hunlimited : SqliteFaultStorage.unlimited maxCount
  · rw [evicted_of_unlimited hunlimited hcount]
    simp only [SqliteFaultStorage.setMaxNearMissesPerFault, hunlimited, if_true, and_true]
    refine ⟨fun code => hfaults.1 ▸ h.faults code, fun code => ?_, h.readable, hfaults.2.symm⟩
    have hlen := length_getNearMisses_le st code
    rw [getNearMisses_setMax, drop_of_unlimited hunlimited (by
      simp only [int32Max, int64Max] at *; omega)]
    exact h.nearMisses code
  · have hpos : maxCount > 0 := by
      simp only [SqliteFaultStorage.unlimited, Bool.or_eq_true, decide_eq_true_eq,
        not_or] at hunlimited
      omega
    simp only [SqliteFaultStorage.setMaxNearMissesPerFault, hunlimited, Bool.false_eq_true, if_false]
    refine ⟨⟨fun code => hfaults.1 ▸ h.faults code, fun code => ?_,
      fun entry hentry => h.readable entry (Table.mem_of_mem_delete hentry), hfaults.2.symm⟩, ?_⟩
    · rw [getNearMisses_setMax, if_pos hpos, Table.select_delete_rowNumber, List.map_drop,
        h.nearMisses code, ← h.nearMisses code, List.length_map]
    · rw [h.countMatching, sqlite3Changes_of_le ((evicted_le st maxCount).trans hcount)]
      unfold InMemoryFaultStorage.setMaxNearMissesPerFault
      rw [if_neg hpos.ne']
      dsimp only
      split <;> omega

end Calls

/-! ## Runs -/

/-- The calls of a session: valid thresholds, positive times and source ids that
a C string can carry. -/
def StorageCall.Admissible : StorageCall → Prop
  | .reportFaultEvent r => r.config.Valid ∧ 0 < r.timestamp ∧ (0 : Byte) ∉ r.sourceId
  | _ => True

/-- Where the backends agree: the texts that a FAILED report stores hold no NUL
byte, and the near-miss rows can be counted in an `int`. -/
def StorageCall.WithinSqlite (st : InMemoryFaultStorage) (call : StorageCall) : Prop :=
  st.nearMissCount ≤ int32Max ∧
    match call with
    | .reportFaultEvent r =>
        r.isFailed → (0 : Byte) ∉ r.faultCode ∧ (0 : Byte) ∉ r.description
    | _ => True

variable {st : InMemoryFaultStorage} {db : SqliteFaultStorage}

theorem storesAgree_step {call : StorageCall} (h : StoresAgree st db)
    (hcall : call.Admissible ∧ call.WithinSqlite st) :
    StoresAgree (inMemoryMachine.step st call).1 (sqliteMachine.step db call).1 ∧
      (inMemoryMachine.step st call).2.Agree (sqliteMachine.step db call).2 := by
  obtain ⟨hadm, hcount, htexts⟩ := hcall
  cases call with
  | reportFaultEvent r =>
    obtain ⟨hc, -, hsource⟩ := hadm
    obtain ⟨hagree, hout⟩ := h.reportFaultEvent hc
      (fun hfailed => ⟨(htexts hfailed).1, (htexts hfailed).2, hsource⟩) hcount
    exact ⟨hagree, by simp only [inMemoryMachine, sqliteMachine, hout]; exact .flag _⟩
  | clearFault faultCode =>
    obtain ⟨hagree, hout⟩ := h.clearFault faultCode
    exact ⟨hagree, by simp only [inMemoryMachine, sqliteMachine, hout]; exact .flag _⟩
  | reclassifyHealedAsCleared =>
    obtain ⟨hagree, hout⟩ := h.reclassifyHealedAsCleared
    exact ⟨hagree, .codes hout⟩
  | setMaxNearMissesPerFault maxCount =>
    obtain ⟨hagree, hout⟩ := h.setMaxNearMissesPerFault hcount maxCount
    exact ⟨hagree, by simp only [inMemoryMachine, sqliteMachine, hout]; exact .count _⟩

theorem StoresAgree.getFault (h : StoresAgree st db) (code : Str) :
    st.getFault code = db.getFault code := by
  have hrel := h.faults code
  unfold InMemoryFaultStorage.getFault SqliteFaultStorage.getFault
  generalize st.faults[code]? = before at hrel
  generalize db.faults[code]? = stored at hrel
  cases hrel with
  | none => rfl
  | some hm => simp [hm.toMsg]

theorem StoresAgree.getNearMisses (h : StoresAgree st db) (code : Str) :
    st.getNearMisses code = db.getNearMisses code := by
  rw [← h.nearMisses code]
  unfold SqliteFaultStorage.getNearMisses
  refine List.map_congr_left fun entry hentry => ?_
  obtain ⟨hcode, hsource⟩ := h.readable entry (List.mem_filter.mp hentry).1
  simp [SqliteFaultStorage.readNearMiss, columnText, cString_eq_self hcode,
    cString_eq_self hsource]

theorem storesAgree_init : StoresAgree {} {} :=
  ⟨fun code => by simp, fun code => rfl, by simp, rfl⟩

/-- Both backends answer alike through every session within SQLite's reach, and
hold the same faults and near-miss series at its end. -/
theorem backends_agree (calls : List StorageCall)
    (hcalls : inMemoryMachine.Guarded (fun st call => call.Admissible ∧ call.WithinSqlite st) {}
      calls) :
    List.Forall₂ StorageResult.Agree (inMemoryMachine.outputs {} calls)
        (sqliteMachine.outputs {} calls) ∧
      ∀ code, (inMemoryMachine.exec {} calls).getFault code =
          (sqliteMachine.exec {} calls).getFault code ∧
        (inMemoryMachine.exec {} calls).getNearMisses code =
          (sqliteMachine.exec {} calls).getNearMisses code := by
  obtain ⟨hfinal, houts⟩ := Machine.lockstep inMemoryMachine sqliteMachine _ StoresAgree
    StorageResult.Agree (fun _ _ _ h hcall => storesAgree_step h hcall) storesAgree_init hcalls
  exact ⟨houts, fun code => ⟨hfinal.getFault code, hfinal.getNearMisses code⟩⟩

def nearMissReport (description : Str) : FaultReport where
  faultCode := str "MOTOR_TEMP"
  eventType := eventFailed
  severity := 2
  description := description
  sourceId := str "/motor"
  timestamp := 5
  config := { confirmationThreshold := -2 }

theorem backends_agree_near_miss :
    let calls : List StorageCall :=
      [.reportFaultEvent (nearMissReport (str "hot")), .clearFault (str "MOTOR_TEMP"),
        .setMaxNearMissesPerFault 1]
    (inMemoryMachine.exec {} calls).getNearMisses (str "MOTOR_TEMP") ≠ [] ∧
      (inMemoryMachine.exec {} calls).getNearMisses (str "MOTOR_TEMP") =
        (sqliteMachine.exec {} calls).getNearMisses (str "MOTOR_TEMP") := by
  intro calls
  have hcalls : inMemoryMachine.Guarded (fun st call => call.Admissible ∧ call.WithinSqlite st) {}
      calls := by
    refine ⟨⟨⟨⟨by decide, by decide⟩, by decide, by decide⟩, by decide, fun _ => ⟨by decide, by decide⟩⟩,
      ⟨trivial, by decide, trivial⟩, ⟨trivial, by decide, trivial⟩, trivial⟩
  exact ⟨by decide, ((backends_agree calls hcalls).2 (str "MOTOR_TEMP")).2⟩

/-- SQLite stores a description with a NUL byte whole and reads back the part
before it. -/
theorem backends_differ_on_nul :
    let call : StorageCall := .reportFaultEvent (nearMissReport [97, 0, 98])
    call.Admissible ∧
      ((inMemoryMachine.exec {} [call]).getFault (str "MOTOR_TEMP")).map (·.description) =
        some [97, 0, 98] ∧
      ((sqliteMachine.exec {} [call]).getFault (str "MOTOR_TEMP")).map (·.description) =
        some [97] := by
  refine ⟨⟨⟨by decide, by decide⟩, by decide, by decide⟩, by decide, by decide⟩

end Medkit.FaultManager
