import Medkit.FaultManager.SnapshotParity

/-! The storage calls that captures run beside, each atomic, and the laws of them
that the captures rest on. Both backends satisfy the laws. -/
namespace Medkit.FaultManager

open Lib

/-! ## Fault statuses -/

structure StatusStorage (σ : Type) where
  reportFaultEvent : σ → FaultReport → σ
  clearFault : σ → Str → σ × Bool
  getFault : σ → Str → Option FaultMsg

def StatusStorage.status {σ : Type} (storage : StatusStorage σ) (st : σ) (faultCode : Str) :
    Option FaultStatus :=
  (storage.getFault st faultCode).map (·.status)

structure StatusStorage.Lawful {σ : Type} (storage : StatusStorage σ) : Prop where
  status_report_of_ne : ∀ st r code, r.faultCode ≠ code →
    storage.status (storage.reportFaultEvent st r) code = storage.status st code
  status_report_passed : ∀ st r, r.isFailed = false →
    storage.status st r.faultCode = some .cleared →
    storage.status (storage.reportFaultEvent st r) r.faultCode = some .cleared
  clear_returns : ∀ st code, (storage.clearFault st code).2 = (storage.getFault st code).isSome
  status_clear : ∀ st code, (storage.getFault st code).isSome →
    storage.status (storage.clearFault st code).1 code = some .cleared
  status_clear_of_ne : ∀ st cleared code, cleared ≠ code →
    storage.status (storage.clearFault st cleared).1 code = storage.status st code

/-! ## Snapshots -/

structure SnapshotStorage (σ : Type) extends StatusStorage σ where
  retainsSnapshotsOnClear : σ → Bool
  storeSnapshots : σ → List SnapshotData → σ

structure SnapshotStorage.Lawful {σ : Type} (storage : SnapshotStorage σ) : Prop extends
    storage.toStatusStorage.Lawful where
  status_store : ∀ st snapshots code,
    storage.status (storage.storeSnapshots st snapshots) code = storage.status st code
  retains_report : ∀ st r,
    storage.retainsSnapshotsOnClear (storage.reportFaultEvent st r) =
      storage.retainsSnapshotsOnClear st
  retains_clear : ∀ st code,
    storage.retainsSnapshotsOnClear (storage.clearFault st code).1 =
      storage.retainsSnapshotsOnClear st
  retains_store : ∀ st snapshots,
    storage.retainsSnapshotsOnClear (storage.storeSnapshots st snapshots) =
      storage.retainsSnapshotsOnClear st

def inMemorySnapshotStorage : SnapshotStorage InMemorySnapshotStore where
  reportFaultEvent st r := st.step (.reportFaultEvent r)
  clearFault st faultCode :=
    (st.step (.clearFault faultCode), (st.toInMemoryFaultStorage.clearFault faultCode).2)
  getFault st := st.toInMemoryFaultStorage.getFault
  retainsSnapshotsOnClear st := st.retainSnapshotsOnClear
  storeSnapshots := InMemorySnapshotStore.storeSnapshots

def sqliteSnapshotStorage : SnapshotStorage SqliteSnapshotStore where
  reportFaultEvent db r := db.step (.reportFaultEvent r)
  clearFault db faultCode :=
    (db.step (.clearFault faultCode), (db.toSqliteFaultStorage.clearFault faultCode).2)
  getFault db := db.toSqliteFaultStorage.getFault
  retainsSnapshotsOnClear db := db.retainSnapshotsOnClear
  storeSnapshots := SqliteSnapshotStore.storeSnapshots

theorem inMemory_status (st : InMemorySnapshotStore) (code : Str) :
    inMemorySnapshotStorage.status st code = st.faults[code]?.map (·.status) := by
  simp only [StatusStorage.status, inMemorySnapshotStorage, InMemoryFaultStorage.getFault,
    Option.map_map]
  rfl

theorem sqlite_status (db : SqliteSnapshotStore) (code : Str) :
    sqliteSnapshotStorage.status db code = db.faults[code]?.map (·.status) := by
  simp only [StatusStorage.status, sqliteSnapshotStorage, SqliteFaultStorage.getFault,
    Option.map_map]
  rfl

theorem inMemorySnapshotStorage_lawful : inMemorySnapshotStorage.Lawful where
  status_report_of_ne st r code hne := by
    have hfaults := st.toInMemoryFaultStorage.reportFaultEvent_faults r code
    rw [if_neg hne] at hfaults
    rw [inMemory_status, inMemory_status]
    exact congrArg _ hfaults
  status_report_passed st r hpassed hcleared := by
    have hfaults := st.toInMemoryFaultStorage.reportFaultEvent_faults r r.faultCode
    rw [if_pos rfl] at hfaults
    rw [inMemory_status] at hcleared ⊢
    obtain ⟨state, hstate, hstatus⟩ := Option.map_eq_some_iff.mp hcleared
    rw [hstate, FaultState.afterReport, if_pos hstatus, if_neg (by simp [hpassed])] at hfaults
    exact (congrArg _ hfaults).trans (congrArg some hstatus)
  clear_returns st code := by
    simp only [inMemorySnapshotStorage, InMemoryFaultStorage.clearFault,
      InMemoryFaultStorage.getFault, Option.isSome_map]
    cases st.faults[code]? <;> rfl
  status_clear st code hknown := by
    have hfaults := st.toInMemoryFaultStorage.clearFault_faults code code
    obtain ⟨state, hstate⟩ := Option.isSome_iff_exists.mp (Option.isSome_map.symm.trans hknown)
    rw [if_pos rfl, hstate] at hfaults
    rw [inMemory_status]
    exact congrArg _ hfaults
  status_clear_of_ne st cleared code hne := by
    have hfaults := st.toInMemoryFaultStorage.clearFault_faults cleared code
    rw [if_neg hne] at hfaults
    rw [inMemory_status, inMemory_status]
    exact congrArg _ hfaults
  status_store st snapshots code := by cases snapshots <;> rfl
  retains_report st r := (st.toInMemoryFaultStorage.reportFaultEvent_snapshots r).2
  retains_clear st code := by
    simp only [inMemorySnapshotStorage, InMemorySnapshotStore.step, InMemoryFaultStorage.clearFault]
    split <;> rfl
  retains_store st snapshots := by cases snapshots <;> rfl

theorem sqliteSnapshotStorage_lawful : sqliteSnapshotStorage.Lawful where
  status_report_of_ne db r code hne := by
    have hfaults := db.toSqliteFaultStorage.reportFaultEvent_faults r code
    rw [if_neg hne] at hfaults
    rw [sqlite_status, sqlite_status]
    exact congrArg _ hfaults
  status_report_passed db r hpassed hcleared := by
    have hfaults := db.toSqliteFaultStorage.reportFaultEvent_faults r r.faultCode
    rw [if_pos rfl] at hfaults
    rw [sqlite_status] at hcleared ⊢
    obtain ⟨row, hrow, hstatus⟩ := Option.map_eq_some_iff.mp hcleared
    rw [hrow, FaultRow.afterReport,
      if_pos (by simp [FaultRow.isReactivation, hstatus, hpassed])] at hfaults
    exact (congrArg _ hfaults).trans (congrArg some hstatus)
  clear_returns db code := by
    simp only [sqliteSnapshotStorage, SqliteFaultStorage.clearFault, SqliteFaultStorage.getFault,
      Option.isSome_map, Std.ExtTreeMap.mem_iff_isSome_getElem?]
    cases db.faults[code]?.isSome <;> rfl
  status_clear db code hknown := by
    obtain ⟨row, hrow⟩ := Option.isSome_iff_exists.mp (Option.isSome_map.symm.trans hknown)
    rw [sqlite_status]
    simp [sqliteSnapshotStorage, SqliteSnapshotStore.step, SqliteFaultStorage.clearFault, hrow]
  status_clear_of_ne db cleared code hne := by
    rw [sqlite_status, sqlite_status]
    simp [sqliteSnapshotStorage, SqliteSnapshotStore.step, SqliteFaultStorage.clearFault,
      Std.ExtTreeMap.getElem?_alter, hne]
  status_store db snapshots code := by cases snapshots <;> rfl
  retains_report db r := (db.toSqliteFaultStorage.reportFaultEvent_snapshots r).2
  retains_clear db code := rfl
  retains_store db snapshots := by cases snapshots <;> rfl

end Medkit.FaultManager
