import Medkit.FaultManager.Snapshots

/-! What the cap on snapshots keeps. The loop that trims a fault erases whole captures in the
order of their ids, so what is left of the fault is everything from some id on. -/
namespace Medkit.FaultManager

open Lib

def SnapshotData.inCapture (faultCode : Str) (captureId : Int) (snapshot : SnapshotData) : Bool :=
  snapshot.ofFault faultCode && snapshot.captureId = captureId

namespace InMemorySnapshotStore

def keptFrom (faultCode : Str) (bound : Int) (rows : List SnapshotData) : List SnapshotData :=
  rows.filter fun s => !s.ofFault faultCode || bound ≤ s.captureId

theorem mem_keptFrom {faultCode : Str} {bound : Int} {rows : List SnapshotData}
    {s : SnapshotData} : s ∈ keptFrom faultCode bound rows ↔
      s ∈ rows ∧ (s.ofFault faultCode → bound ≤ s.captureId) := by
  simp only [keptFrom, List.mem_filter, Bool.or_eq_true, Bool.not_eq_true', decide_eq_true_eq,
    ← Bool.not_eq_true, imp_iff_not_or]

theorem keptFrom_keptFrom (faultCode : Str) (bound bound' : Int) (rows : List SnapshotData) :
    keptFrom faultCode bound (keptFrom faultCode bound' rows) =
      keptFrom faultCode (max bound bound') rows := by
  unfold keptFrom
  rw [List.filter_filter]
  apply List.filter_congr
  intro s _
  cases s.ofFault faultCode <;> simp [Bool.decide_and]

theorem exists_le_captureId (newest : Int) (rows : List SnapshotData) :
    ∃ bound ≤ newest, ∀ s ∈ rows, bound ≤ s.captureId := by
  induction rows with
  | nil => exact ⟨newest, le_refl _, by simp⟩
  | cons s rows ih =>
    obtain ⟨bound, hbound, hrows⟩ := ih
    refine ⟨min bound s.captureId, by omega, ?_⟩
    intro s' hs'
    rcases List.mem_cons.mp hs' with rfl | hs'
    · omega
    · have := hrows s' hs'
      omega

section Trim

variable (maxCount : Nat) (faultCode : Str) {newest : Int}

theorem evicted_eq_keptFrom {updated : List SnapshotData} {oldest : Int}
    (hmax : ∀ s ∈ updated, s.ofFault faultCode → s.captureId ≤ newest)
    (holdest : (((updated.filter (·.ofFault faultCode)).map (·.captureId)).filter
      (· ≠ newest)).min? = some oldest) :
    oldest < newest ∧ (updated.filter fun s => !(s.ofFault faultCode && s.captureId = oldest)) =
      keptFrom faultCode (oldest + 1) updated := by
  obtain ⟨hmem, hleast⟩ := List.min?_eq_some_iff.mp holdest
  obtain ⟨hid, hne⟩ := List.mem_filter.mp hmem
  have hlt : oldest < newest := by
    obtain ⟨s, hs, rfl⟩ := List.mem_map.mp hid
    obtain ⟨hs, hfault⟩ := List.mem_filter.mp hs
    have := hmax s hs hfault
    have : s.captureId ≠ newest := of_decide_eq_true hne
    omega
  refine ⟨hlt, ?_⟩
  apply List.filter_congr
  intro s hs
  cases hfault : s.ofFault faultCode with
  | false => rfl
  | true =>
    have hge : s.captureId = newest ∨ oldest ≤ s.captureId := by
      by_cases hnewest : s.captureId = newest
      · exact .inl hnewest
      · right
        apply hleast
        refine List.mem_filter.mpr ⟨?_, decide_eq_true hnewest⟩
        exact List.mem_map_of_mem (List.mem_filter.mpr ⟨hs, hfault⟩)
    have hiff : ¬ s.captureId = oldest ↔ oldest + 1 ≤ s.captureId := by omega
    simp [← hiff]

theorem exists_keptFrom_eq_self (newest : Int) (rows : List SnapshotData) :
    ∃ bound ≤ newest, rows = keptFrom faultCode bound rows := by
  obtain ⟨bound, hbound, hrows⟩ := exists_le_captureId newest rows
  refine ⟨bound, hbound, (List.filter_eq_self.mpr ?_).symm⟩
  intro s hs
  simp [hrows s hs]

theorem trimCaptures_eq_keptFrom (fuel : Nat) (updated : List SnapshotData)
    (hmax : ∀ s ∈ updated, s.ofFault faultCode → s.captureId ≤ newest) :
    ∃ bound ≤ newest, trimCaptures maxCount faultCode newest fuel updated =
      keptFrom faultCode bound updated := by
  induction fuel generalizing updated with
  | zero => exact exists_keptFrom_eq_self faultCode newest updated
  | succ fuel ih =>
    unfold trimCaptures
    dsimp only
    split
    · exact exists_keptFrom_eq_self faultCode newest updated
    · split
      · exact exists_keptFrom_eq_self faultCode newest updated
      · rename_i oldest holdest
        obtain ⟨hlt, hevicted⟩ := evicted_eq_keptFrom faultCode hmax holdest
        rw [hevicted]
        obtain ⟨bound, hbound, hkept⟩ := ih (keptFrom faultCode (oldest + 1) updated)
          fun s hs => hmax s (mem_keptFrom.mp hs).1
        refine ⟨max bound (oldest + 1), by omega, ?_⟩
        rw [hkept, keptFrom_keptFrom]

theorem trimCaptures_fuel {fuel fuel' : Nat} {updated : List SnapshotData}
    (hfuel : updated.length ≤ fuel) (hfuel' : updated.length ≤ fuel') :
    trimCaptures maxCount faultCode newest fuel updated =
      trimCaptures maxCount faultCode newest fuel' updated := by
  have hempty : ∀ fuel, trimCaptures maxCount faultCode newest fuel [] = [] := by
    intro fuel
    cases fuel <;> simp [trimCaptures]
  induction fuel generalizing updated fuel' with
  | zero =>
    obtain rfl : updated = [] := List.length_eq_zero_iff.mp (by omega)
    rw [hempty, hempty]
  | succ fuel ih =>
    cases fuel' with
    | zero =>
      obtain rfl : updated = [] := List.length_eq_zero_iff.mp (by omega)
      rw [hempty, hempty]
    | succ fuel' =>
      unfold trimCaptures
      dsimp only
      split
      · rfl
      · split
        · rfl
        · rename_i oldest holdest
          have hlt := length_evicted_lt holdest
          exact ih (by omega) (by omega)

end Trim

theorem filter_others_keptFrom (faultCode : Str) (bound : Int) (rows : List SnapshotData) :
    (keptFrom faultCode bound rows).filter (fun s => !s.ofFault faultCode) =
      rows.filter (fun s => !s.ofFault faultCode) := by
  rw [keptFrom, List.filter_filter]
  apply List.filter_congr
  intro s _
  cases s.ofFault faultCode <;> rfl

theorem filter_inCapture_keptFrom (faultCode : Str) {bound id : Int} (hge : bound ≤ id)
    (rows : List SnapshotData) : (keptFrom faultCode bound rows).filter (·.inCapture faultCode id) =
      rows.filter (·.inCapture faultCode id) := by
  rw [keptFrom, List.filter_filter]
  apply List.filter_congr
  intro s _
  by_cases hid : s.captureId = id
  · simp [SnapshotData.inCapture, hid, hge]
  · simp [SnapshotData.inCapture, hid]

theorem storeSnapshots_eq_trim (st : InMemorySnapshotStore) (hcap : 0 < st.maxSnapshotsPerFault)
    {faultCode : Str} {snapshots : List SnapshotData} (hne : snapshots ≠ [])
    (hbatch : ∀ s ∈ snapshots, s.faultCode = faultCode) :
    ∃ newest, (∃ s ∈ st.snapshots ++ snapshots, s.inCapture faultCode newest) ∧
      (∀ s ∈ st.snapshots ++ snapshots, s.ofFault faultCode → s.captureId ≤ newest) ∧
      (st.storeSnapshots snapshots).snapshots = trimCaptures st.maxSnapshotsPerFault faultCode
        newest (st.snapshots ++ snapshots).length (st.snapshots ++ snapshots) := by
  obtain ⟨first, rest, rfl⟩ := List.exists_cons_of_ne_nil hne
  obtain rfl : first.faultCode = faultCode := hbatch first List.mem_cons_self
  let stored := st.snapshots ++ first :: rest
  let mine := stored.filter (·.ofFault first.faultCode)
  have hfirst : first ∈ mine := by
    refine List.mem_filter.mpr ⟨?_, by simp [SnapshotData.ofFault]⟩
    exact List.mem_append_right _ List.mem_cons_self
  cases hnewest : (mine.map (·.captureId)).max? with
  | none =>
    rw [List.max?_eq_none_iff] at hnewest
    exact absurd (List.mem_map_of_mem hfirst) (by rw [hnewest]; exact List.not_mem_nil)
  | some newest =>
    obtain ⟨hmem, hmost⟩ := List.max?_eq_some_iff.mp hnewest
    obtain ⟨s, hs, hid⟩ := List.mem_map.mp hmem
    obtain ⟨hs, hfault⟩ := List.mem_filter.mp hs
    refine ⟨newest, ⟨s, hs, by simp [SnapshotData.inCapture, hfault, hid]⟩, ?_, ?_⟩
    · intro s hs hfault
      exact hmost _ (List.mem_map_of_mem (List.mem_filter.mpr ⟨hs, hfault⟩))
    · simp only [storeSnapshots]
      rw [hnewest]
      dsimp only
      rw [if_pos hcap]

/-- Storing a capture of one fault under a cap: the other faults keep their rows, the fault
keeps whole captures, the newest ones, and the newest of all in any case. The loop is done
once the fault fits or nothing but that capture is left. -/
theorem storeSnapshots_keeps_newest_captures (st : InMemorySnapshotStore)
    (hcap : 0 < st.maxSnapshotsPerFault) (faultCode : Str) (captureId : Int)
    (snapshots : List SnapshotData) (hne : snapshots ≠ [])
    (hbatch : ∀ s ∈ snapshots, s.faultCode = faultCode ∧ s.captureId = captureId) :
    let stored := st.snapshots ++ snapshots
    let kept := (st.storeSnapshots snapshots).snapshots
    kept.filter (fun s => !s.ofFault faultCode) =
      st.snapshots.filter (fun s => !s.ofFault faultCode) ∧
    (∀ id, (∃ s ∈ kept, s.inCapture faultCode id) →
      kept.filter (·.inCapture faultCode id) = stored.filter (·.inCapture faultCode id)) ∧
    (∀ s ∈ kept, ∀ s' ∈ stored, s.ofFault faultCode → s'.ofFault faultCode →
      s.captureId ≤ s'.captureId → s' ∈ kept) ∧
    (∃ newest, (∀ s ∈ stored, s.ofFault faultCode → s.captureId ≤ newest) ∧
      (∃ s ∈ kept, s.inCapture faultCode newest) ∧
      ((kept.filter (·.ofFault faultCode)).length ≤ st.maxSnapshotsPerFault ∨
        ∀ s ∈ kept, s.ofFault faultCode → s.captureId = newest) ∧
      ∀ fuel, stored.length ≤ fuel →
        trimCaptures st.maxSnapshotsPerFault faultCode newest fuel stored = kept) := by
  intro stored kept
  obtain ⟨newest, ⟨s, hs, hnewest⟩, hmax, htrim⟩ :=
    st.storeSnapshots_eq_trim hcap hne fun s hs => (hbatch s hs).1
  obtain ⟨bound, hbound, hkept⟩ := trimCaptures_eq_keptFrom st.maxSnapshotsPerFault faultCode
    stored.length stored hmax
  have hkeptFrom : kept = keptFrom faultCode bound stored := htrim.trans hkept
  have hsettled := trimCaptures_settled st.maxSnapshotsPerFault faultCode newest stored.length
    stored le_rfl
  rw [← htrim] at hsettled
  refine ⟨?_, ?_, ?_, newest, hmax, ?_, hsettled, ?_⟩
  · have hothers : snapshots.filter (fun s => !s.ofFault faultCode) = [] := by
      apply List.filter_eq_nil_iff.mpr
      intro s hs
      simp [SnapshotData.ofFault, (hbatch s hs).1]
    rw [hkeptFrom, filter_others_keptFrom, List.filter_append, hothers, List.append_nil]
  · rintro id ⟨s, hs, hid⟩
    simp only [SnapshotData.inCapture, Bool.and_eq_true, decide_eq_true_eq] at hid
    obtain ⟨hfault, rfl⟩ := hid
    rw [hkeptFrom] at hs ⊢
    exact filter_inCapture_keptFrom faultCode ((mem_keptFrom.mp hs).2 hfault) stored
  · intro s hs s' hs' hfault _ hle
    rw [hkeptFrom, mem_keptFrom] at hs ⊢
    have hge := hs.2 hfault
    exact ⟨hs', fun _ => by omega⟩
  · refine ⟨s, ?_, hnewest⟩
    rw [hkeptFrom, mem_keptFrom]
    simp only [SnapshotData.inCapture, Bool.and_eq_true, decide_eq_true_eq] at hnewest
    exact ⟨hs, fun _ => by omega⟩
  · intro fuel hfuel
    exact (trimCaptures_fuel _ _ hfuel le_rfl).trans htrim.symm

def motorRow (captureId : Int) (topic : Str) : SnapshotData where
  faultCode := str "MOTOR"
  topic := topic
  messageType := str "std_msgs/msg/Float64"
  data := str "1"
  capturedAtNs := captureId
  captureId := captureId

theorem storeSnapshots_keeps_newest_captures_over_cap :
    let st : InMemorySnapshotStore :=
      { snapshots := [motorRow 0 (str "/old"), motorRow 7 (str "/a"), motorRow 7 (str "/b")]
        maxSnapshotsPerFault := 3 }
    let kept := (st.storeSnapshots [motorRow 9 (str "/a"), motorRow 9 (str "/b")]).snapshots
    kept.length = 2 ∧ kept.filter (·.inCapture (str "MOTOR") 9) =
      [motorRow 9 (str "/a"), motorRow 9 (str "/b")] := by
  intro st kept
  have hcomplete := (storeSnapshots_keeps_newest_captures st (by decide) (str "MOTOR") 9
    [motorRow 9 (str "/a"), motorRow 9 (str "/b")] (by simp)
    (by simp [motorRow])).2.1 9 ⟨motorRow 9 (str "/a"), by decide, by decide⟩
  exact ⟨by decide, hcomplete.trans (by decide)⟩

end InMemorySnapshotStore

end Medkit.FaultManager
