import Medkit.FaultManager.RosbagStorage

/-! The storage quota of the rosbag capture. Bags are counted by path but deleted by recording
id, the last component of the path, and the eviction keeps a running total of its own. -/
namespace Medkit.FaultManager

open Lib

/-! ## The eviction -/

structure QuotaBag where
  path : Str
  recordingId : Str
  bytes : Nat

def accountRow (bags : List QuotaBag) (row : RosbagFileInfo) : List QuotaBag :=
  if bags.any (·.path = row.filePath) then
    bags.map fun bag =>
      if bag.path = row.filePath then { bag with bytes := max bag.bytes row.sizeBytes } else bag
  else
    bags ++ [{ path := row.filePath, recordingId := row.recordingId, bytes := row.sizeBytes }]

def evictBags (maxBytes : Nat) :
    InMemoryRosbags → Nat → List QuotaBag → InMemoryRosbags × List Str
  | st, _, [] => (st, [])
  | st, currentBytes, bag :: bags =>
      if currentBytes ≤ maxBytes then (st, [])
      else
        let (left, evicted) := evictBags maxBytes (st.deleteRosbagRecording bag.recordingId).1
          (currentBytes - min currentBytes bag.bytes) bags
        (left, bag.path :: evicted)

namespace InMemoryRosbags

def quotaBags (st : InMemoryRosbags) : List QuotaBag := st.getAllRosbagFiles.foldl accountRow []

def evictBagsOverQuota (st : InMemoryRosbags) (maxBytes : Nat) : InMemoryRosbags × List Str :=
  let currentBytes := st.getTotalRosbagStorageBytes
  if currentBytes ≤ maxBytes then (st, [])
  else evictBags maxBytes st currentBytes st.quotaBags

/-! ## What it is for -/

def pathsOldestFirst (st : InMemoryRosbags) : List Str :=
  (st.getAllRosbagFiles.map (·.filePath)).eraseDups

def dropPaths (st : InMemoryRosbags) (paths : List Str) : InMemoryRosbags :=
  st.dropRows fun row => paths.contains row.filePath

/-- The store is within the quota after as few evictions as that takes, oldest bag first, and
has lost the evicted bags and nothing else. -/
structure EvictsToQuota (st : InMemoryRosbags) (maxBytes : Nat) (left : InMemoryRosbags)
    (evicted : List Str) : Prop where
  within : left.getTotalRosbagStorageBytes ≤ maxBytes
  removed : left.rosbagFiles.rows = (st.dropPaths evicted).rosbagFiles.rows
  oldest : evicted <+: st.pathsOldestFirst
  needed : ∀ others last, evicted = others ++ [last] →
    maxBytes < (st.dropPaths others).getTotalRosbagStorageBytes

end InMemoryRosbags

def overQuota (maxBytes : Nat) : Nat → List QuotaBag → List QuotaBag
  | _, [] => []
  | total, bag :: bags =>
      if total ≤ maxBytes then [] else bag :: overQuota maxBytes (total - bag.bytes) bags

def bytesOf (bags : List QuotaBag) : Nat := (bags.map (·.bytes)).sum

/-- The bags to evict have names, share them with no bag that stays, and are not larger than
the total, which has overflowed otherwise. -/
structure InMemoryRosbags.Evictable (st : InMemoryRosbags) (doomed : List QuotaBag) : Prop where
  named : ∀ bag ∈ doomed, rosbagRecordingId bag.path ≠ []
  unshared : ∀ bag ∈ doomed, ∀ row ∈ st.rosbagFiles.rows,
    rosbagRecordingId row.2.filePath = rosbagRecordingId bag.path →
      row.2.filePath ∈ doomed.map (·.path)
  counted : bytesOf doomed ≤ st.getTotalRosbagStorageBytes

/-! ## Bytes per path -/

section Bytes

variable {rows : List RosbagFileInfo} {path : Str}

def pathBytes (rows : List RosbagFileInfo) (path : Str) : Nat :=
  ((rows.filter (·.filePath = path)).map (·.sizeBytes)).foldr max 0

def storedPaths (rows : List RosbagFileInfo) : Finset Str := (rows.map (·.filePath)).toFinset

theorem pathBytes_cons (row : RosbagFileInfo) (rows : List RosbagFileInfo) (path : Str) :
    pathBytes (row :: rows) path =
      if row.filePath = path then max row.sizeBytes (pathBytes rows path)
      else pathBytes rows path := by
  unfold pathBytes
  by_cases h : row.filePath = path <;> simp [h]

theorem pathBytes_perm {rows' : List RosbagFileInfo} (h : rows.Perm rows') (path : Str) :
    pathBytes rows path = pathBytes rows' path :=
  ((h.filter _).map _).foldr_eq 0

theorem pathBytes_snoc (rows : List RosbagFileInfo) (row : RosbagFileInfo) (path : Str) :
    pathBytes (rows ++ [row]) path =
      if row.filePath = path then max (pathBytes rows path) row.sizeBytes
      else pathBytes rows path := by
  rw [pathBytes_perm List.perm_append_comm, List.singleton_append, pathBytes_cons, max_comm]

theorem pathBytes_lt (h : ∀ row ∈ rows, row.sizeBytes < 2 ^ 64) : pathBytes rows path < 2 ^ 64 := by
  induction rows with
  | nil => exact Nat.two_pow_pos 64
  | cons row rows ih =>
    have hrow := h row List.mem_cons_self
    have hrows := ih fun other hother => h other (List.mem_cons_of_mem _ hother)
    rw [pathBytes_cons]
    split_ifs
    · exact max_lt hrow hrows
    · exact hrows

theorem pathBytes_filter {keep : RosbagFileInfo → Bool}
    (h : ∀ row ∈ rows, row.filePath = path → keep row) :
    pathBytes (rows.filter keep) path = pathBytes rows path := by
  unfold pathBytes
  rw [List.filter_filter]
  congr 2
  apply List.filter_congr
  intro row hrow
  by_cases hpath : row.filePath = path
  · simp [hpath, h row hrow hpath]
  · simp [hpath]

theorem mem_storedPaths_cons (row : RosbagFileInfo) :
    path ∈ storedPaths (row :: rows) ↔ row.filePath = path ∨ path ∈ storedPaths rows := by
  unfold storedPaths
  rw [List.map_cons, List.toFinset_cons, Finset.mem_insert, eq_comm]

theorem pathBytes_eq_zero (h : path ∉ storedPaths rows) : pathBytes rows path = 0 := by
  induction rows with
  | nil => rfl
  | cons row rows ih =>
    rw [mem_storedPaths_cons, not_or] at h
    rw [pathBytes_cons, if_neg h.1, ih h.2]

theorem getElem?_addBytes (rows : List RosbagFileInfo) (bytes : OMap Str Nat) (path : Str) :
    (rows.foldl InMemoryRosbags.addBytes bytes)[path]? =
      if path ∈ storedPaths rows then some (max (bytes[path]?.getD 0) (pathBytes rows path))
      else bytes[path]? := by
  induction rows generalizing bytes with
  | nil => simp [storedPaths]
  | cons row rows ih =>
    rw [List.foldl_cons, ih, pathBytes_cons]
    simp only [mem_storedPaths_cons]
    unfold InMemoryRosbags.addBytes
    by_cases hpath : row.filePath = path
    · subst hpath
      rw [Std.ExtTreeMap.getElem?_insert_self, if_pos rfl, Option.getD_some]
      simp only [true_or, if_true]
      split_ifs with hmem
      · rw [max_assoc]
      · rw [pathBytes_eq_zero hmem, Nat.max_zero]
    · simp only [OMap.getElem?_insert_of_ne hpath, hpath, if_false, false_or]

theorem sum_bytesPerPath (st : InMemoryRosbags) : (st.bytesPerPath.toList.map (·.2)).sum =
      ∑ path ∈ storedPaths (st.rosbagFiles.rows.map (·.2)),
        pathBytes (st.rosbagFiles.rows.map (·.2)) path := by
  have hlookup : ∀ path, st.bytesPerPath[path]? =
      if path ∈ storedPaths (st.rosbagFiles.rows.map (·.2)) then
        some (pathBytes (st.rosbagFiles.rows.map (·.2)) path) else none := by
    intro path
    unfold InMemoryRosbags.bytesPerPath
    rw [getElem?_addBytes, Std.ExtTreeMap.getElem?_empty, Option.getD_none, Nat.zero_max]
  have hvalues : st.bytesPerPath.toList.map (·.2) =
      (st.bytesPerPath.toList.map (·.1)).map (pathBytes (st.rosbagFiles.rows.map (·.2))) := by
    rw [List.map_map]
    apply List.map_congr_left
    rintro ⟨path, bytes⟩ hmem
    rw [Std.ExtTreeMap.mem_toList_iff_getElem?_eq_some, hlookup] at hmem
    split_ifs at hmem
    exact (Option.some.inj hmem).symm
  have hkeys : (st.bytesPerPath.toList.map (·.1)).toFinset =
      storedPaths (st.rosbagFiles.rows.map (·.2)) := by
    ext path
    simp only [List.mem_toFinset, List.mem_map, Prod.exists,
      Std.ExtTreeMap.mem_toList_iff_getElem?_eq_some, hlookup, exists_and_right, exists_eq_right]
    split_ifs with hmem <;> simp [hmem]
  rw [hvalues, ← hkeys, List.sum_toFinset _ st.bytesPerPath.nodup_keys_toList]

end Bytes

/-! ## The accounts -/

structure Accounts (seen : List RosbagFileInfo) (bags : List QuotaBag) : Prop where
  paths : bags.map (·.path) = (seen.map (·.filePath)).eraseDups
  bytes : ∀ bag ∈ bags, bag.bytes = pathBytes seen bag.path
  recorded : ∀ bag ∈ bags, ∃ row ∈ seen, row.filePath = bag.path ∧ row.recordingId = bag.recordingId

theorem eraseDups_snoc (l : List Str) (a : Str) :
    (l ++ [a]).eraseDups = if a ∈ l then l.eraseDups else l.eraseDups ++ [a] := by
  rw [List.eraseDups_append]
  by_cases h : a ∈ l <;> simp [List.removeAll, h, List.eraseDups_cons]

theorem nodup_eraseDups (l : List Str) : l.eraseDups.Nodup := by
  induction l using List.reverseRecOn with
  | nil => exact List.nodup_nil
  | append_singleton l a ih =>
    rw [eraseDups_snoc]
    split_ifs with h
    · exact ih
    · refine List.nodup_append.mpr ⟨ih, List.nodup_singleton a, ?_⟩
      rintro b hb c hc rfl
      exact h (List.mem_singleton.mp hc ▸ List.mem_eraseDups.mp hb)

variable {bags : List QuotaBag}

theorem Accounts.accountRow {seen : List RosbagFileInfo} (h : Accounts seen bags)
    (row : RosbagFileInfo) : Accounts (seen ++ [row]) (accountRow bags row) := by
  have hany : (bags.any (·.path = row.filePath)) = true ↔ row.filePath ∈ seen.map (·.filePath) := by
    rw [← List.mem_eraseDups, ← h.paths]
    simp only [List.any_eq_true, decide_eq_true_eq, List.mem_map]
  unfold FaultManager.accountRow
  split_ifs with hheld
  · refine ⟨?_, ?_, ?_⟩
    · have hsame : (fun bag : QuotaBag => (if bag.path = row.filePath then
          { bag with bytes := max bag.bytes row.sizeBytes } else bag).path) = (·.path) := by
        funext bag
        split_ifs <;> rfl
      rw [List.map_map, List.map_append, List.map_singleton, eraseDups_snoc, if_pos (hany.mp hheld),
        ← h.paths]
      exact congrArg (bags.map ·) hsame
    · intro bag hbag
      obtain ⟨old, hold, rfl⟩ := List.mem_map.mp hbag
      rw [pathBytes_snoc]
      by_cases hpath : old.path = row.filePath
      · simp only [hpath, if_true, h.bytes old hold]
      · simp only [hpath, Ne.symm hpath, if_false, h.bytes old hold]
    · intro bag hbag
      obtain ⟨old, hold, rfl⟩ := List.mem_map.mp hbag
      obtain ⟨first, hfirst, hpath, hid⟩ := h.recorded old hold
      refine ⟨first, List.mem_append_left _ hfirst, ?_⟩
      split_ifs <;> exact ⟨hpath, hid⟩
  · have hnew : row.filePath ∉ seen.map (·.filePath) := mt hany.mpr hheld
    refine ⟨?_, ?_, ?_⟩
    · simp only [List.map_append, List.map_cons, List.map_nil]
      rw [eraseDups_snoc, if_neg hnew, h.paths]
    · intro bag hbag
      rw [pathBytes_snoc]
      rcases List.mem_append.mp hbag with hold | hlast
      · have hother : row.filePath ≠ bag.path := by
          intro heq
          apply hnew
          rw [heq, ← List.mem_eraseDups, ← h.paths]
          exact List.mem_map_of_mem hold
        rw [if_neg hother, h.bytes bag hold]
      · cases List.mem_singleton.mp hlast
        have hzero : pathBytes seen row.filePath = 0 :=
          pathBytes_eq_zero (mt List.mem_toFinset.mp hnew)
        simp [hzero]
    · intro bag hbag
      rcases List.mem_append.mp hbag with hold | hlast
      · obtain ⟨first, hfirst, hsame⟩ := h.recorded bag hold
        exact ⟨first, List.mem_append_left _ hfirst, hsame⟩
      · cases List.mem_singleton.mp hlast
        exact ⟨row, List.mem_append_right _ List.mem_cons_self, rfl, rfl⟩

theorem Accounts.foldl {seen : List RosbagFileInfo} (h : Accounts seen bags)
    (rows : List RosbagFileInfo) :
    Accounts (seen ++ rows) (rows.foldl FaultManager.accountRow bags) := by
  induction rows generalizing seen bags with
  | nil => simpa using h
  | cons row rows ih =>
    have hrow := ih (h.accountRow row)
    rwa [List.append_assoc] at hrow

theorem InMemoryRosbags.accounts (st : InMemoryRosbags) :
    Accounts st.getAllRosbagFiles st.quotaBags := by
  have hstart : Accounts [] [] := ⟨rfl, by simp, by simp⟩
  exact hstart.foldl st.getAllRosbagFiles

/-! ## The bags over the quota -/

theorem bytesOf_append (bags bags' : List QuotaBag) :
    bytesOf (bags ++ bags') = bytesOf bags + bytesOf bags' := by
  unfold bytesOf
  rw [List.map_append, List.sum_append]

@[simp] theorem bytesOf_cons (bag : QuotaBag) (bags : List QuotaBag) :
    bytesOf (bag :: bags) = bag.bytes + bytesOf bags := List.sum_cons

theorem overQuota_prefix (maxBytes total : Nat) (bags : List QuotaBag) :
    overQuota maxBytes total bags <+: bags := by
  induction bags generalizing total with
  | nil => exact List.prefix_rfl
  | cons bag bags ih =>
    unfold overQuota
    split_ifs
    · exact List.nil_prefix
    · exact List.prefix_cons_inj bag |>.mpr (ih _)

theorem sub_bytesOf_overQuota (maxBytes : Nat) {total : Nat} (h : total ≤ bytesOf bags) :
    total - bytesOf (overQuota maxBytes total bags) ≤ maxBytes := by
  induction bags generalizing total with
  | nil =>
    have hzero : total ≤ 0 := h
    omega
  | cons bag bags ih =>
    rw [bytesOf_cons] at h
    unfold overQuota
    split_ifs with hfits
    · exact Nat.sub_le_of_le_add (Nat.le_add_right_of_le hfits)
    · have hrest := ih (Nat.sub_le_iff_le_add'.mpr h)
      rw [bytesOf_cons]
      omega

theorem lt_sub_bytesOf_overQuota {maxBytes total : Nat} {others : List QuotaBag} {last : QuotaBag}
    (h : overQuota maxBytes total bags = others ++ [last]) : maxBytes < total - bytesOf others := by
  induction bags generalizing total others with
  | nil => simp [overQuota] at h
  | cons bag bags ih =>
    unfold overQuota at h
    split_ifs at h with hfits
    · simp at h
    · cases others with
      | nil => exact Nat.lt_of_not_le hfits
      | cons other others =>
        rw [List.cons_append, List.cons.injEq] at h
        obtain ⟨rfl, hrest⟩ := h
        have hlt := ih hrest
        rw [bytesOf_cons]
        omega

/-- The bags that stay fit exactly if the total did not overflow: otherwise it was the last bag
that took the running total below zero. -/
theorem remaining_fits_iff {maxBytes total : Nat} {doomed rest : List QuotaBag}
    (hdoomed : overQuota maxBytes total bags = doomed) (hsplit : doomed ++ rest = bags)
    (htotal : total = bytesOf bags % 2 ^ 64) (hbytes : ∀ bag ∈ bags, bag.bytes < 2 ^ 64) :
    bytesOf rest % 2 ^ 64 ≤ maxBytes ↔ bytesOf doomed ≤ total := by
  have hfits := sub_bytesOf_overQuota maxBytes (htotal.trans_le (Nat.mod_le _ _))
  rw [hdoomed] at hfits
  rw [← hsplit, bytesOf_append] at htotal
  constructor
  · intro hwithin
    by_contra hcounted
    rcases doomed.eq_nil_or_concat' with rfl | ⟨others, last, rfl⟩
    · exact hcounted (Nat.zero_le _)
    · have hshorter := lt_sub_bytesOf_overQuota hdoomed
      have hlast : last.bytes < 2 ^ 64 := hbytes last (hsplit ▸ by simp)
      have hone : bytesOf [last] = last.bytes := Nat.add_zero _
      rw [bytesOf_append] at htotal hcounted
      omega
  · intro hcounted
    omega

/-! ## What the eviction deletes -/

namespace InMemoryRosbags

variable (st : InMemoryRosbags)

theorem rows_deleteRosbagRecording (recordingId : Str) :
    (st.deleteRosbagRecording recordingId).1.rosbagFiles.rows =
      st.rosbagFiles.rows.filter fun row =>
        row.2.recordingId = [] ∨ row.2.recordingId ≠ recordingId := by
  unfold deleteRosbagRecording
  split_ifs with hempty
  · rw [List.isEmpty_iff] at hempty
    subst hempty
    refine (List.filter_eq_self.mpr fun row _ => ?_).symm
    simp [em]
  · rw [List.isEmpty_iff] at hempty
    apply List.filter_congr
    intro row _
    by_cases hid : row.2.recordingId = recordingId
    · simp [RosbagFileInfo.ofRecording, hid, hempty]
    · simp [RosbagFileInfo.ofRecording, hid]

theorem rows_dropPaths (paths : List Str) : (st.dropPaths paths).rosbagFiles.rows =
      st.rosbagFiles.rows.filter fun row => row.2.filePath ∉ paths := by
  apply List.filter_congr
  intro row _
  simp

theorem evictBags_eq (maxBytes total : Nat) (bags : List QuotaBag) :
    (evictBags maxBytes st total bags).2 = (overQuota maxBytes total bags).map (·.path) ∧
    (evictBags maxBytes st total bags).1.rosbagFiles.rows = st.rosbagFiles.rows.filter fun row =>
      row.2.recordingId = [] ∨
        row.2.recordingId ∉ (overQuota maxBytes total bags).map (·.recordingId) := by
  induction bags generalizing st total with
  | nil => simp [evictBags, overQuota]
  | cons bag bags ih =>
    unfold evictBags overQuota
    split_ifs with hfits
    · simp
    · obtain ⟨hevicted, hrows⟩ := ih (st.deleteRosbagRecording bag.recordingId).1
        (total - bag.bytes)
      have hsaturate : total - min total bag.bytes = total - bag.bytes := by omega
      dsimp only
      rw [hsaturate]
      refine ⟨by rw [hevicted, List.map_cons], ?_⟩
      rw [hrows, rows_deleteRosbagRecording, List.filter_filter]
      apply List.filter_congr
      intro row _
      rw [Bool.eq_iff_iff]
      simp only [Bool.and_eq_true, decide_eq_true_eq, List.map_cons, List.mem_cons, not_or]
      tauto

theorem evictBagsOverQuota_eq (maxBytes : Nat) : st.evictBagsOverQuota maxBytes =
      evictBags maxBytes st st.getTotalRosbagStorageBytes st.quotaBags := by
  unfold evictBagsOverQuota
  dsimp only
  split_ifs with hfits
  · cases hbags : st.quotaBags with
    | nil => rfl
    | cons bag bags =>
      unfold evictBags
      rw [if_pos hfits]
  · rfl

end InMemoryRosbags

/-! ## Totals -/

section Totals

variable {st : InMemoryRosbags}

theorem mem_paths_quotaBags {path : Str} :
    path ∈ st.quotaBags.map (·.path) ↔ ∃ row ∈ st.rosbagFiles.rows, row.2.filePath = path := by
  rw [st.accounts.paths, List.mem_eraseDups]
  unfold InMemoryRosbags.getAllRosbagFiles
  rw [List.map_map, List.mem_map]
  simp only [oldestFirst_perm.mem_iff, Function.comp_apply]

theorem bytes_quotaBags {bag : QuotaBag} (h : bag ∈ st.quotaBags) :
    bag.bytes = pathBytes (st.rosbagFiles.rows.map (·.2)) bag.path :=
  (st.accounts.bytes bag h).trans (pathBytes_perm (oldestFirst_perm.map _) _)

theorem total_dropPaths {gone rest : List QuotaBag} (h : st.quotaBags = gone ++ rest) :
    (st.dropPaths (gone.map (·.path))).getTotalRosbagStorageBytes = bytesOf rest % 2 ^ 64 := by
  have hnodup : (gone.map (·.path) ++ rest.map (·.path)).Nodup := by
    rw [← List.map_append, ← h, st.accounts.paths]
    exact nodup_eraseDups _
  have hkept : ∀ path ∈ rest.map (·.path), (!(gone.map (·.path)).contains path) = true := by
    intro path hpath
    have hnot : path ∉ gone.map (·.path) :=
      fun hgone => (List.nodup_append.mp hnodup).2.2 path hgone path hpath rfl
    rw [Bool.not_eq_true', List.contains_eq_mem, decide_eq_false_iff_not]
    exact hnot
  have hrows : (st.dropPaths (gone.map (·.path))).rosbagFiles.rows.map (·.2) =
      (st.rosbagFiles.rows.map (·.2)).filter
        fun row => !(gone.map (·.path)).contains row.filePath := by
    rw [List.filter_map]
    rfl
  have hstored : storedPaths ((st.dropPaths (gone.map (·.path))).rosbagFiles.rows.map (·.2)) =
      (rest.map (·.path)).toFinset := by
    ext path
    have hmem : path ∈ gone.map (·.path) ++ rest.map (·.path) ↔
        ∃ row ∈ st.rosbagFiles.rows, row.2.filePath = path := by
      rw [← List.map_append, ← h, mem_paths_quotaBags]
    rw [hrows, storedPaths, List.mem_toFinset, List.mem_toFinset]
    constructor
    · intro hpath
      obtain ⟨info, hinfo, rfl⟩ := List.mem_map.mp hpath
      obtain ⟨hinfo, hkept⟩ := List.mem_filter.mp hinfo
      obtain ⟨row, hrow, rfl⟩ := List.mem_map.mp hinfo
      rcases List.mem_append.mp (hmem.mpr ⟨row, hrow, rfl⟩) with hgone | hrest
      · rw [List.contains_iff_mem.mpr hgone] at hkept
        cases hkept
      · exact hrest
    · intro hpath
      obtain ⟨row, hrow, rfl⟩ := hmem.mp (List.mem_append_right _ hpath)
      apply List.mem_map_of_mem
      exact List.mem_filter.mpr ⟨List.mem_map_of_mem hrow, hkept _ hpath⟩
  unfold InMemoryRosbags.getTotalRosbagStorageBytes
  rw [sum_bytesPerPath, hstored, List.sum_toFinset _ (List.nodup_append.mp hnodup).2.1, List.map_map]
  congr 2
  apply List.map_congr_left
  intro bag hbag
  have hheld : bag ∈ st.quotaBags := h ▸ List.mem_append_right _ hbag
  rw [Function.comp_apply, hrows, pathBytes_filter, bytes_quotaBags hheld]
  intro row _ hpath
  rw [hpath]
  exact hkept _ (List.mem_map_of_mem hbag)

theorem getTotalRosbagStorageBytes_congr {left right : InMemoryRosbags}
    (h : left.rosbagFiles.rows = right.rosbagFiles.rows) :
    left.getTotalRosbagStorageBytes = right.getTotalRosbagStorageBytes := by
  unfold InMemoryRosbags.getTotalRosbagStorageBytes InMemoryRosbags.bytesPerPath
  rw [h]

theorem total_quotaBags : st.getTotalRosbagStorageBytes = bytesOf st.quotaBags % 2 ^ 64 := by
  have hnone : st.quotaBags = [] ++ st.quotaBags := rfl
  rw [← total_dropPaths hnone]
  exact getTotalRosbagStorageBytes_congr (List.filter_eq_self.mpr fun _ _ => rfl).symm

end Totals

/-! ## The quota is met -/

section Quota

variable {st : InMemoryRosbags}
  (hids : ∀ row ∈ st.rosbagFiles.rows, row.2.recordingId = rosbagRecordingId row.2.filePath)

include hids in
theorem recordingId_quotaBags {bag : QuotaBag} (h : bag ∈ st.quotaBags) :
    bag.recordingId = rosbagRecordingId bag.path := by
  obtain ⟨info, hinfo, hpath, hid⟩ := st.accounts.recorded bag h
  obtain ⟨row, hrow, rfl⟩ := List.mem_map.mp hinfo
  rw [← hid, ← hpath]
  exact hids row (oldestFirst_perm.mem_iff.mp hrow)

include hids in
/-- Deleting by recording id removes exactly the bags if and only if the ids are their own. -/
theorem rows_evicted_iff {doomed : List QuotaBag} (hdoomed : ∀ bag ∈ doomed, bag ∈ st.quotaBags) :
    (st.rosbagFiles.rows.filter fun row =>
      row.2.recordingId = [] ∨ row.2.recordingId ∉ doomed.map (·.recordingId)) =
        (st.dropPaths (doomed.map (·.path))).rosbagFiles.rows ↔
      (∀ bag ∈ doomed, rosbagRecordingId bag.path ≠ []) ∧
      ∀ bag ∈ doomed, ∀ row ∈ st.rosbagFiles.rows,
        rosbagRecordingId row.2.filePath = rosbagRecordingId bag.path →
          row.2.filePath ∈ doomed.map (·.path) := by
  have hnames : doomed.map (·.recordingId) = doomed.map fun bag => rosbagRecordingId bag.path :=
    List.map_congr_left fun bag hbag => recordingId_quotaBags hids (hdoomed bag hbag)
  rw [hnames, st.rows_dropPaths]
  constructor
  · intro hsame
    have hrow : ∀ row ∈ st.rosbagFiles.rows,
        (row.2.recordingId = [] ∨
          row.2.recordingId ∉ doomed.map fun bag => rosbagRecordingId bag.path) ↔
        row.2.filePath ∉ doomed.map (·.path) := by
      intro row hrow
      have hiff := Iff.of_eq (congrArg (row ∈ ·) hsame)
      simpa only [List.mem_filter, hrow, true_and, decide_eq_true_eq] using hiff
    have hnamed : ∀ bag ∈ doomed, rosbagRecordingId bag.path ≠ [] := by
      intro bag hbag hempty
      obtain ⟨row, hmem, hpath⟩ :=
        mem_paths_quotaBags.mp (List.mem_map_of_mem (f := (·.path)) (hdoomed bag hbag))
      apply (hrow row hmem).mp (.inl _) (hpath ▸ List.mem_map_of_mem hbag)
      rw [hids row hmem, hpath, hempty]
    refine ⟨hnamed, ?_⟩
    intro bag hbag row hmem hid
    by_contra hkept
    rcases (hrow row hmem).mpr hkept with hempty | hother
    · rw [hids row hmem, hid] at hempty
      exact hnamed bag hbag hempty
    · rw [hids row hmem, hid] at hother
      exact hother (List.mem_map_of_mem (f := fun bag => rosbagRecordingId bag.path) hbag)
  · rintro ⟨hnamed, hunshared⟩
    apply List.filter_congr
    intro row hmem
    rw [hids row hmem, decide_eq_decide]
    constructor
    · intro hkept hpath
      obtain ⟨bag, hbag, hpath⟩ := List.mem_map.mp hpath
      rw [← hpath] at hkept
      rcases hkept with hempty | hother
      · exact hnamed bag hbag hempty
      · exact hother (List.mem_map_of_mem (f := fun bag => rosbagRecordingId bag.path) hbag)
    · intro hkept
      refine .inr fun hid => ?_
      obtain ⟨bag, hbag, hid⟩ := List.mem_map.mp hid
      exact hkept (hunshared bag hbag row hmem hid.symm)

/-- For every content of the store and every quota: the eviction brings the store to the quota
in the way it should exactly if the bags that it has to evict have names of their own. -/
theorem evicts_to_quota_iff (st : InMemoryRosbags) (maxBytes : Nat)
    (hids : ∀ row ∈ st.rosbagFiles.rows, row.2.recordingId = rosbagRecordingId row.2.filePath)
    (hsizes : ∀ row ∈ st.rosbagFiles.rows, row.2.sizeBytes < 2 ^ 64) :
    st.EvictsToQuota maxBytes (st.evictBagsOverQuota maxBytes).1
        (st.evictBagsOverQuota maxBytes).2 ↔
      st.Evictable (overQuota maxBytes st.getTotalRosbagStorageBytes st.quotaBags) := by
  obtain ⟨hevicted, hrows⟩ :=
    st.evictBags_eq maxBytes st.getTotalRosbagStorageBytes st.quotaBags
  rw [st.evictBagsOverQuota_eq, hevicted]
  generalize (evictBags maxBytes st st.getTotalRosbagStorageBytes st.quotaBags).1 = left at hrows ⊢
  obtain ⟨rest, hsplit⟩ := overQuota_prefix maxBytes st.getTotalRosbagStorageBytes st.quotaBags
  have hbytes : ∀ bag ∈ st.quotaBags, bag.bytes < 2 ^ 64 := by
    intro bag hbag
    rw [bytes_quotaBags hbag]
    apply pathBytes_lt
    intro info hinfo
    obtain ⟨row, hrow, rfl⟩ := List.mem_map.mp hinfo
    exact hsizes row hrow
  generalize hdoomed : overQuota maxBytes st.getTotalRosbagStorageBytes st.quotaBags = doomed
    at hrows hsplit ⊢
  have hmem : ∀ bag ∈ doomed, bag ∈ st.quotaBags :=
    fun bag hbag => hsplit ▸ List.mem_append_left rest hbag
  have hexact := rows_evicted_iff hids hmem
  rw [← hrows] at hexact
  have hfits := remaining_fits_iff hdoomed hsplit total_quotaBags hbytes
  rw [← total_dropPaths hsplit.symm] at hfits
  constructor
  · rintro ⟨hwithin, hremoved, -, -⟩
    obtain ⟨hnamed, hunshared⟩ := hexact.mp hremoved
    rw [getTotalRosbagStorageBytes_congr hremoved] at hwithin
    exact ⟨hnamed, hunshared, hfits.mp hwithin⟩
  · rintro ⟨hnamed, hunshared, hcounted⟩
    have hremoved := hexact.mpr ⟨hnamed, hunshared⟩
    refine ⟨?_, hremoved, ?_, ?_⟩
    · rw [getTotalRosbagStorageBytes_congr hremoved]
      exact hfits.mpr hcounted
    · unfold InMemoryRosbags.pathsOldestFirst
      rw [← st.accounts.paths, ← hsplit, List.map_append]
      exact List.prefix_append _ _
    · intro others last hothers
      obtain ⟨bags, lasts, rfl, rfl, hlasts⟩ := List.map_eq_append_iff.mp hothers
      obtain ⟨bag, rfl, -⟩ := List.map_eq_singleton_iff.mp hlasts
      have hshorter := lt_sub_bytesOf_overQuota hdoomed
      have htotal : st.getTotalRosbagStorageBytes = _ := total_quotaBags
      rw [List.append_assoc] at hsplit
      rw [total_dropPaths hsplit.symm]
      rw [← hsplit, bytesOf_append] at htotal
      rw [bytesOf_append] at hcounted
      omega

end Quota

def quotaRows (paths : List String) : InMemoryRosbags :=
  inMemoryRosbags.exec {} (.setMaxRosbagsPerFault 0 ::
    paths.zipIdx.map fun path => .storeRosbagFile (bagOf "MOTOR" path.1 path.2))

theorem evicts_two_of_three_bags :
    let st := quotaRows ["/bags/a", "/bags/b", "/bags/c"]
    st.EvictsToQuota 1000000 (st.evictBagsOverQuota 1000000).1
      (st.evictBagsOverQuota 1000000).2 := by
  intro st
  have hids : ∀ row ∈ st.rosbagFiles.rows,
      row.2.recordingId = rosbagRecordingId row.2.filePath := by decide
  have hsizes : ∀ row ∈ st.rosbagFiles.rows, row.2.sizeBytes < 2 ^ 64 := by decide
  exact (evicts_to_quota_iff st 1000000 hids hsizes).mpr ⟨by decide, by decide, by decide⟩

/-- One bag has to go, and another one of the same name goes with it unnoticed. -/
theorem evicts_bag_of_same_name :
    let st := quotaRows ["/bags/a", "/usb/a", "/bags/c"]
    (st.evictBagsOverQuota 2000000).2 = [str "/bags/a"] ∧
      (st.evictBagsOverQuota 2000000).1.rosbagFiles.rows.map (·.2.filePath) = [str "/bags/c"] ∧
      ¬st.EvictsToQuota 2000000 (st.evictBagsOverQuota 2000000).1
        (st.evictBagsOverQuota 2000000).2 := by
  refine ⟨by decide, by decide, fun h => ?_⟩
  have hpaths := congrArg (List.map (·.2.filePath)) h.removed
  revert hpaths
  decide

end Medkit.FaultManager
