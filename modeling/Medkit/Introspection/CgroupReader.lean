import Medkit.Lib.Bytes

/-! The resource limits of a process, as its cgroup files have them. A controller is on the unified
hierarchy or on a legacy one, a hierarchy may be mounted in several places, and in each place the
cgroup of the process may be a directory below the mount or the mount itself. -/
namespace Medkit.Introspection

open Lib

/-! ## The files -/

structure LimitFile where
  present : Bool := false
  opened : Bool := false
  complete : Bool := false
  line : Str := []

inductive CgroupLimit (α : Type) where
  | limited (value : α)
  | unlimited
  | unreadable
  | unavailable
deriving DecidableEq

structure CpuLimit where
  quota : CgroupLimit Int := .unavailable
  periodUs : Option Int := none
deriving DecidableEq

/-- What the reader is given: what it finds at a path, and `std::stoull` and `std::stoll` with the
number of bytes they use. -/
structure Host where
  readLimitFile : Str → LimitFile
  stoull : Str → Option (Nat × Nat)
  stoll : Str → Option (Int × Nat)

def isBlank (c : Byte) : Bool := c = 32 || c = 9 || c = 13 || c = 10

def trim (s : Str) : Str := trimWith isBlank s

def words (line : Str) : List Str :=
  (line.splitOnP fun c => c = 32 || (9 ≤ c.val && c.val ≤ 13)).filter (· ≠ [])

section Readers

variable (host : Host)

def parseU64 (text : Str) : Option Nat :=
  if text = [] ∨ text.head? = some 45 then none
  else ((host.stoull text).filter fun result => result.2 == text.length).map Prod.fst

def parseI64 (text : Str) : Option Int :=
  if text = [] then none
  else ((host.stoll text).filter fun result => result.2 == text.length).map Prod.fst

def readMemoryV2 (dir : Str) : CgroupLimit Nat :=
  let file := host.readLimitFile (dir ++ str "/memory.max")
  if !file.present then .unavailable
  else if !file.opened || !file.complete then .unreadable
  else if trim file.line = str "max" then .unlimited
  else
    match parseU64 host (trim file.line) with
    | none => .unreadable
    | some value => .limited value

def kV1MemoryUnlimited : Nat := 2 ^ 62

def readMemoryV1 (dir : Str) : CgroupLimit Nat :=
  let file := host.readLimitFile (dir ++ str "/memory.limit_in_bytes")
  if !file.present then .unavailable
  else if !file.opened || !file.complete then .unreadable
  else
    match parseU64 host (trim file.line) with
    | none => .unreadable
    | some value => if kV1MemoryUnlimited ≤ value then .unlimited else .limited value

def CpuLimit.unreadable : CpuLimit := { quota := .unreadable }

def readCpuV2 (dir : Str) : CpuLimit :=
  let file := host.readLimitFile (dir ++ str "/cpu.max")
  if !file.present then {}
  else if !file.opened || !file.complete then .unreadable
  else
    match words file.line with
    | [quotaText, periodText] =>
        match (parseI64 host periodText).filter (0 < ·) with
        | none => .unreadable
        | some period =>
            if quotaText = str "max" then ⟨.unlimited, some period⟩
            else
              match (parseI64 host quotaText).filter (0 < ·) with
              | none => .unreadable
              | some quota => ⟨.limited quota, some period⟩
    | _ => .unreadable

def readCpuV1 (dir : Str) : CpuLimit :=
  let quotaFile := host.readLimitFile (dir ++ str "/cpu.cfs_quota_us")
  let periodFile := host.readLimitFile (dir ++ str "/cpu.cfs_period_us")
  if !quotaFile.present && !periodFile.present then {}
  else
    let period :=
      if periodFile.opened && periodFile.complete then
        (parseI64 host (trim periodFile.line)).filter (0 < ·)
      else none
    match period with
    | none => .unreadable
    | some period =>
        if !quotaFile.opened || !quotaFile.complete then .unreadable
        else
          match parseI64 host (trim quotaFile.line) with
          | none => .unreadable
          | some quota =>
              if quota = -1 then ⟨.unlimited, some period⟩
              else if quota ≤ 0 then .unreadable
              else ⟨.limited quota, some period⟩

end Readers

/-! ## The directories -/

structure CgroupPaths where
  unified : Str := []
  v1 : List (Str × Str) := []

structure CgroupMount where
  mountPoint : Str
  mountRoot : Str
  options : Str
  unified : Bool

/-- The candidates that one mount gives: the directories that name the cgroup of the process, and
the root of the mount, which is tried after them. -/
structure Place where
  own : List Str
  root : Str

def Place.dirs (place : Place) : List Str := place.own ++ [place.root]

def controllerPath (paths : CgroupPaths) (controller : Str) : Option Str :=
  (paths.v1.find? fun entry => entry.1 = controller).map Prod.snd

def candidateDirs (cgroupPath mount : Str) : Place where
  own := if cgroupPath ≠ [] ∧ cgroupPath ≠ str "/" then [mount ++ cgroupPath] else []
  root := mount

def stripSlashes : Str → Str
  | [] => []
  | c :: s => c :: (s.reverse.dropWhile (· = 47)).reverse

/-- `append_mount_dirs`. -/
def mountDirs (cgroupPath : Str) (mount : CgroupMount) : Place where
  own :=
    let mountRoot := stripSlashes mount.mountRoot
    let relative := cgroupPath.drop mountRoot.length
    (if mountRoot ≠ str "/" ∧ mountRoot ≠ [] ∧ mountRoot <+: cgroupPath ∧
        (relative = [] ∨ relative.head? = some 47) then [mount.mountPoint ++ relative] else []) ++
      if cgroupPath ≠ [] ∧ cgroupPath ≠ str "/" then [mount.mountPoint ++ cgroupPath] else []
  root := mount.mountPoint

def mountCarriesController (controller : Str) (mount : CgroupMount) : Bool :=
  decide (controller ∈ mount.options.splitOn 44)

def unifiedMounts (root : Str) : List Str :=
  [root ++ str "/sys/fs/cgroup", root ++ str "/sys/fs/cgroup/unified"]

def v1Mounts (root controller : Str) : List Str :=
  (root ++ str "/sys/fs/cgroup/" ++ controller) ::
    if controller = str "cpu" then [root ++ str "/sys/fs/cgroup/cpu,cpuacct"] else []

section Places

variable (root : Str) (mounts : List CgroupMount)

def unifiedPlaces (paths : CgroupPaths) : List Place :=
  if paths.unified = [] then []
  else (unifiedMounts root).map (candidateDirs paths.unified) ++
    (mounts.filter fun mount => mount.unified).map (mountDirs paths.unified)

def legacyPlaces (paths : CgroupPaths) (controller : Str) : List Place :=
  match controllerPath paths controller with
  | none => []
  | some path =>
      (v1Mounts root controller).map (candidateDirs path) ++
        (mounts.filter fun mount => !mount.unified && mountCarriesController controller mount).map
          (mountDirs path)

end Places

/-! ## The choice -/

section Choice

variable {β : Type} (missing : β → Bool)

def betterOf (first second : β) : β := if missing first then second else first

def bestOf (start : β) (read : Str → β) (places : List Place) : β :=
  (places.flatMap Place.dirs).foldl (fun best dir => betterOf missing best (read dir)) start

def ownedBy (legacyOwns : Bool) (unified legacy : β) : β :=
  let owner := if legacyOwns then legacy else unified
  let other := if legacyOwns then unified else legacy
  if missing owner then other else owner

end Choice

def CgroupLimit.missing {α : Type} : CgroupLimit α → Bool
  | .unavailable => true
  | _ => false

def CpuLimit.missing (limit : CpuLimit) : Bool := limit.quota.missing

structure CgroupInfo where
  memoryLimit : CgroupLimit Nat
  cpu : CpuLimit
deriving DecidableEq

/-- The limits of `read_cgroup_info`. The path that it reports is empty only if the process has no
cgroup line at all. -/
def readCgroupInfo (host : Host) (pid root : Str) (paths : CgroupPaths)
    (mounts : List CgroupMount) : Except Str CgroupInfo :=
  if paths.unified = [] ∧ paths.v1 = [] then .error (str "Cannot read cgroup for PID " ++ pid)
  else
    let unified := unifiedPlaces root mounts paths
    .ok
      { memoryLimit := ownedBy CgroupLimit.missing (controllerPath paths (str "memory")).isSome
          (bestOf CgroupLimit.missing .unavailable (readMemoryV2 host) unified)
          (bestOf CgroupLimit.missing .unavailable (readMemoryV1 host)
            (legacyPlaces root mounts paths (str "memory")))
        cpu := ownedBy CpuLimit.missing (controllerPath paths (str "cpu")).isSome
          (bestOf CpuLimit.missing {} (readCpuV2 host) unified)
          (bestOf CpuLimit.missing {} (readCpuV1 host)
            (legacyPlaces root mounts paths (str "cpu"))) }

/-! ## What is taken -/

/-- The candidates in their order; the flag tells those that name the cgroup of the process. -/
def candidates (places : List Place) : List (Str × Bool) :=
  places.flatMap fun place => place.own.map (·, true) ++ [(place.root, false)]

def taken (hasFile : Str → Bool) (places : List Place) : Option (Str × Bool) :=
  (candidates places).find? fun candidate => hasFile candidate.1

theorem candidates_fst (places : List Place) :
    (candidates places).map Prod.fst = places.flatMap Place.dirs := by
  simp only [candidates, List.map_flatMap, List.map_append, List.map_map, List.map_singleton,
    Function.comp_def, List.map_id']
  rfl

section Choice

variable {β : Type} {missing : β → Bool} {start : β} {read : Str → β}

theorem foldl_betterOf {dirs : List Str} {best : β} {dir : Str} (hbest : missing best = true)
    (h : dirs.find? (fun dir => !missing (read dir)) = some dir) :
    dirs.foldl (fun best dir => betterOf missing best (read dir)) best = read dir := by
  have hkept : ∀ (dirs : List Str) (found : β), missing found = false →
      dirs.foldl (fun best dir => betterOf missing best (read dir)) found = found := by
    intro dirs found hfound
    induction dirs with
    | nil => rfl
    | cons _ dirs ih => simpa [betterOf, hfound] using ih
  induction dirs generalizing best with
  | nil => cases h
  | cons first dirs ih =>
    rw [List.foldl_cons, betterOf, if_pos hbest]
    cases hfirst : missing (read first) with
    | true =>
      rw [List.find?_cons_of_neg (by simp [hfirst])] at h
      exact ih hfirst h
    | false =>
      rw [List.find?_cons_of_pos (by simp [hfirst])] at h
      cases h
      exact hkept dirs _ hfirst

theorem bestOf_of_taken {places : List Place} {candidate : Str × Bool}
    (hstart : missing start = true)
    (h : taken (fun dir => !missing (read dir)) places = some candidate) :
    bestOf missing start read places = read candidate.1 := by
  refine foldl_betterOf hstart ?_
  rw [← candidates_fst, List.find?_map]
  exact congrArg (Option.map Prod.fst) h

theorem not_missing_of_taken {places : List Place} {candidate : Str × Bool}
    (h : taken (fun dir => !missing (read dir)) places = some candidate) :
    missing (read candidate.1) = false := by
  simpa using List.find?_some h

end Choice

section Owner

variable (root : Str) (mounts : List CgroupMount) (paths : CgroupPaths) (controller : Str)

def ownerPlaces : List Place :=
  if (controllerPath paths controller).isSome then legacyPlaces root mounts paths controller
  else unifiedPlaces root mounts paths

def ownerOf {γ : Type} (unified legacy : γ) : γ :=
  if (controllerPath paths controller).isSome then legacy else unified

variable {root mounts paths controller} {β : Type} {missing : β → Bool} {start : β}

theorem exists_taken {readV2 readV1 : Str → β} {file : Str → Bool} (hstart : missing start = true)
    (hfile : ∀ dir, (!missing (ownerOf paths controller readV2 readV1 dir)) = file dir)
    (hex : ∃ candidate ∈ candidates (ownerPlaces root mounts paths controller),
      file candidate.1 = true) :
    ∃ candidate, taken file (ownerPlaces root mounts paths controller) = some candidate ∧
      ownedBy missing (controllerPath paths controller).isSome
          (bestOf missing start readV2 (unifiedPlaces root mounts paths))
          (bestOf missing start readV1 (legacyPlaces root mounts paths controller)) =
        ownerOf paths controller readV2 readV1 candidate.1 := by
  obtain ⟨candidate, h⟩ := Option.isSome_iff_exists.mp (List.find?_isSome.mpr hex)
  refine ⟨candidate, h, ?_⟩
  rw [← funext hfile] at h
  have hbest := bestOf_of_taken hstart h
  have hfound := not_missing_of_taken h
  revert h hbest hfound
  unfold ownerOf ownerPlaces ownedBy
  cases (controllerPath paths controller).isSome
  all_goals
    intro _ hbest hfound
    simp only [Bool.false_eq_true, if_true, if_false] at hbest hfound ⊢
    rw [hbest, if_neg (by simp [hfound])]

end Owner

/-! ## The order of the candidates -/

section Order

variable {hasFile : Str → Bool} {places : List Place}

/-- A mount root is taken only if no directory that names the cgroup of the process has the file. -/
def OwnFirst (hasFile : Str → Bool) (places : List Place) : Prop :=
  ∀ dir, taken hasFile places = some (dir, false) →
    ∀ place ∈ places, ∀ own ∈ place.own, hasFile own = false

/-- No root of a mount has the file where none of the mounts up to it, but a later one, has it in a
directory that names the cgroup of the process. -/
def RootsLast (hasFile : Str → Bool) (places : List Place) : Prop :=
  ∀ before place after, places = before ++ place :: after → hasFile place.root = true →
    (∀ other ∈ before ++ [place], ∀ own ∈ other.own, hasFile own = false) →
    ∀ other ∈ after, ∀ own ∈ other.own, hasFile own = false

theorem taken_cons (place : Place) (places : List Place)
    (hown : ∀ own ∈ place.own, hasFile own = false) :
    taken hasFile (place :: places) =
      if hasFile place.root then some (place.root, false) else taken hasFile places := by
  have hnone : (place.own.map (·, true)).find? (fun candidate => hasFile candidate.1) = none := by
    simpa using hown
  rw [taken, candidates, List.flatMap_cons, List.find?_append, List.find?_append, hnone]
  cases hroot : hasFile place.root with
  | true => simp [hroot]
  | false => simp [hroot, taken, candidates]

theorem own_of_taken_root {place : Place} {dir : Str}
    (h : taken hasFile (place :: places) = some (dir, false)) :
    ∀ own ∈ place.own, hasFile own = false := by
  by_contra! hex
  obtain ⟨own, hown, hfile⟩ := hex
  have hsome : ((place.own.map (·, true)).find? fun candidate => hasFile candidate.1).isSome := by
    simpa using ⟨own, hown, by simpa using hfile⟩
  obtain ⟨found, hfound⟩ := Option.isSome_iff_exists.mp hsome
  rw [taken, candidates, List.flatMap_cons, List.append_assoc, List.find?_append, hfound] at h
  obtain ⟨other, -, rfl⟩ := List.mem_map.mp (List.mem_of_find?_eq_some hfound)
  cases h

theorem split_of_taken_root {dir : Str} (h : taken hasFile places = some (dir, false)) :
    ∃ before place after, places = before ++ place :: after ∧ hasFile place.root = true ∧
      ∀ other ∈ before ++ [place], ∀ own ∈ other.own, hasFile own = false := by
  induction places with
  | nil => cases h
  | cons place places ih =>
    have hown := own_of_taken_root h
    rw [taken_cons place places hown] at h
    by_cases hroot : hasFile place.root = true
    · exact ⟨[], place, places, rfl, hroot, by simpa using hown⟩
    · rw [if_neg hroot] at h
      obtain ⟨before, other, after, rfl, hother, hall⟩ := ih h
      exact ⟨place :: before, other, after, rfl, hother, List.forall_mem_cons.mpr ⟨hown, hall⟩⟩

theorem taken_root_of_split {before after : List Place} {place : Place}
    (hroot : hasFile place.root = true)
    (hown : ∀ other ∈ before ++ [place], ∀ own ∈ other.own, hasFile own = false) :
    ∃ dir, taken hasFile (before ++ place :: after) = some (dir, false) := by
  induction before with
  | nil =>
    rw [List.nil_append, taken_cons place after (hown place (by simp)), if_pos hroot]
    exact ⟨_, rfl⟩
  | cons first before ih =>
    obtain ⟨hfirst, hrest⟩ := List.forall_mem_cons.mp hown
    rw [List.cons_append, taken_cons first _ hfirst]
    split
    · exact ⟨_, rfl⟩
    · exact ih hrest

theorem ownFirst_iff : OwnFirst hasFile places ↔ RootsLast hasFile places := by
  constructor
  · rintro h before place after rfl hroot hown other hother
    obtain ⟨dir, htaken⟩ := taken_root_of_split hroot hown
    exact h dir htaken other (List.mem_append_right _ (List.mem_cons_of_mem _ hother))
  · intro h dir htaken other hother
    obtain ⟨before, place, after, rfl, hroot, hown⟩ := split_of_taken_root htaken
    rw [List.append_cons, List.mem_append] at hother
    rcases hother with hother | hother
    · exact hown other hother
    · exact h before place after rfl hroot hown other hother

end Order

/-! ## The limits -/

section Limits

variable (host : Host) (paths : CgroupPaths)

def memoryFile (dir : Str) : Bool :=
  ownerOf paths (str "memory")
    (host.readLimitFile (dir ++ str "/memory.max")).present
    (host.readLimitFile (dir ++ str "/memory.limit_in_bytes")).present

def cpuFile (dir : Str) : Bool :=
  ownerOf paths (str "cpu")
    (host.readLimitFile (dir ++ str "/cpu.max")).present
    ((host.readLimitFile (dir ++ str "/cpu.cfs_quota_us")).present ||
      (host.readLimitFile (dir ++ str "/cpu.cfs_period_us")).present)

def readMemory : Str → CgroupLimit Nat :=
  ownerOf paths (str "memory") (readMemoryV2 host) (readMemoryV1 host)

def readCpu : Str → CpuLimit := ownerOf paths (str "cpu") (readCpuV2 host) (readCpuV1 host)

theorem missing_readMemory (dir : Str) :
    (!(readMemory host paths dir).missing) = memoryFile host paths dir := by
  unfold readMemory memoryFile ownerOf
  split
  · cases hpresent : (host.readLimitFile (dir ++ str "/memory.limit_in_bytes")).present with
    | false => simp [readMemoryV1, hpresent, CgroupLimit.missing]
    | true =>
      simp only [readMemoryV1, hpresent]
      grind [CgroupLimit.missing]
  · cases hpresent : (host.readLimitFile (dir ++ str "/memory.max")).present with
    | false => simp [readMemoryV2, hpresent, CgroupLimit.missing]
    | true =>
      simp only [readMemoryV2, hpresent]
      grind [CgroupLimit.missing]

theorem missing_readCpu (dir : Str) :
    (!(readCpu host paths dir).missing) = cpuFile host paths dir := by
  unfold readCpu cpuFile ownerOf
  split
  · cases hpresent : (host.readLimitFile (dir ++ str "/cpu.cfs_quota_us")).present ||
      (host.readLimitFile (dir ++ str "/cpu.cfs_period_us")).present with
    | false =>
      rw [Bool.or_eq_false_iff] at hpresent
      simp [readCpuV1, hpresent, CpuLimit.missing, CgroupLimit.missing]
    | true =>
      simp only [readCpuV1]
      grind [CpuLimit.missing, CgroupLimit.missing, CpuLimit.unreadable]
  · cases hpresent : (host.readLimitFile (dir ++ str "/cpu.max")).present with
    | false => simp [readCpuV2, hpresent, CpuLimit.missing, CgroupLimit.missing]
    | true =>
      simp only [readCpuV2, hpresent]
      grind [CpuLimit.missing, CgroupLimit.missing, CpuLimit.unreadable]

end Limits

/-- Each limit is what the first candidate with the file in the hierarchy of the controller says,
also if it cannot be read. It comes from a mount root in spite of a directory that names the cgroup
of the process unless `RootsLast` holds. -/
theorem cgroup_limits_from_owner (host : Host) (pid root : Str) (paths : CgroupPaths)
    (mounts : List CgroupMount) (info : CgroupInfo)
    (h : readCgroupInfo host pid root paths mounts = .ok info) :
    let memoryPlaces := ownerPlaces root mounts paths (str "memory")
    let cpuPlaces := ownerPlaces root mounts paths (str "cpu")
    ((∃ candidate ∈ candidates memoryPlaces, memoryFile host paths candidate.1 = true) →
        ∃ candidate, taken (memoryFile host paths) memoryPlaces = some candidate ∧
          info.memoryLimit = readMemory host paths candidate.1) ∧
      ((∃ candidate ∈ candidates cpuPlaces, cpuFile host paths candidate.1 = true) →
        ∃ candidate, taken (cpuFile host paths) cpuPlaces = some candidate ∧
          info.cpu = readCpu host paths candidate.1) ∧
      ((OwnFirst (memoryFile host paths) memoryPlaces ∧ OwnFirst (cpuFile host paths) cpuPlaces) ↔
        RootsLast (memoryFile host paths) memoryPlaces ∧
          RootsLast (cpuFile host paths) cpuPlaces) := by
  unfold readCgroupInfo at h
  split at h
  · cases h
  · cases h
    exact ⟨exists_taken rfl (missing_readMemory host paths),
      exists_taken rfl (missing_readCpu host paths), and_congr ownFirst_iff ownFirst_iff⟩

/-- A host with two memory files: one at the conventional mount, which says `max`, and one that
cannot be parsed in the directory of the process below another mount. -/
def twoFilesHost : Host where
  readLimitFile path :=
    if path = str "/sys/fs/cgroup/memory.max" then ⟨true, true, true, str "max"⟩
    else if path = str "/m/a/memory.max" then ⟨true, true, true, str "?"⟩
    else {}
  stoull _ := none
  stoll _ := none

def otherMount : CgroupMount := ⟨str "/m", str "/", str "rw", true⟩

theorem cgroup_limits_from_owner_of_root :
    let paths : CgroupPaths := { unified := str "/a" }
    readCgroupInfo twoFilesHost (str "1") [] paths [] = .ok ⟨.unlimited, {}⟩ ∧
      ∃ candidate,
        taken (memoryFile twoFilesHost paths) (ownerPlaces [] [] paths (str "memory")) =
          some candidate ∧
        .unlimited = readMemory twoFilesHost paths candidate.1 := by
  intro paths
  have hread : readCgroupInfo twoFilesHost (str "1") [] paths [] = .ok ⟨.unlimited, {}⟩ := by
    decide
  refine ⟨hread, (cgroup_limits_from_owner _ _ _ _ _ _ hread).1 ?_⟩
  exact ⟨(str "/sys/fs/cgroup", false), by decide, by decide⟩

theorem mount_root_before_own_directory :
    let paths : CgroupPaths := { unified := str "/a" }
    readCgroupInfo twoFilesHost (str "1") [] paths [otherMount] = .ok ⟨.unlimited, {}⟩ ∧
      (str "/m/a", true) ∈ candidates (ownerPlaces [] [otherMount] paths (str "memory")) ∧
      readMemory twoFilesHost paths (str "/m/a") = .unreadable := by
  decide

end Medkit.Introspection
