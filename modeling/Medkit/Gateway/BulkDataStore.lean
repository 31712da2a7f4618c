import Medkit.Lib.Bytes
import Medkit.Lib.Machine
import Medkit.Lib.OrderedMap

/-! Uploaded files: each item has a directory of its own, with the payload under the client's file
name next to a descriptor. The file system is a map from item directories to their files; the texts
of descriptors are written and read by a library. -/
namespace Medkit.Gateway.BulkData

open Lib Std

structure ItemDescriptor where
  id : Str
  category : Str := []
  name : Str := []
  mimeType : Str := []
  size : Nat := 0
  created : Str := []
  description : Str := []
  metadata : Str := []
deriving DecidableEq

/-- The text of a descriptor, if the library does not throw, and what is read from a text. -/
structure Format where
  dump : ItemDescriptor → Option Str
  parse : Str → Option ItemDescriptor
  id_parse : ∀ desc text, dump desc = some text → ∃ read, parse text = some read ∧ read.id = desc.id
  parse_nil : parse [] = none

structure Config where
  maxUploadBytes : Nat := 0
  categories : OSet Str

/-- The files of the item directories, each under entity, category and item. -/
abbrev FileSystem := OMap (List Str) (OMap Str Str)

/-! ## Calls -/

def validatePathComponent (value name : Str) : Option Str :=
  if value = [] then some (name ++ str " cannot be empty")
  else if str ".." <:+: value then some (name ++ str " contains invalid sequence '..'")
  else if 47 ∈ value ∨ 92 ∈ value then some (name ++ str " contains path separator")
  else if 0 ∈ value then some (name ++ str " contains null byte")
  else if value = str "." then some (name ++ str " cannot be '.'")
  else none

structure Faults where
  message : Str := []
  createDirectories : Bool := false
  openTemp : Bool := false
  /-- the bytes that were written before the failure -/
  writeTemp : Option Nat := none
  rename : Bool := false
  copyFile : Bool := false
  openDescriptor : Bool := false
  writeDescriptor : Bool := false

structure StoreCall where
  entityId : Str
  category : Str
  filename : Str
  contentType : Str := []
  data : Str
  description : Str := []
  metadata : Str := []
  /-- the id that is generated -/
  id : Str
  /-- the time of the call, formatted -/
  created : Str := []
  faults : Faults := {}

def StoreCall.dir (call : StoreCall) : List Str := [call.entityId, call.category, call.id]

def dataTmp : Str := str ".data.tmp"

def descriptorJson : Str := str "descriptor.json"

/-- The base name that the client gave. -/
def safeFilename (filename : Str) : Str :=
  let name := lastSegment filename
  if name = [] then str "upload" else name

/-- The name of the payload in the directory; the system reads it up to the first NUL. -/
def StoreCall.target (call : StoreCall) : Str := cString (safeFilename call.filename)

def StoreCall.descriptor (call : StoreCall) : ItemDescriptor where
  id := call.id
  category := call.category
  name := safeFilename call.filename
  mimeType := if call.contentType = [] then str "application/octet-stream" else call.contentType
  size := call.data.length
  created := call.created
  description := call.description
  metadata := call.metadata

inductive Outcome
  | stored (desc : ItemDescriptor)
  | removed
  | failed (error : Str)
  | thrown
deriving DecidableEq

/-- The names under which a directory has itself and its parent. -/
def directoryNames : List Str := [[], str ".", str ".."]

def finalize (call : StoreCall) (files : OMap Str Str) : Option (OMap Str Str) :=
  if !call.faults.rename && call.target ∉ directoryNames then
    some ((files.erase dataTmp).insert call.target call.data)
  else if call.faults.copyFile || call.target ∈ directoryNames || call.target ∈ files then none
  else some ((files.insert call.target call.data).erase dataTmp)

def writeDescriptor (format : Format) (call : StoreCall) (fs : FileSystem) (files : OMap Str Str) :
    FileSystem × Outcome :=
  if call.faults.openDescriptor then
    (fs.erase call.dir, .failed (str "Failed to write descriptor"))
  else
    match format.dump call.descriptor with
    | none => (fs.insert call.dir (files.insert descriptorJson []), .thrown)
    | some text =>
        if call.faults.writeDescriptor then
          (fs.erase call.dir, .failed (str "Failed to write descriptor"))
        else (fs.insert call.dir (files.insert descriptorJson text), .stored call.descriptor)

def writeItem (format : Format) (fs : FileSystem) (call : StoreCall) : FileSystem × Outcome :=
  let files := fs[call.dir]?.getD ∅
  if call.faults.createDirectories then
    (fs, .failed (str "Failed to create directory: " ++ call.faults.message))
  else if call.faults.openTemp then
    (fs.insert call.dir files, .failed (str "Failed to open temp file for writing"))
  else
    match call.faults.writeTemp with
    | some written =>
        (fs.insert call.dir (files.insert dataTmp (call.data.take written)),
          .failed (str "Failed to write payload data"))
    | none =>
        match finalize call (files.insert dataTmp call.data) with
        | none =>
            (fs.insert call.dir ((files.insert dataTmp call.data).erase dataTmp),
              .failed (str "Failed to finalize file: " ++ call.faults.message))
        | some files => writeDescriptor format call fs files

def refusal (config : Config) (call : StoreCall) : Option Str :=
  (validatePathComponent call.entityId (str "entity_id")).or <|
  (validatePathComponent call.category (str "category")).or <|
  if call.category ∉ config.categories then some (str "Unknown category: " ++ call.category)
  else if 0 < config.maxUploadBytes ∧ config.maxUploadBytes < call.data.length then
    some (str "File size " ++ decimal call.data.length ++ str " exceeds maximum upload limit " ++
      decimal config.maxUploadBytes)
  else none

def store (config : Config) (format : Format) (fs : FileSystem) (call : StoreCall) :
    FileSystem × Outcome :=
  match refusal config call with
  | some error => (fs, .failed error)
  | none => writeItem format fs call

def remove (fs : FileSystem) (entityId category itemId : Str) : FileSystem × Outcome :=
  match (validatePathComponent entityId (str "entity_id")).or <|
      (validatePathComponent category (str "category")).or <|
      validatePathComponent itemId (str "item_id") with
  | some error => (fs, .failed error)
  | none =>
      if [entityId, category, itemId] ∈ fs then (fs.erase [entityId, category, itemId], .removed)
      else (fs, .failed (str "Bulk-data item not found: " ++ itemId))

/-! ## Queries -/

def readDescriptor (format : Format) (files : OMap Str Str) : Option ItemDescriptor :=
  files[descriptorJson]?.bind format.parse

def listItems (format : Format) (fs : FileSystem) (entityId category : Str) :
    List ItemDescriptor :=
  fs.toList.filterMap fun entry =>
    if entry.1.dropLast = [entityId, category] then readDescriptor format entry.2 else none

/-- The payload is the file that is neither the descriptor nor the temporary one. -/
def getFilePath (fs : FileSystem) (entityId category itemId : Str) : Option (List Str) := do
  let files ← fs[[entityId, category, itemId]]?
  let file ← files.toList.find? fun file => file.1 ≠ descriptorJson && file.1 ≠ dataTmp
  return [entityId, category, itemId, file.1]

def contentAt (fs : FileSystem) (path : List Str) : Option Str := do
  let name ← path.getLast?
  let files ← fs[path.dropLast]?
  files[name]?

/-! ## Runs -/

inductive Call
  | store (call : StoreCall)
  | remove (entityId category itemId : Str)

def Call.dir : Call → List Str
  | .store call => call.dir
  | .remove entityId category itemId => [entityId, category, itemId]

def storeMachine (config : Config) (format : Format) : Machine FileSystem Call Outcome where
  init := ∅
  step fs
    | .store call => store config format fs call
    | .remove entityId category itemId => remove fs entityId category itemId

/-- The id of a store is new, and the payload's name is not one that the store uses itself. -/
def Call.Plain (fs : FileSystem) : Call → Prop
  | .store call => call.dir ∉ fs ∧ call.target ≠ descriptorJson ∧ call.target ≠ dataTmp
  | .remove _ _ _ => True

instance decidablePlain (fs : FileSystem) : ∀ op : Call, Decidable (op.Plain fs)
  | .store _ => inferInstanceAs (Decidable (_ ∧ _ ∧ _))
  | .remove _ _ _ => isTrue trivial

section Steps

variable {config : Config} {format : Format} {fs : FileSystem} {call : StoreCall}

variable {dir : List Str} {op : Call} {files : OMap Str Str}

theorem getElem?_store (hdir : call.dir ≠ dir) :
    (store config format fs call).1[dir]? = fs[dir]? := by
  have hdescriptor : ∀ files, (writeDescriptor format call fs files).1[dir]? = fs[dir]? := by
    intro files
    unfold writeDescriptor
    (repeat' split) <;> first
      | exact OMap.getElem?_erase_of_ne hdir
      | exact OMap.getElem?_insert_of_ne hdir _
  unfold store writeItem
  dsimp only
  (repeat' split) <;> first
    | rfl
    | exact OMap.getElem?_insert_of_ne hdir _
    | exact hdescriptor _

theorem getElem?_step (hdir : op.dir ≠ dir) :
    ((storeMachine config format).step fs op).1[dir]? = fs[dir]? := by
  cases op with
  | store call => exact getElem?_store hdir
  | remove entityId category itemId =>
    simp only [storeMachine, remove]
    split
    · rfl
    · split
      · exact OMap.getElem?_erase_of_ne hdir
      · rfl

theorem finalize_spec (htarget : call.target ≠ dataTmp)
    (h : finalize call ((∅ : OMap Str Str).insert dataTmp call.data) = some files) :
    files[call.target]? = some call.data ∧ ∀ name, name ≠ call.target → files[name]? = none := by
  have htmp : ∀ name, name ≠ dataTmp →
      ((∅ : OMap Str Str).insert dataTmp call.data)[name]? = none :=
    fun name hname => (OMap.getElem?_insert_of_ne hname.symm _).trans ExtTreeMap.getElem?_empty
  unfold finalize at h
  split at h
  · obtain rfl := Option.some.inj h
    refine ⟨ExtTreeMap.getElem?_insert_self, fun name hname => ?_⟩
    rw [OMap.getElem?_insert_of_ne hname.symm]
    by_cases hother : name = dataTmp
    · rw [hother, ExtTreeMap.getElem?_erase_self]
    · rw [OMap.getElem?_erase_of_ne (Ne.symm hother), htmp name hother]
  · split at h
    · cases h
    · obtain rfl := Option.some.inj h
      refine ⟨?_, fun name hname => ?_⟩
      · rw [OMap.getElem?_erase_of_ne htarget.symm, ExtTreeMap.getElem?_insert_self]
      · by_cases hother : name = dataTmp
        · rw [hother, ExtTreeMap.getElem?_erase_self]
        · rw [OMap.getElem?_erase_of_ne (Ne.symm hother), OMap.getElem?_insert_of_ne hname.symm,
            htmp name hother]

/-- The files of an item: the payload is the only one besides the descriptor, which can be read and
names the item. -/
def Complete (format : Format) (id data : Str) (files : OMap Str Str) : Prop :=
  ∃ name, files[name]? = some data ∧ (name ≠ descriptorJson ∧ name ≠ dataTmp) ∧
    (∀ other, other ≠ name → other ≠ descriptorJson → files[other]? = none) ∧
    ∃ desc, readDescriptor format files = some desc ∧ desc.id = id

/-- What a store leaves in its directory: no descriptor that names another item, and if it
succeeds the files of the item. -/
def Leaves (format : Format) (call : StoreCall) (result : FileSystem × Outcome) : Prop :=
  (∀ files desc, result.1[call.dir]? = some files → readDescriptor format files = some desc →
    desc.id = call.id) ∧
  ∀ desc, result.2 = .stored desc →
    desc = call.descriptor ∧ ∃ files, result.1[call.dir]? = some files ∧
      Complete format call.id call.data files

theorem leaves_of_failed {fs' : FileSystem} {outcome : Outcome}
    (hfiles : ∀ files, fs'[call.dir]? = some files → readDescriptor format files = none)
    (hfailed : ∀ desc, outcome ≠ .stored desc) : Leaves format call (fs', outcome) := by
  refine ⟨fun files desc hget hread => ?_, fun desc hstored => absurd hstored (hfailed desc)⟩
  rw [hfiles files hget] at hread
  cases hread

theorem leaves_insert {outcome : Outcome} (hfiles : readDescriptor format files = none)
    (hfailed : ∀ desc, outcome ≠ .stored desc) :
    Leaves format call (fs.insert call.dir files, outcome) := by
  refine leaves_of_failed (fun files' hget => ?_) hfailed
  rw [ExtTreeMap.getElem?_insert_self] at hget
  rw [← Option.some.inj hget, hfiles]

theorem leaves_writeDescriptor (htarget : call.target ≠ descriptorJson ∧ call.target ≠ dataTmp)
    (hpayload : files[call.target]? = some call.data)
    (honly : ∀ name, name ≠ call.target → files[name]? = none) :
    Leaves format call (writeDescriptor format call fs files) := by
  have herased : ∀ error, Leaves format call (fs.erase call.dir, .failed error) := fun error =>
    leaves_of_failed (fun files hget => by simp at hget) (by simp)
  unfold writeDescriptor
  split
  · exact herased _
  · split
    · exact leaves_insert (by simp [readDescriptor, format.parse_nil]) (by simp)
    · rename_i text hdump
      split
      · exact herased _
      · obtain ⟨read, hparse, hid⟩ := format.id_parse _ _ hdump
        have hread : readDescriptor format (files.insert descriptorJson text) = some read := by
          simp [readDescriptor, hparse]
        refine ⟨fun files' desc hget hdesc => ?_, fun desc hstored => ?_⟩
        · rw [ExtTreeMap.getElem?_insert_self] at hget
          rw [← Option.some.inj hget, hread] at hdesc
          rw [← Option.some.inj hdesc, hid]
          rfl
        · refine ⟨(Outcome.stored.inj hstored).symm, _, ExtTreeMap.getElem?_insert_self, ?_⟩
          refine ⟨call.target, ?_, htarget, fun other hother hdescriptor => ?_, read, hread, hid⟩
          · rw [OMap.getElem?_insert_of_ne htarget.1.symm, hpayload]
          · rw [OMap.getElem?_insert_of_ne hdescriptor.symm, honly other hother]

theorem leaves_store (hplain : (Call.store call).Plain fs) :
    Leaves format call (store config format fs call) := by
  obtain ⟨hnew, htarget⟩ := hplain
  have hnone : fs[call.dir]? = none := ExtTreeMap.getElem?_eq_none hnew
  have hne : dataTmp ≠ descriptorJson := by decide
  unfold store writeItem
  rw [hnone, Option.getD_none]
  split
  · exact leaves_of_failed (by simp [hnone]) (by simp)
  · dsimp only
    split
    · exact leaves_of_failed (by simp [hnone]) (by simp)
    · split
      · exact leaves_insert (by simp [readDescriptor]) (by simp)
      · split
        · exact leaves_insert (by simp [readDescriptor, OMap.getElem?_insert_of_ne hne]) (by simp)
        · split
          · refine leaves_insert ?_ (by simp)
            rw [readDescriptor, OMap.getElem?_erase_of_ne hne, OMap.getElem?_insert_of_ne hne]
            simp
          · rename_i files hfinal
            obtain ⟨hpayload, honly⟩ := finalize_spec htarget.2 hfinal
            exact leaves_writeDescriptor htarget hpayload honly

def Readable (format : Format) (fs : FileSystem) : Prop :=
  ∀ (dir : List Str) files desc, fs[dir]? = some files →
    readDescriptor format files = some desc → dir.getLast? = some desc.id

theorem readable_step (hplain : op.Plain fs) (h : Readable format fs) :
    Readable format ((storeMachine config format).step fs op).1 := by
  intro dir files desc hget hread
  by_cases hdir : op.dir = dir
  · cases op with
    | store call =>
      subst hdir
      rw [(leaves_store hplain).1 files desc hget hread]
      rfl
    | remove entityId category itemId =>
      refine h dir files desc ?_ hread
      simp only [storeMachine, remove] at hget
      split at hget
      · exact hget
      · split at hget
        · rw [← hdir, Call.dir, ExtTreeMap.getElem?_erase_self] at hget
          cases hget
        · exact hget
  · rw [getElem?_step hdir] at hget
    exact h dir files desc hget hread

def Held (format : Format) (dir : List Str) (id data : Str) (fs : FileSystem) : Prop :=
  ∃ files, fs[dir]? = some files ∧ Complete format id data files

theorem held_step {id data : Str} (hplain : op.Plain fs)
    (hkept : ∀ entityId category itemId, op = .remove entityId category itemId →
      [entityId, category, itemId] = dir → ((storeMachine config format).step fs op).2 ≠ .removed)
    (h : Held format dir id data fs) :
    Held format dir id data ((storeMachine config format).step fs op).1 := by
  obtain ⟨files, hget, hcomplete⟩ := h
  refine ⟨files, ?_, hcomplete⟩
  by_cases hdir : op.dir = dir
  · cases op with
    | store call =>
      rw [← hdir, Call.dir, ExtTreeMap.getElem?_eq_none hplain.1] at hget
      cases hget
    | remove entityId category itemId =>
      have hkept := hkept entityId category itemId rfl hdir
      simp only [storeMachine, remove] at hkept ⊢
      split
      · exact hget
      · rename_i hvalid
        rw [hvalid] at hkept
        dsimp only at hkept
        split
        · rename_i hmem
          rw [if_pos hmem] at hkept
          exact absurd rfl hkept
        · exact hget
  · rw [getElem?_step hdir, hget]

/-! ## What the queries say of a held item -/

theorem getFilePath_of_held {entityId category id data : Str}
    (h : Held format [entityId, category, id] id data fs) :
    ∃ path, getFilePath fs entityId category id = some path ∧ contentAt fs path = some data := by
  obtain ⟨files, hget, name, hname, hplain, honly, -⟩ := h
  have hfound : (files.toList.find? fun file =>
      file.1 ≠ descriptorJson && file.1 ≠ dataTmp).isSome := by
    refine List.find?_isSome.mpr ⟨(name, data), ?_, by simpa using hplain⟩
    exact ExtTreeMap.mem_toList_iff_getElem?_eq_some.mpr hname
  obtain ⟨file, hfile⟩ := Option.isSome_iff_exists.mp hfound
  have hcontent := ExtTreeMap.mem_toList_iff_getElem?_eq_some.mp (List.mem_of_find?_eq_some hfile)
  have hfile' : file.1 = name := by
    by_contra hne
    have hother := List.find?_some hfile
    simp only [Bool.and_eq_true, decide_eq_true_eq] at hother
    rw [honly file.1 hne hother.1] at hcontent
    cases hcontent
  have hpath : getFilePath fs entityId category id = some [entityId, category, id, file.1] := by
    show (fs[[entityId, category, id]]?.bind fun files => (files.toList.find? _).bind _) = _
    rw [hget, Option.bind_some, hfile]
    rfl
  refine ⟨_, hpath, ?_⟩
  rw [hfile']
  simp [contentAt, hget, hname]

theorem countP_listItems {entityId category id data : Str} (hreadable : Readable format fs)
    (h : Held format [entityId, category, id] id data fs) :
    (listItems format fs entityId category).countP (fun item => item.id = id) = 1 := by
  obtain ⟨files, hget, -, -, -, -, desc, hread, hid⟩ := h
  have hkey : ∀ entry ∈ fs.toList,
      (((if entry.1.dropLast = [entityId, category] then readDescriptor format entry.2 else none).map
        fun item => decide (item.id = id)).getD false) = true ↔
      (entry.1 == [entityId, category, id]) = true := by
    intro entry hentry
    have hentry := ExtTreeMap.mem_toList_iff_getElem?_eq_some.mp hentry
    rw [beq_iff_eq]
    constructor
    · intro hitem
      split at hitem
      · rename_i hdir
        cases hread' : readDescriptor format entry.2 with
        | none => simp [hread'] at hitem
        | some item =>
          have hlast := hreadable entry.1 entry.2 item hentry hread'
          rw [hread'] at hitem
          simp only [Option.map_some, Option.getD_some, decide_eq_true_eq] at hitem
          rw [hitem] at hlast
          have hwhole : entry.1.dropLast ++ [id] = entry.1 :=
            List.dropLast_append_getLast? id hlast
          rw [← hwhole, hdir]
          rfl
      · cases hitem
    · intro hdir
      rw [hdir, hget] at hentry
      rw [if_pos (by rw [hdir]; rfl), ← Option.some.inj hentry, hread]
      simp [hid]
  have hcount : fs.toList.countP (fun entry => entry.1 == [entityId, category, id]) =
      (fs.toList.map Prod.fst).count [entityId, category, id] := by
    rw [List.count_eq_countP, List.countP_map]
    rfl
  rw [listItems, List.countP_filterMap, List.countP_congr hkey, hcount]
  refine List.count_eq_one_of_mem (OMap.nodup_keys_toList fs) (List.mem_map.mpr ?_)
  exact ⟨(_, files), ExtTreeMap.mem_toList_iff_getElem?_eq_some.mpr hget, rfl⟩

end Steps

/-- In every run whose stores get new ids and whose payloads are not named like the descriptor or
the temporary file: after a store that succeeded, until its item is removed, the payload is found
with its content and the item is listed once; and no call changes the files of another item. -/
theorem stored_item_kept {config : Config} {format : Format}
    {newer older : List (Event FileSystem Call Outcome)} {event : Event FileSystem Call Outcome}
    {fs : FileSystem} {call : StoreCall} {desc : ItemDescriptor}
    (hrun : (storeMachine config format).Runs (fun fs op => op.Plain fs)
      (newer ++ event :: older) fs)
    (hop : event.op = .store call) (hstored : event.out = .stored desc)
    (hkept : ∀ later ∈ newer, later.op = .remove call.entityId call.category desc.id →
      later.out ≠ .removed) :
    (∃ path, getFilePath fs call.entityId call.category desc.id = some path ∧
      contentAt fs path = some call.data) ∧
    (listItems format fs call.entityId call.category).countP (fun item => item.id = desc.id) = 1 ∧
    ∀ op dir, Call.dir op ≠ dir →
      ((storeMachine config format).step fs op).1[dir]? = fs[dir]? := by
  obtain ⟨before, op, out⟩ := event
  subst hop
  have hout := (hrun.out_eq (List.mem_append_right _ List.mem_cons_self)).symm.trans hstored
  have hdesc : desc = call.descriptor :=
    hrun.since (fun _ => desc = call.descriptor)
      (fun hplain => ((leaves_store hplain).2 desc hout).1) fun _ _ _ h => h
  have hreadable : Readable format fs :=
    hrun.invariant (fun _ fs => Readable format fs) (by simp [Readable, storeMachine])
      fun _ fs op _ hplain h => readable_step hplain h
  have hheld : Held format call.dir call.id call.data fs := by
    refine hrun.since (Held format call.dir call.id call.data) ?_ ?_
    · intro hplain
      exact ((leaves_store hplain).2 desc hout).2
    · intro later hlater hplain h
      refine held_step hplain (fun entityId category itemId hop hdir => ?_) h
      rw [← hrun.out_eq (List.mem_append_left _ hlater)]
      obtain ⟨rfl, rfl, rfl⟩ : entityId = call.entityId ∧ category = call.category ∧
          itemId = call.id := by simpa [StoreCall.dir] using hdir
      exact hkept later hlater (hdesc ▸ hop)
  rw [hdesc]
  exact ⟨getFilePath_of_held hheld, countP_listItems hreadable hheld, fun op dir => getElem?_step⟩

def idFormat : Format where
  dump desc := some (1 :: desc.id)
  parse
    | 1 :: id => some { id }
    | _ => none
  id_parse := by
    rintro desc _ ⟨⟩
    exact ⟨_, rfl, rfl⟩
  parse_nil := rfl

def upload (filename id : Str) : Call :=
  .store { entityId := str "e", category := str "c", filename, data := str "x", id }

def uploaded (name id : Str) : ItemDescriptor where
  id := id
  category := str "c"
  name := name
  mimeType := str "application/octet-stream"
  size := 1

theorem stored_item_kept_of_upload :
    let m := storeMachine { categories := {str "c"} } idFormat
    let fs := m.exec ∅ [upload (str "a.bin") (str "i"), upload (str "b.bin") (str "j")]
    (∃ path, getFilePath fs (str "e") (str "c") (str "i") = some path ∧
        contentAt fs path = some (str "x")) ∧
      (listItems idFormat fs (str "e") (str "c")).countP (fun item => item.id = str "i") = 1 := by
  intro m fs
  have hrun : m.Runs (fun fs op => op.Plain fs)
      ([⟨_, upload (str "b.bin") (str "j"), _⟩] ++
        ⟨∅, upload (str "a.bin") (str "i"), .stored (uploaded (str "a.bin") (str "i"))⟩ :: []) fs :=
    Machine.Runs.start.exec [upload (str "a.bin") (str "i"), upload (str "b.bin") (str "j")]
      (by decide)
  have h := stored_item_kept hrun rfl rfl (by simp [upload])
  exact ⟨h.1, h.2.1⟩

/-- A payload named like the descriptor is overwritten by it, one named like the temporary file is
taken for it: both stores succeed, and neither payload is found. -/
theorem reserved_name_lost :
    let m := storeMachine { categories := {str "c"} } idFormat
    let calls := [upload (str "descriptor.json") (str "i"), upload (str ".data.tmp") (str "j")]
    m.outputs ∅ calls = [.stored (uploaded (str "descriptor.json") (str "i")),
        .stored (uploaded (str ".data.tmp") (str "j"))] ∧
      getFilePath (m.exec ∅ calls) (str "e") (str "c") (str "i") = none ∧
      getFilePath (m.exec ∅ calls) (str "e") (str "c") (str "j") = none := by
  decide

end Medkit.Gateway.BulkData
