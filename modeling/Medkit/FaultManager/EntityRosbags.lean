import Medkit.Lib.JsonText
import Medkit.FaultManager.RosbagStorage

/-! The recordings of an entity in the SQLite store. The query joins each recording with the
sources of its fault through `json_each`, a strict reader of the text that
`serialize_json_array` wrote; the text is well formed unless a source holds a control byte
without a short escape. -/
namespace Medkit.FaultManager

open Lib

/-! ## The query -/

namespace SqliteFaultStorage

def joinSources (db : SqliteFaultStorage) (entityFqn : Str) (row : RosbagFileInfo) :
    List RosbagFileInfo :=
  match db.faults[row.faultCode]? with
  | none => []
  | some fault =>
      (((JsonText.readArray fault.reportingSources).getD []).filter (· = entityFqn)).map fun _ => row

/-- The answer is complete if `json_each` reads the sources of every fault. If it fails on one of
them, the loop ends with the rows that the query plan has handed out by then. -/
def ListRosbagsForEntity (db : SqliteFaultStorage) (bags : SqliteRosbags) (entityFqn : Str)
    (answer : List RosbagFileInfo) : Prop :=
  let rows := ((newestFirst (·.createdAtNs) bags.rosbagFiles.rows.toList).flatMap fun row =>
    db.joinSources entityFqn row.2).map SqliteRosbags.readRosbagRow
  answer <+: rows ∧
    ((∀ (code : Str) (fault : FaultRow), db.faults[code]? = some fault →
      (JsonText.readArray fault.reportingSources).isSome) → answer = rows)

structure Holds (db : SqliteFaultStorage) (sources : Str → OSet Str) : Prop where
  text : ∀ code fault, db.faults[code]? = some fault →
    fault.reportingSources = serializeJsonArray (sources code).toList
  readable : ∀ code fault, db.faults[code]? = some fault →
    ∀ source ∈ sources code, (0 : Byte) ∉ source ∧ ValidUtf8 source

def linksOf (db : SqliteFaultStorage) (bags : SqliteRosbags) (sources : Str → OSet Str)
    (entityFqn : Str) : List RosbagFileInfo :=
  ((newestFirst (·.createdAtNs) bags.rosbagFiles.rows.toList).filter fun row =>
    (db.faults[row.2.faultCode]?).isSome && (sources row.2.faultCode).contains entityFqn).map
      fun row => SqliteRosbags.readRosbagRow row.2

end SqliteFaultStorage

/-! ## Reading the text back -/

def Escaped (s : Str) : Prop :=
  ∀ b ∈ s, b.val < 32 → b = 8 ∨ b = 9 ∨ b = 10 ∨ b = 12 ∨ b = 13

open JsonText

theorem readString_escapeByte {b : Byte}
    (hb : b.val < 32 → b = 8 ∨ b = 9 ∨ b = 10 ∨ b = 12 ∨ b = 13) (fuel : Nat) (rest : Str) :
    readString (fuel + 1) (escapeByte b ++ rest) =
      (readString fuel rest).map fun read => (b :: read.1, read.2) := by
  have hescaped {e c : Byte} (h : readEscape (e :: rest) = some ([c], rest)) :
      readString (fuel + 1) ([92, e] ++ rest) =
        (readString fuel rest).map fun read => (c :: read.1, read.2) := readString_escape h fuel
  unfold escapeByte
  split_ifs with hquote hescape h₁ h₂ h₃ h₄ h₅
  · subst hquote
    exact hescaped rfl
  · subst hescape
    exact hescaped rfl
  · exact h₁ ▸ hescaped rfl
  · exact h₂ ▸ hescaped rfl
  · exact h₃ ▸ hescaped rfl
  · exact h₄ ▸ hescaped rfl
  · exact h₅ ▸ hescaped rfl
  · apply readString_plain hquote hescape
    by_contra hcontrol
    rcases hb (Nat.not_le.mp hcontrol) with h | h | h | h | h
    · exact h₁ h
    · exact h₅ h
    · exact h₃ h
    · exact h₂ h
    · exact h₄ h

variable {s : Str} {fuel : Nat} {vec : List Str}

theorem readString_flatMap_escapeByte (hs : Escaped s) (hfuel : s.length < fuel) (tail : Str) :
    readString fuel (s.flatMap escapeByte ++ 34 :: tail) = some (s, tail) := by
  induction s generalizing fuel with
  | nil =>
    obtain ⟨fuel, rfl⟩ : ∃ n, fuel = n + 1 := ⟨fuel - 1, by simp at hfuel; omega⟩
    exact readString_quote fuel tail
  | cons b s ih =>
    rw [List.length_cons] at hfuel
    obtain ⟨fuel, rfl⟩ : ∃ n, fuel = n + 1 := ⟨fuel - 1, by omega⟩
    have hb := hs b List.mem_cons_self
    have hs' : Escaped s := fun c hc => hs c (List.mem_cons_of_mem _ hc)
    rw [List.flatMap_cons, List.append_assoc, readString_escapeByte hb, ih hs' (by omega)]
    rfl

theorem length_le_flatMap_escapeByte (s : Str) : s.length ≤ (s.flatMap escapeByte).length := by
  induction s with
  | nil => exact Nat.le_refl 0
  | cons b s ih =>
    have hpos : 0 < (escapeByte b).length := by
      unfold escapeByte
      split_ifs <;> exact Nat.succ_pos _
    rw [List.flatMap_cons, List.length_append, List.length_cons]
    omega

theorem reads_quoteString (hs : Escaped s) (tail : Str) :
    ∃ body, skipBlanks (quoteString s ++ tail) = 34 :: body ∧
      readString body.length body = some (s, tail) := by
  refine ⟨s.flatMap escapeByte ++ 34 :: tail, ?_, readString_flatMap_escapeByte hs ?_ tail⟩
  · simp [skipBlanks, quoteString, isBlank]
  · have hlength := length_le_flatMap_escapeByte s
    rw [List.length_append, List.length_cons]
    omega

theorem readElements_last (hs : Escaped s) (fuel : Nat) (tail : Str) :
    readElements (fuel + 1) (quoteString s ++ 93 :: tail) = some ([s], tail) := by
  obtain ⟨body, hopen, hread⟩ := reads_quoteString hs (93 :: tail)
  rw [readElements, hopen]
  simp only [hread, Option.bind_eq_bind, Option.bind_some]
  rfl

theorem readElements_more (hs : Escaped s) {tail rest : Str} {values : List Str}
    (h : readElements fuel tail = some (values, rest)) :
    readElements (fuel + 1) (quoteString s ++ 44 :: tail) = some (s :: values, rest) := by
  obtain ⟨body, hopen, hread⟩ := reads_quoteString hs (44 :: tail)
  have hcomma : skipBlanks (44 :: tail) = 44 :: tail := rfl
  rw [readElements, hopen]
  simp only [hread, hcomma, h, Option.bind_eq_bind, Option.bind_some]

theorem readElements_joinElements (hne : vec ≠ []) (hvec : ∀ s ∈ vec, Escaped s)
    (hfuel : vec.length ≤ fuel) :
    readElements fuel (joinElements vec ++ [93]) = some (vec, []) := by
  fun_induction joinElements vec generalizing fuel with
  | case1 => exact absurd rfl hne
  | case2 s =>
    obtain ⟨fuel, rfl⟩ : ∃ n, fuel = n + 1 := ⟨fuel - 1, by simp at hfuel; omega⟩
    exact readElements_last (hvec s List.mem_cons_self) fuel []
  | case3 s rest hrest ih =>
    obtain ⟨fuel, rfl⟩ : ∃ n, fuel = n + 1 := ⟨fuel - 1, by simp at hfuel; omega⟩
    rw [List.append_assoc]
    apply readElements_more (hvec s List.mem_cons_self)
    exact ih hrest (fun t ht => hvec t (List.mem_cons_of_mem _ ht))
      (Nat.le_of_succ_le_succ hfuel)

theorem readArray_serializeJsonArray (hvec : ∀ s ∈ vec, Escaped s) :
    readArray (serializeJsonArray vec) = some vec := by
  have hopen : skipBlanks (serializeJsonArray vec) = 91 :: (joinElements vec ++ [93]) := rfl
  have hbody : readBody (joinElements vec ++ [93]) = some (vec, []) := by
    cases vec with
    | nil => rfl
    | cons s rest =>
      have hquote : ∃ text, joinElements (s :: rest) ++ [93] = 34 :: text := by
        cases rest <;> exact ⟨_, rfl⟩
      obtain ⟨text, htext⟩ := hquote
      have hskip : skipBlanks (joinElements (s :: rest) ++ [93]) =
          joinElements (s :: rest) ++ [93] := by
        rw [htext]
        rfl
      have hfuel : (s :: rest).length ≤ (joinElements (s :: rest) ++ [93]).length := by
        have hlength := length_le_joinElements (s :: rest)
        rw [List.length_append]
        omega
      have hread := readElements_joinElements (List.cons_ne_nil s rest) hvec hfuel
      unfold readBody
      rw [hskip]
      split
      · rename_i heq
        rw [htext] at heq
        cases heq
      · exact hread
  unfold readArray
  rw [hopen]
  simp only [hbody, Option.bind_eq_bind, Option.bind_some]
  rfl

theorem mem_joinElements (hs : s ∈ vec) {b : Byte} (hb : b ∈ quoteString s) :
    b ∈ joinElements vec := by
  fun_induction joinElements vec with
  | case1 => cases hs
  | case2 t =>
    cases List.mem_singleton.mp hs
    exact hb
  | case3 t rest _ ih =>
    rcases List.mem_cons.mp hs with rfl | hs
    · exact List.mem_append_left _ hb
    · exact List.mem_append_right _ (List.mem_cons_of_mem _ (ih hs))

theorem readArray_serializeJsonArray_iff (vec : List Str) :
    readArray (serializeJsonArray vec) = some vec ↔ ∀ s ∈ vec, Escaped s := by
  refine ⟨fun h s hs b hb hcontrol => ?_, readArray_serializeJsonArray⟩
  by_contra hescape
  simp only [not_or] at hescape
  obtain ⟨h₁, h₂, h₃, h₄, h₅⟩ := hescape
  have hquote : b ≠ 34 := by
    rintro rfl
    exact absurd hcontrol (by decide)
  have hbackslash : b ≠ 92 := by
    rintro rfl
    exact absurd hcontrol (by decide)
  have hself : escapeByte b = [b] := by
    unfold escapeByte
    simp [hquote, hbackslash, h₁, h₂, h₃, h₄, h₅]
  have hquoted : b ∈ quoteString s := by
    apply List.mem_cons_of_mem
    apply List.mem_append_left
    exact List.mem_flatMap.mpr ⟨b, hb, hself ▸ List.mem_singleton_self b⟩
  have hmem : b ∈ serializeJsonArray vec := by
    apply List.mem_cons_of_mem
    apply List.mem_append_left
    exact mem_joinElements hs hquoted
  rcases allowed_of_readArray h b hmem with hprintable | hblank | hblank | hblank
  · exact Nat.not_le.mpr hcontrol hprintable
  · exact h₂ hblank
  · exact h₃ hblank
  · exact h₅ hblank

theorem validUtf8_quoteString (hs : ValidUtf8 s) : ValidUtf8 (quoteString s) := by
  have hquote : ValidUtf8 [34] := validUtf8_singleton (by decide)
  have hbody : ValidUtf8 (s.flatMap escapeByte) := by
    apply hs.flatMap
    · intro b hb
      unfold escapeByte IsAscii
      split_ifs <;> simp [hb]
    · intro b hb
      unfold escapeByte
      split_ifs with h
      all_goals first
        | rfl
        | (subst b; exact absurd hb (by decide))
  exact hquote.append (hbody.append hquote)

theorem validUtf8_serializeJsonArray (hvec : ∀ s ∈ vec, ValidUtf8 s) :
    ValidUtf8 (serializeJsonArray vec) := by
  have hjoin : ValidUtf8 (joinElements vec) := by
    fun_induction joinElements vec with
    | case1 => exact isAscii_nil.validUtf8
    | case2 s => exact validUtf8_quoteString (hvec s List.mem_cons_self)
    | case3 s rest _ ih =>
      have hrest := ih fun t ht => hvec t (List.mem_cons_of_mem _ ht)
      exact (validUtf8_quoteString (hvec s List.mem_cons_self)).append
        ((validUtf8_singleton (by decide)).append hrest)
  exact (validUtf8_singleton (by decide)).append
    (hjoin.append (validUtf8_singleton (by decide)))

/-! ## The join -/

theorem map_filter_eq_const {values : List Str} (hnodup : values.Nodup) (entityFqn : Str)
    (row : RosbagFileInfo) : ((values.filter (· = entityFqn)).map fun _ => row) =
      if entityFqn ∈ values then [row] else [] := by
  rw [List.filter_eq, List.map_replicate, hnodup.count]
  split_ifs <;> rfl

theorem flatMap_if_singleton {α β : Type} (p : α → Bool) (g : α → β) (l : List α) :
    (l.flatMap fun a => if p a then [g a] else []) = (l.filter p).map g := by
  induction l with
  | nil => rfl
  | cons a l ih =>
    rw [List.flatMap_cons, ih, List.filter_cons]
    split_ifs <;> rfl

namespace SqliteFaultStorage

variable {db : SqliteFaultStorage} {sources : Str → OSet Str}

theorem joinSources_eq (hread : ∀ (code : Str) (fault : FaultRow), db.faults[code]? = some fault →
      readArray fault.reportingSources = some (sources code).toList)
    (entityFqn : Str) (row : RosbagFileInfo) :
    db.joinSources entityFqn row =
      if (db.faults[row.faultCode]?).isSome && (sources row.faultCode).contains entityFqn then [row]
      else [] := by
  unfold joinSources
  cases hfault : db.faults[row.faultCode]? with
  | none => rfl
  | some fault =>
    simp only [hread _ _ hfault, Option.getD_some, Option.isSome_some, Bool.true_and]
    rw [map_filter_eq_const (OSet.nodup_toList _)]
    simp

theorem listRosbagsForEntity_eq_linksOf {bags : SqliteRosbags}
    (hread : ∀ (code : Str) (fault : FaultRow), db.faults[code]? = some fault →
      readArray fault.reportingSources = some (sources code).toList)
    {entityFqn : Str} {answer : List RosbagFileInfo}
    (h : db.ListRosbagsForEntity bags entityFqn answer) :
    answer = db.linksOf bags sources entityFqn := by
  have hcomplete := h.2 fun code fault hfault => by rw [hread code fault hfault]; rfl
  rw [hcomplete]
  unfold linksOf
  simp only [joinSources_eq hread]
  rw [flatMap_if_singleton, List.map_map]
  rfl

end SqliteFaultStorage

/-- For every list of texts: the column is well formed JSON that reads back as the list exactly
if each control byte in them has an escape of its own. For every content of the store: the
sources of all faults read back and the recordings of each entity are exactly the linked ones
under the same condition on the sources. -/
theorem sources_read_back_iff (vec : List Str)
    (hvec : ∀ s ∈ vec, (0 : Byte) ∉ s ∧ ValidUtf8 s) (db : SqliteFaultStorage)
    (bags : SqliteRosbags) (sources : Str → OSet Str) (hdb : db.Holds sources) :
    (ValidUtf8 (serializeJsonArray vec) ∧ readArray (serializeJsonArray vec) = some vec ↔
      ∀ s ∈ vec, Escaped s) ∧
    ((∀ (code : Str) (fault : FaultRow), db.faults[code]? = some fault →
        readArray fault.reportingSources = some (sources code).toList) ∧
      (∀ entityFqn answer, db.ListRosbagsForEntity bags entityFqn answer →
        answer = db.linksOf bags sources entityFqn) ↔
      ∀ (code : Str) (fault : FaultRow), db.faults[code]? = some fault →
        ∀ s ∈ sources code, Escaped s) := by
  constructor
  · have hvalid := validUtf8_serializeJsonArray fun s hs => (hvec s hs).2
    rw [readArray_serializeJsonArray_iff]
    exact and_iff_right hvalid
  · have hrow : ∀ (code : Str) (fault : FaultRow), db.faults[code]? = some fault →
        (readArray fault.reportingSources = some (sources code).toList ↔
          ∀ s ∈ sources code, Escaped s) := by
      intro code fault hfault
      rw [hdb.text code fault hfault, readArray_serializeJsonArray_iff]
      simp only [Std.ExtTreeSet.mem_toList]
    constructor
    · rintro ⟨hread, -⟩ code fault hfault
      exact (hrow code fault hfault).mp (hread code fault hfault)
    · intro hescaped
      have hread : ∀ (code : Str) (fault : FaultRow), db.faults[code]? = some fault →
          readArray fault.reportingSources = some (sources code).toList :=
        fun code fault hfault => (hrow code fault hfault).mpr (hescaped code fault hfault)
      exact ⟨hread, fun entityFqn answer h =>
        SqliteFaultStorage.listRosbagsForEntity_eq_linksOf hread h⟩

def reportedBy (source : Str) : FaultRow :=
  FaultRow.created
    { faultCode := [], eventType := eventFailed, severity := 2, description := []
      sourceId := source, timestamp := 0, config := {} }

def legFaults : SqliteFaultStorage where
  faults := (∅ : OMap Str FaultRow).insert (str "LEG") (reportedBy (str "/leg"))

def legBags : SqliteRosbags :=
  sqliteRosbags.exec {} [.storeRosbagFile (bagOf "LEG" "/bags/1" 10)]

theorem sources_read_back_for_leg :
    readArray (serializeJsonArray [str "/leg", str "/arm"]) = some [str "/leg", str "/arm"] ∧
      ∀ answer, legFaults.ListRosbagsForEntity legBags (str "/leg") answer →
        answer = legFaults.linksOf legBags (fun _ => {str "/leg"}) (str "/leg") := by
  have hvec : ∀ s ∈ [str "/leg", str "/arm"], (0 : Byte) ∉ s ∧ ValidUtf8 s := by
    intro s hs
    simp only [List.mem_cons, List.not_mem_nil, or_false] at hs
    rcases hs with rfl | rfl
    · exact ⟨by decide, _, rfl⟩
    · exact ⟨by decide, _, rfl⟩
  have hleg {code : Str} {fault : FaultRow} (h : legFaults.faults[code]? = some fault) :
      fault = reportedBy (str "/leg") := by
    unfold legFaults at h
    rw [Std.ExtTreeMap.getElem?_insert] at h
    split_ifs at h
    · exact (Option.some.inj h).symm
    · simp at h
  have hone {source : Str} (h : source ∈ ({str "/leg"} : OSet Str)) : source = str "/leg" := by
    have hcompare : compare (str "/leg") source = .eq := by simpa using h
    exact (Std.LawfulEqOrd.eq_of_compare hcompare).symm
  have hdb : legFaults.Holds fun _ => {str "/leg"} := by
    constructor
    · intro code fault hfault
      rw [hleg hfault]
      rfl
    · intro code fault _ source hsource
      rw [hone hsource]
      exact hvec _ List.mem_cons_self
  have hescaped : ∀ s ∈ [str "/leg", str "/arm"], Escaped s := by
    have hprintable : [str "/leg", str "/arm"].all (·.all (32 ≤ ·.val)) = true := rfl
    intro s hs b hb hcontrol
    have hs := List.all_eq_true.mp hprintable s hs
    have hb := of_decide_eq_true (List.all_eq_true.mp hs b hb)
    exact absurd hcontrol (Nat.not_lt.mpr hb)
  obtain ⟨htext, hjoin⟩ :=
    sources_read_back_iff [str "/leg", str "/arm"] hvec legFaults legBags _ hdb
  refine ⟨(htext.mpr hescaped).2, (hjoin.mpr ?_).2 (str "/leg")⟩
  intro code fault _ s hs
  rw [hone hs]
  exact hescaped _ List.mem_cons_self

/-- A source with the control byte 1 is written as it stands, which no JSON reader takes, and
the recordings of another entity may be missing from its answer. -/
theorem control_byte_hides_recordings :
    let source := str "/arm" ++ [1]
    let db : SqliteFaultStorage :=
      { faults := legFaults.faults.insert (str "ARM") (reportedBy source) }
    let sources (code : Str) : OSet Str := if code = str "ARM" then {source} else {str "/leg"}
    ValidUtf8 source ∧ readArray (serializeJsonArray [source]) = none ∧
      db.ListRosbagsForEntity legBags (str "/leg") [] ∧
      (db.linksOf legBags sources (str "/leg")).map (·.filePath) = [str "/bags/1"] := by
  intro source db sources
  refine ⟨⟨"/arm\x01", by decide⟩, by decide, ⟨List.nil_prefix, fun hall => ?_⟩, by decide⟩
  have harm := hall (str "ARM") (reportedBy source) (by decide)
  revert harm
  decide

end Medkit.FaultManager
