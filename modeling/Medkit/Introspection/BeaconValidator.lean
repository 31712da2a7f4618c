import Medkit.Lib.Utf8

/-! What a beacon says about an entity is brought within limits before it is stored. -/
namespace Medkit.Introspection.BeaconValidator

open Lib

/-- The metadata is in the order in which the map is iterated. -/
structure BeaconHint where
  entityId : Str
  stableId : Str := []
  displayName : Str := []
  functionIds : List Str := []
  dependsOn : List Str := []
  componentId : Str := []
  transportType : Str := []
  negotiatedFormat : Str := []
  processName : Str := []
  hostname : Str := []
  metadata : List (Str × Str) := []

structure ValidationLimits where
  maxIdLength : Nat := 256
  maxStringLength : Nat := 512
  maxFunctionIds : Nat := 100
  maxDependsOn : Nat := 100
  maxMetadataEntries : Nat := 50
  maxMetadataKeyLength : Nat := 64
  maxMetadataValueLength : Nat := 1024

structure ValidationResult where
  valid : Bool := true
  reason : Str := []

/-! ## The validator -/

def isValidName (name : Str) (maxLength : Nat) : Bool :=
  if name = [] ∨ name.length > maxLength then false
  else name.all fun c => isAlnumByte c || c = 95 || c = 45

def isValidId (id : Str) (maxLength : Nat) : Bool := isValidName id maxLength

def isValidMetadataKey (key : Str) (maxLength : Nat) : Bool := isValidName key maxLength

def resizeTo {α : Type} (items : List α) (limit : Nat) : List α :=
  if items.length > limit then items.take limit else items

def truncateIfNeeded (text : Str) (maxLength : Nat) : Str := resizeTo text maxLength

def filterInvalidIds (ids : List Str) (maxEntries maxLength : Nat) : List Str :=
  resizeTo (ids.filter (isValidId · maxLength)) maxEntries

/-- An id that need not be given is cleared if it is not valid. -/
def clearInvalidId (id : Str) (maxLength : Nat) : Str :=
  if id ≠ [] ∧ isValidId id maxLength = false then [] else id

def filterMetadata (metadata : List (Str × Str)) (limits : ValidationLimits) : List (Str × Str) :=
  ((resizeTo metadata limits.maxMetadataEntries).filter fun entry =>
    isValidMetadataKey entry.1 limits.maxMetadataKeyLength).map fun entry =>
      (entry.1, resizeTo entry.2 limits.maxMetadataValueLength)

def sanitize (hint : BeaconHint) (limits : ValidationLimits) : BeaconHint :=
  { hint with
    displayName := truncateIfNeeded hint.displayName limits.maxStringLength
    processName := truncateIfNeeded hint.processName limits.maxStringLength
    hostname := truncateIfNeeded hint.hostname limits.maxStringLength
    transportType := truncateIfNeeded hint.transportType limits.maxStringLength
    negotiatedFormat := truncateIfNeeded hint.negotiatedFormat limits.maxStringLength
    stableId := clearInvalidId hint.stableId limits.maxIdLength
    componentId := clearInvalidId hint.componentId limits.maxIdLength
    functionIds := filterInvalidIds hint.functionIds limits.maxFunctionIds limits.maxIdLength
    dependsOn := filterInvalidIds hint.dependsOn limits.maxDependsOn limits.maxIdLength
    metadata := filterMetadata hint.metadata limits }

def validateBeaconHint (hint : BeaconHint) (limits : ValidationLimits) :
    ValidationResult × BeaconHint :=
  if isValidId hint.entityId limits.maxIdLength = false then
    ({ valid := false, reason := str "invalid entity_id: '" ++ hint.entityId ++ str "'" }, hint)
  else ({}, sanitize hint limits)

/-! ## What a stored hint should be -/

def BeaconHint.freeTexts (hint : BeaconHint) : List Str :=
  [hint.displayName, hint.processName, hint.hostname, hint.transportType, hint.negotiatedFormat]

def BeaconHint.optionalIds (hint : BeaconHint) : List Str :=
  [hint.stableId, hint.componentId].filter (· ≠ [])

def BeaconHint.ids (hint : BeaconHint) : List Str :=
  hint.entityId :: hint.optionalIds ++ hint.functionIds ++ hint.dependsOn

def BeaconHint.strings (hint : BeaconHint) : List Str :=
  hint.ids ++ hint.freeTexts ++ hint.metadata.map Prod.fst ++ hint.metadata.map Prod.snd

def allowed (c : Byte) : Prop := isAlnumByte c ∨ c = 95 ∨ c = 45

structure BeaconHint.Sanitized (limits : ValidationLimits) (hint : BeaconHint) : Prop where
  encoded : ∀ text ∈ hint.strings, ValidUtf8 text
  idLength : ∀ id ∈ hint.ids, id.length ≤ limits.maxIdLength
  textLength : ∀ text ∈ hint.freeTexts, text.length ≤ limits.maxStringLength
  keyLength : ∀ entry ∈ hint.metadata, entry.1.length ≤ limits.maxMetadataKeyLength
  valueLength : ∀ entry ∈ hint.metadata, entry.2.length ≤ limits.maxMetadataValueLength
  names : ∀ name ∈ hint.ids ++ hint.metadata.map Prod.fst, name ≠ [] ∧ ∀ c ∈ name, allowed c
  functionIds : hint.functionIds.length ≤ limits.maxFunctionIds
  dependsOn : hint.dependsOn.length ≤ limits.maxDependsOn
  metadata : hint.metadata.length ≤ limits.maxMetadataEntries

/-- No text is cut inside of a character: neither a free text nor a value of the metadata that is
kept. -/
def BeaconHint.CutBetweenCharacters (limits : ValidationLimits) (hint : BeaconHint) : Prop :=
  (∀ text ∈ hint.freeTexts, ∀ b ∈ text[limits.maxStringLength]?, startsCharacter b) ∧
    ∀ entry ∈ hint.metadata.take limits.maxMetadataEntries,
      isValidMetadataKey entry.1 limits.maxMetadataKeyLength = true →
        ∀ b ∈ entry.2[limits.maxMetadataValueLength]?, startsCharacter b

/-! ## The limits -/

theorem resizeTo_eq_take {α : Type} (items : List α) (limit : Nat) :
    resizeTo items limit = items.take limit := by
  unfold resizeTo
  split_ifs with h
  · rfl
  · rw [List.take_of_length_le (Nat.le_of_not_lt h)]

variable {maxLength : Nat} {id : Str} {limits : ValidationLimits}

theorem isValidName_iff {name : Str} : isValidName name maxLength = true ↔
    name ≠ [] ∧ name.length ≤ maxLength ∧ ∀ c ∈ name, allowed c := by
  unfold isValidName allowed
  split_ifs with h
  · simp only [false_iff]
    intro ⟨nonempty, short, _⟩
    rcases h with h | h
    · exact nonempty h
    · omega
  · rw [not_or] at h
    simp [h.1, Nat.le_of_not_lt h.2, or_assoc]

theorem validUtf8_of_isValidName {name : Str} (h : isValidName name maxLength = true) :
    ValidUtf8 name := by
  apply IsAscii.validUtf8
  intro c hc
  rcases (isValidName_iff.mp h).2.2 c hc with alnum | underscore | hyphen
  · simp only [isAlnumByte, Bool.or_eq_true, Bool.and_eq_true, decide_eq_true_eq] at alnum
    omega
  · exact underscore ▸ by decide
  · exact hyphen ▸ by decide

theorem isValidName_of_mem_filter {ids : List Str} {maxEntries : Nat}
    (h : id ∈ filterInvalidIds ids maxEntries maxLength) : isValidName id maxLength = true := by
  rw [filterInvalidIds, resizeTo_eq_take] at h
  exact (List.mem_filter.mp (List.mem_of_mem_take h)).2

theorem length_resizeTo_le {α : Type} (items : List α) (limit : Nat) :
    (resizeTo items limit).length ≤ limit := by
  rw [resizeTo_eq_take]
  exact List.length_take_le ..

theorem isValidName_clearInvalidId (h : clearInvalidId id maxLength ≠ []) :
    isValidName (clearInvalidId id maxLength) maxLength = true := by
  unfold clearInvalidId at h ⊢
  split_ifs at h ⊢ with invalid
  · exact absurd rfl h
  · by_contra hname
    exact invalid ⟨h, Bool.eq_false_iff.mpr hname⟩

theorem mem_filterMetadata {metadata : List (Str × Str)} {entry : Str × Str} :
    entry ∈ filterMetadata metadata limits ↔
      ∃ old ∈ metadata.take limits.maxMetadataEntries,
        isValidMetadataKey old.1 limits.maxMetadataKeyLength = true ∧
          entry = (old.1, old.2.take limits.maxMetadataValueLength) := by
  simp only [filterMetadata, resizeTo_eq_take, List.mem_map, List.mem_filter, and_assoc, eq_comm]

theorem mem_freeTexts_sanitize {hint : BeaconHint} {text : Str} :
    text ∈ (sanitize hint limits).freeTexts ↔
      ∃ old ∈ hint.freeTexts, text = old.take limits.maxStringLength := by
  have texts : (sanitize hint limits).freeTexts =
      hint.freeTexts.map (·.take limits.maxStringLength) := by
    simp only [BeaconHint.freeTexts, sanitize, truncateIfNeeded, resizeTo_eq_take, List.map_cons,
      List.map_nil]
  simp only [texts, List.mem_map, eq_comm]

theorem isValidName_of_mem_ids {hint : BeaconHint}
    (accepted : isValidId hint.entityId limits.maxIdLength = true)
    (h : id ∈ (sanitize hint limits).ids) : isValidName id limits.maxIdLength = true := by
  simp only [BeaconHint.ids, BeaconHint.optionalIds, List.mem_cons, List.mem_append,
    List.mem_filter, List.cons_append, decide_eq_true_eq, List.not_mem_nil, or_false] at h
  rcases h with h | ((⟨h, given⟩ | h) | h)
  · rw [h]
    exact accepted
  · rcases h with h | h
    all_goals
      rw [h] at given ⊢
      exact isValidName_clearInvalidId given
  · exact isValidName_of_mem_filter h
  · exact isValidName_of_mem_filter h

/-! ## The texts -/

section

variable {hint : BeaconHint} {limits : ValidationLimits}

theorem sanitized_iff_encoded (accepted : isValidId hint.entityId limits.maxIdLength = true) :
    (sanitize hint limits).Sanitized limits ↔
      ∀ text ∈ (sanitize hint limits).strings, ValidUtf8 text := by
  have key {entry : Str × Str} (h : entry ∈ (sanitize hint limits).metadata) :
      isValidName entry.1 limits.maxMetadataKeyLength = true := by
    obtain ⟨old, -, hkey, same⟩ := mem_filterMetadata.mp h
    rw [same]
    exact hkey
  refine ⟨fun h => h.encoded, fun encoded => ⟨encoded, ?_, ?_, ?_, ?_, ?_, ?_, ?_, ?_⟩⟩
  · exact fun id hid => (isValidName_iff.mp (isValidName_of_mem_ids accepted hid)).2.1
  · intro text htext
    obtain ⟨old, -, cut⟩ := mem_freeTexts_sanitize.mp htext
    rw [cut]
    exact List.length_take_le ..
  · exact fun entry h => (isValidName_iff.mp (key h)).2.1
  · intro entry h
    obtain ⟨old, -, -, cut⟩ := mem_filterMetadata.mp h
    rw [cut]
    exact List.length_take_le ..
  · intro name hname
    rcases List.mem_append.mp hname with h | h
    · have valid := isValidName_iff.mp (isValidName_of_mem_ids accepted h)
      exact ⟨valid.1, valid.2.2⟩
    · obtain ⟨entry, hentry, same⟩ := List.mem_map.mp h
      have valid := isValidName_iff.mp (key hentry)
      exact same ▸ ⟨valid.1, valid.2.2⟩
  · exact length_resizeTo_le ..
  · exact length_resizeTo_le ..
  · change (filterMetadata hint.metadata limits).length ≤ _
    rw [filterMetadata, List.length_map]
    exact (List.length_filter_le ..).trans (length_resizeTo_le ..)

theorem encoded_iff (accepted : isValidId hint.entityId limits.maxIdLength = true) :
    (∀ text ∈ (sanitize hint limits).strings, ValidUtf8 text) ↔
      (∀ text ∈ (sanitize hint limits).freeTexts, ValidUtf8 text) ∧
        ∀ entry ∈ (sanitize hint limits).metadata, ValidUtf8 entry.2 := by
  constructor
  · intro h
    constructor
    · exact fun text htext => h text (by simp [BeaconHint.strings, htext])
    · exact fun entry hentry => h entry.2 (List.mem_append_right _ (List.mem_map_of_mem hentry))
  · intro ⟨texts, values⟩ text htext
    simp only [BeaconHint.strings, List.mem_append, List.mem_map] at htext
    rcases htext with ((hid | htext) | ⟨entry, hentry, same⟩) | ⟨entry, hentry, same⟩
    · exact validUtf8_of_isValidName (isValidName_of_mem_ids accepted hid)
    · exact texts text htext
    · obtain ⟨old, -, hkey, cut⟩ := mem_filterMetadata.mp hentry
      rw [← same, cut]
      exact validUtf8_of_isValidName hkey
    · exact same ▸ values entry hentry

/-- A hint that is accepted is as it should be exactly if no text is cut inside of a character. -/
theorem accepted_hint_sanitized (encoded : ∀ text ∈ hint.strings, ValidUtf8 text)
    (accepted : (validateBeaconHint hint limits).1.valid = true) :
    (validateBeaconHint hint limits).2.Sanitized limits ↔ hint.CutBetweenCharacters limits := by
  have hid : isValidId hint.entityId limits.maxIdLength = true := by
    by_contra h
    rw [validateBeaconHint, if_pos (Bool.eq_false_iff.mpr h)] at accepted
    cases accepted
  have text {old : Str} (h : old ∈ hint.freeTexts) : ValidUtf8 old :=
    encoded old (by simp [BeaconHint.strings, h])
  have value {old : Str × Str} (h : old ∈ hint.metadata.take limits.maxMetadataEntries) :
      ValidUtf8 old.2 :=
    encoded old.2 (List.mem_append_right _ (List.mem_map_of_mem (List.mem_of_mem_take h)))
  rw [validateBeaconHint, if_neg (by simp [hid]), sanitized_iff_encoded hid, encoded_iff hid]
  apply and_congr
  · constructor
    · intro h old hold
      rw [← (text hold).take_iff]
      exact h _ (mem_freeTexts_sanitize.mpr ⟨old, hold, rfl⟩)
    · intro h cut hcut
      obtain ⟨old, hold, rfl⟩ := mem_freeTexts_sanitize.mp hcut
      exact ((text hold).take_iff _).mpr (h old hold)
  · constructor
    · intro h old hold hkey
      rw [← (value hold).take_iff]
      exact h (old.1, _) (mem_filterMetadata.mpr ⟨old, hold, hkey, rfl⟩)
    · intro h cut hcut
      obtain ⟨old, hold, hkey, rfl⟩ := mem_filterMetadata.mp hcut
      exact ((value hold).take_iff _).mpr (h old hold hkey)

end

set_option maxRecDepth 2048 in
theorem accepted_hint_sanitized_between :
    (validateBeaconHint { entityId := str "lidar", displayName := str "caf\u00e9" }
      { maxStringLength := 3 }).2.Sanitized { maxStringLength := 3 } :=
  (accepted_hint_sanitized (by decide) (by decide)).mpr ⟨by decide, by decide⟩

/-- With the default limits, a display name of 511 letters and an accented one is accepted, and cut
inside of its last character. -/
theorem accepted_hint_not_encoded :
    ∃ hint : BeaconHint, (∀ text ∈ hint.strings, ValidUtf8 text) ∧
      (validateBeaconHint hint {}).1.valid = true ∧
        ¬(validateBeaconHint hint {}).2.Sanitized {} := by
  have letters : IsAscii (List.replicate 511 97) := by
    intro b hb
    rw [(List.mem_replicate.mp hb).2]
    decide
  have name : ValidUtf8 (List.replicate 511 97 ++ [195, 169]) :=
    letters.validUtf8.append (by decide)
  have behind : (List.replicate 511 (97 : Byte) ++ [195, 169])[512]? = some 169 := by
    rw [List.getElem?_append_right (by rw [List.length_replicate]; omega), List.length_replicate]
    rfl
  refine ⟨{ entityId := str "lidar", displayName := List.replicate 511 97 ++ [195, 169] },
    ?_, by decide, ?_⟩
  · intro text htext
    change text ∈ [str "lidar", List.replicate 511 97 ++ [195, 169], [], [], [], []] at htext
    simp only [List.mem_cons, List.not_mem_nil, or_false] at htext
    rcases htext with rfl | rfl | rfl | rfl | rfl | rfl
    · decide
    · exact name
    all_goals decide
  · change ¬(sanitize _ {}).Sanitized {}
    intro h
    have cut := h.encoded _ (List.mem_append_left _ (List.mem_append_left _
      (List.mem_append_right _ (mem_freeTexts_sanitize.mpr ⟨_, List.mem_cons_self, rfl⟩))))
    rw [name.take_iff] at cut
    exact absurd (cut 169 behind) (by decide)

end Medkit.Introspection.BeaconValidator
