import Medkit.Lib.Bytes

/-! JSON values as YAML nodes and back. A YAML scalar is only a text, so that the way back has to
find its type again, by trying one type after the other. -/
namespace Medkit.Serialization

open Lib

/-- Signed and unsigned numbers compare equal if they are the same integer, so `integer` stands for
both; `δ` are the floating point numbers. -/
inductive Json (δ : Type) where
  | null
  | bool (value : Bool)
  | integer (value : Int)
  | real (value : δ)
  | string (value : Str)
  | array (items : List (Json δ))
  | object (fields : List (Str × Json δ))

inductive Yaml where
  | null
  | scalar (text : Str)
  | sequence (nodes : List Yaml)
  | map (pairs : List (Str × Yaml))

/-- `object[key] = value`. -/
def assign {α : Type} (key : Str) (value : α) : List (Str × α) → List (Str × α)
  | [] => [(key, value)]
  | field :: fields =>
      if field.1 = key then (key, value) :: fields else field :: assign key value fields

namespace Yaml

/-- A node that is not a sequence becomes one. -/
def pushBack (node item : Yaml) : Yaml :=
  match node with
  | .sequence nodes => .sequence (nodes ++ [item])
  | _ => .sequence [item]

def set (node : Yaml) (key : Str) (value : Yaml) : Yaml :=
  match node with
  | .map pairs => .map (assign key value pairs)
  | _ => .map [(key, value)]

@[simp] theorem pushBack_null (item : Yaml) : null.pushBack item = .sequence [item] := rfl

@[simp] theorem set_null (key : Str) (value : Yaml) :
    null.set key value = .map [(key, value)] := rfl

end Yaml

def Fits (i : Int) : Prop := -2 ^ 63 ≤ i ∧ i < 2 ^ 63

/-- How the YAML library and the standard library write and read scalars. The two conversions of the
standard library return the number of bytes they have used. -/
structure ScalarText (δ : Type) where
  asBool : Str → Option Bool
  asInt64 : Str → Option Int
  stoll : Str → Option Nat
  asDouble : Str → Option δ
  stod : Str → Option Nat
  encodeDouble : δ → Str
  asBool_true : asBool (str "true") = some true
  asBool_false : asBool (str "false") = some false
  asInt64_decimal : ∀ i, Fits i → asInt64 (intDecimal i) = some i
  stoll_decimal : ∀ i, Fits i → stoll (intDecimal i) = some (intDecimal i).length

variable {δ : Type}

def boolWords : List Str :=
  [str "true", str "false", str "yes", str "no", str "True", str "False", str "Yes", str "No"]

namespace ScalarText

def readBool (lib : ScalarText δ) (text : Str) : Option Bool :=
  (lib.asBool text).filter fun _ => decide (text ∈ boolWords)

def readInteger (lib : ScalarText δ) (text : Str) : Option Int :=
  (lib.asInt64 text).filter fun _ =>
    text.head?.any (fun c => isDigitByte c ∨ c = 45) && lib.stoll text == some text.length

def readDouble (lib : ScalarText δ) (text : Str) : Option δ :=
  (lib.asDouble text).filter fun _ =>
    text.head?.any (fun c => isDigitByte c ∨ c = 45 ∨ c = 46) && lib.stod text == some text.length

def readScalar (lib : ScalarText δ) (text : Str) : Json δ :=
  match lib.readBool text with
  | some value => .bool value
  | none =>
      match lib.readInteger text with
      | some value => .integer value
      | none =>
          match lib.readDouble text with
          | some value => .real value
          | none => .string text

end ScalarText

mutual
def yamlToJson (lib : ScalarText δ) : Yaml → Json δ
  | .null => .null
  | .scalar text => lib.readScalar text
  | .sequence nodes => .array (readNodes lib nodes)
  | .map pairs => .object (readPairs lib [] pairs)

def readNodes (lib : ScalarText δ) : List Yaml → List (Json δ)
  | [] => []
  | node :: nodes => yamlToJson lib node :: readNodes lib nodes

def readPairs (lib : ScalarText δ) (fields : List (Str × Json δ)) :
    List (Str × Yaml) → List (Str × Json δ)
  | [] => fields
  | (key, node) :: pairs => readPairs lib (assign key (yamlToJson lib node) fields) pairs
end

/-- `get<int64_t>` of a number from `-2^63` to `2^64 - 1`. -/
def getInt64 (value : Int) : Int := if value < 2 ^ 63 then value else value - 2 ^ 64

mutual
/-- Unsigned numbers are integers for `is_number_integer` too, so that every integer is taken as an
`int64_t`. -/
def jsonToYaml (lib : ScalarText δ) : Json δ → Yaml
  | .null => .null
  | .bool value => .scalar (if value then str "true" else str "false")
  | .integer value => .scalar (intDecimal (getInt64 value))
  | .real value => .scalar (lib.encodeDouble value)
  | .string value => .scalar value
  | .array items => writeItems lib .null items
  | .object fields => writeFields lib .null fields

def writeItems (lib : ScalarText δ) (node : Yaml) : List (Json δ) → Yaml
  | [] => node
  | item :: items => writeItems lib (node.pushBack (jsonToYaml lib item)) items

def writeFields (lib : ScalarText δ) (node : Yaml) : List (Str × Json δ) → Yaml
  | [] => node
  | (key, value) :: fields => writeFields lib (node.set key (jsonToYaml lib value)) fields
end

/-! ## Containers -/

section Containers

variable (lib : ScalarText δ)

theorem assign_new {α : Type} {key : Str} {value : α} {fields : List (Str × α)}
    (h : key ∉ fields.map Prod.fst) : assign key value fields = fields ++ [(key, value)] := by
  induction fields with
  | nil => rfl
  | cons field fields ih =>
    obtain ⟨hne, hrest⟩ := not_or.mp (mt List.mem_cons.mpr h)
    rw [assign, if_neg (Ne.symm hne), ih hrest, List.cons_append]

theorem readNodes_eq_map (nodes : List Yaml) :
    readNodes lib nodes = nodes.map (yamlToJson lib) := by
  induction nodes with
  | nil => rfl
  | cons node nodes ih => rw [readNodes, ih, List.map_cons]

theorem readPairs_append (fields : List (Str × Json δ)) (pairs : List (Str × Yaml))
    (h : (fields.map Prod.fst ++ pairs.map Prod.fst).Nodup) :
    readPairs lib fields pairs = fields ++ pairs.map (Prod.map id (yamlToJson lib)) := by
  induction pairs generalizing fields with
  | nil => simp [readPairs]
  | cons pair pairs ih =>
    obtain ⟨key, node⟩ := pair
    have hkey : key ∉ fields.map Prod.fst := fun hmem =>
      List.disjoint_of_nodup_append h hmem List.mem_cons_self
    rw [readPairs, assign_new hkey, ih _ (by simpa using h)]
    simp

theorem writeItems_sequence (nodes : List Yaml) (items : List (Json δ)) :
    writeItems lib (.sequence nodes) items = .sequence (nodes ++ items.map (jsonToYaml lib)) := by
  induction items generalizing nodes with
  | nil => simp [writeItems]
  | cons item items ih =>
    rw [writeItems, Yaml.pushBack, ih]
    simp

theorem writeFields_map (pairs : List (Str × Yaml)) (fields : List (Str × Json δ))
    (h : (pairs.map Prod.fst ++ fields.map Prod.fst).Nodup) :
    writeFields lib (.map pairs) fields =
      .map (pairs ++ fields.map (Prod.map id (jsonToYaml lib))) := by
  induction fields generalizing pairs with
  | nil => simp [writeFields]
  | cons field fields ih =>
    obtain ⟨key, value⟩ := field
    have hkey : key ∉ pairs.map Prod.fst := fun hmem =>
      List.disjoint_of_nodup_append h hmem List.mem_cons_self
    rw [writeFields, Yaml.set, assign_new hkey, ih _ (by simpa using h)]
    simp

def roundTrip (value : Json δ) : Json δ := yamlToJson lib (jsonToYaml lib value)

theorem roundTrip_array (item : Json δ) (items : List (Json δ)) :
    roundTrip lib (.array (item :: items)) = .array ((item :: items).map (roundTrip lib)) := by
  rw [roundTrip, jsonToYaml, writeItems, Yaml.pushBack_null, writeItems_sequence, yamlToJson,
    readNodes_eq_map]
  simp [roundTrip]

theorem roundTrip_object {fields : List (Str × Json δ)} (hne : fields ≠ [])
    (h : (fields.map Prod.fst).Nodup) :
    roundTrip lib (.object fields) = .object (fields.map (Prod.map id (roundTrip lib))) := by
  obtain ⟨⟨key, value⟩, fields, rfl⟩ := List.exists_cons_of_ne_nil hne
  rw [roundTrip, jsonToYaml, writeFields, Yaml.set_null, writeFields_map lib _ _ (by simpa using h),
    yamlToJson, readPairs_append lib _ _ (by simpa [Function.comp_def] using h)]
  simp [roundTrip, Function.comp_def]

end Containers

/-! ## Scalars -/

theorem head?_intDecimal (i : Int) : ∃ c, (intDecimal i).head? = some c ∧ isNumberByte c := by
  cases h : intDecimal i with
  | nil =>
    cases i with
    | ofNat n => exact absurd h (decimal_ne_nil n)
    | negSucc n => exact absurd h (List.cons_ne_nil _ _)
  | cons c rest =>
    exact ⟨c, rfl, isNumberByte_of_mem_intDecimal (i := i) (by rw [h]; exact List.mem_cons_self)⟩

set_option maxRecDepth 1024 in
theorem intDecimal_not_mem_boolWords (i : Int) : intDecimal i ∉ boolWords := by
  intro hmem
  have hwords : ∀ word ∈ boolWords, ∀ c ∈ word.head?, ¬ isNumberByte c := by decide
  obtain ⟨c, hhead, hc⟩ := head?_intDecimal i
  exact hwords _ hmem c hhead hc

section Scalars

variable (lib : ScalarText δ)

theorem readScalar_intDecimal {i : Int} (h : Fits i) :
    lib.readScalar (intDecimal i) = .integer i := by
  obtain ⟨c, hhead, hc⟩ := head?_intDecimal i
  have hbool : lib.readBool (intDecimal i) = none := by
    simp [ScalarText.readBool, intDecimal_not_mem_boolWords]
  have hinteger : lib.readInteger (intDecimal i) = some i := by
    unfold isNumberByte at hc
    simp [ScalarText.readInteger, lib.asInt64_decimal i h, lib.stoll_decimal i h, hhead, hc]
  simp only [ScalarText.readScalar, hbool, hinteger]

theorem readScalar_bool (value : Bool) :
    lib.readScalar (if value then str "true" else str "false") = .bool value := by
  have hread : lib.readBool (if value then str "true" else str "false") = some value := by
    cases value with
    | true => simp [ScalarText.readBool, lib.asBool_true, boolWords]
    | false => simp [ScalarText.readBool, lib.asBool_false, boolWords]
  simp only [ScalarText.readScalar, hread]

def ScalarText.Untyped (text : Str) : Prop :=
  lib.asBool text = none ∧ lib.asInt64 text = none ∧ lib.asDouble text = none

theorem readScalar_untyped {text : Str} (h : lib.Untyped text) :
    lib.readScalar text = .string text := by
  simp [ScalarText.readScalar, ScalarText.readBool, ScalarText.readInteger, ScalarText.readDouble,
    h.1, h.2.1, h.2.2]

end Scalars

theorem fits_getInt64 {i : Int} (hlow : -2 ^ 63 ≤ i) (hhigh : i < 2 ^ 64) : Fits (getInt64 i) := by
  unfold getInt64 Fits
  split
  · exact ⟨hlow, ‹_›⟩
  · omega

theorem getInt64_eq_self {i : Int} : getInt64 i = i ↔ i < 2 ^ 63 := by
  unfold getInt64
  split
  · exact iff_of_true rfl ‹_›
  · omega

/-! ## The round trip -/

/-- The values without floating point numbers and without strings that read as something else. -/
inductive Storable (lib : ScalarText δ) : Json δ → Prop
  | null : Storable lib .null
  | bool (value : Bool) : Storable lib (.bool value)
  | integer {value : Int} : -2 ^ 63 ≤ value → value < 2 ^ 64 → Storable lib (.integer value)
  | string {value : Str} : lib.Untyped value → Storable lib (.string value)
  | array {items : List (Json δ)} : (∀ item ∈ items, Storable lib item) →
      Storable lib (.array items)
  | object {fields : List (Str × Json δ)} : (fields.map Prod.fst).Nodup →
      (∀ field ∈ fields, Storable lib field.2) → Storable lib (.object fields)

/-- No array and no object in the value is empty, and its integers are below `2^63`. -/
inductive Kept : Json δ → Prop
  | null : Kept .null
  | bool (value : Bool) : Kept (.bool value)
  | integer {value : Int} : value < 2 ^ 63 → Kept (.integer value)
  | string (value : Str) : Kept (.string value)
  | array {items : List (Json δ)} : items ≠ [] → (∀ item ∈ items, Kept item) → Kept (.array items)
  | object {fields : List (Str × Json δ)} : fields ≠ [] → (∀ field ∈ fields, Kept field.2) →
      Kept (.object fields)

theorem kept_integer {value : Int} : Kept (.integer value : Json δ) ↔ value < 2 ^ 63 := by
  refine ⟨?_, .integer⟩
  rintro ⟨⟩
  assumption

theorem kept_array {items : List (Json δ)} :
    Kept (.array items) ↔ items ≠ [] ∧ ∀ item ∈ items, Kept item := by
  refine ⟨?_, fun h => .array h.1 h.2⟩
  rintro ⟨⟩
  exact ⟨‹_›, ‹_›⟩

theorem kept_object {fields : List (Str × Json δ)} :
    Kept (.object fields) ↔ fields ≠ [] ∧ ∀ field ∈ fields, Kept field.2 := by
  refine ⟨?_, fun h => .object h.1 h.2⟩
  rintro ⟨⟩
  exact ⟨‹_›, ‹_›⟩

theorem map_eq_self_iff {α : Type} {f : α → α} {l : List α} : l.map f = l ↔ ∀ a ∈ l, f a = a := by
  simpa using List.map_inj_left (f := f) (g := id) (l := l)

theorem json_round_trip_iff (lib : ScalarText δ) (value : Json δ) (h : Storable lib value) :
    yamlToJson lib (jsonToYaml lib value) = value ↔ Kept value := by
  change roundTrip lib value = value ↔ Kept value
  induction h with
  | null => exact iff_of_true (by rw [roundTrip, jsonToYaml, yamlToJson]) .null
  | bool value =>
    refine iff_of_true ?_ (.bool value)
    rw [roundTrip, jsonToYaml, yamlToJson, readScalar_bool]
  | @integer value hlow hhigh =>
    rw [roundTrip, jsonToYaml, yamlToJson, readScalar_intDecimal lib (fits_getInt64 hlow hhigh),
      kept_integer, Json.integer.injEq, getInt64_eq_self]
  | @string value huntyped =>
    refine iff_of_true ?_ (.string value)
    rw [roundTrip, jsonToYaml, yamlToJson, readScalar_untyped lib huntyped]
  | @array items _ ih =>
    rw [kept_array]
    cases items with
    | nil => simp [roundTrip, jsonToYaml, writeItems, yamlToJson]
    | cons item items =>
      rw [roundTrip_array, Json.array.injEq, map_eq_self_iff, and_iff_right (by simp)]
      exact forall₂_congr ih
  | @object fields hnodup _ ih =>
    rw [kept_object]
    by_cases hne : fields = []
    · simp [hne, roundTrip, jsonToYaml, writeFields, yamlToJson]
    · rw [roundTrip_object lib hne hnodup, Json.object.injEq, map_eq_self_iff, and_iff_right hne]
      refine forall₂_congr fun field hfield => ?_
      rw [← ih field hfield, Prod.ext_iff]
      simp

theorem exists_scalarText : Nonempty (ScalarText Unit) := by
  classical
  have hback : ∀ i, (if h : ∃ j, intDecimal j = intDecimal i then some h.choose else none) =
      some i := by
    intro i
    have hex : ∃ j, intDecimal j = intDecimal i := ⟨i, rfl⟩
    rw [dif_pos hex, intDecimal_injective hex.choose_spec]
  exact ⟨{
    asBool := fun text =>
      if text = str "true" then some true else if text = str "false" then some false else none
    asInt64 := fun text => if h : ∃ i, intDecimal i = text then some h.choose else none
    stoll := fun text => some text.length
    asDouble := fun _ => none
    stod := fun _ => none
    encodeDouble := fun _ => []
    asBool_true := rfl
    asBool_false := rfl
    asInt64_decimal := fun i _ => hback i
    stoll_decimal := fun _ _ => rfl }⟩

theorem json_round_trip_iff_of_limits :
    ∃ lib : ScalarText Unit,
      let value : Json Unit := .array [.integer (-2 ^ 63), .integer (2 ^ 63 - 1), .null]
      Storable lib value ∧ yamlToJson lib (jsonToYaml lib value) = value := by
  obtain ⟨lib⟩ := exists_scalarText
  have hstorable : Storable lib (.array [.integer (-2 ^ 63), .integer (2 ^ 63 - 1), .null]) := by
    refine .array ?_
    simp only [List.forall_mem_cons]
    exact ⟨.integer (by decide) (by decide), .integer (by decide) (by decide), .null, by simp⟩
  refine ⟨lib, hstorable, (json_round_trip_iff lib _ hstorable).mpr (.array (by simp) ?_)⟩
  simp only [List.forall_mem_cons]
  exact ⟨.integer (by decide), .integer (by decide), .null, by simp⟩

/-- An empty array and the largest unsigned number come back as something else. -/
theorem empty_array_not_read_back : Nonempty (ScalarText Unit) ∧
    ∀ lib : ScalarText Unit,
      Storable lib (.array []) ∧ yamlToJson lib (jsonToYaml lib (.array [])) = .null ∧
      Storable lib (.integer (2 ^ 64 - 1)) ∧
        yamlToJson lib (jsonToYaml lib (.integer (2 ^ 64 - 1))) = .integer (-1) := by
  refine ⟨exists_scalarText, fun lib => ?_⟩
  refine ⟨.array (by simp), ?_, .integer (by decide) (by decide), ?_⟩
  · rw [jsonToYaml, writeItems, yamlToJson]
  · rw [jsonToYaml, yamlToJson, readScalar_intDecimal lib (fits_getInt64 (by decide) (by decide))]
    rfl

end Medkit.Serialization
