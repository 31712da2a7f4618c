import Medkit.Lib.JsonText

/-! The token request as form data: how the gateway reads it, and that it reads back what a client
has rendered. -/
namespace Medkit.Gateway.AuthModels

open Lib

structure AuthorizeRequest where
  grantType : Str := []
  clientId : Option Str := none
  clientSecret : Option Str := none
  refreshToken : Option Str := none
  scope : Option Str := none

/-! ## Reading -/

def hexNumber (text : Str) : Nat :=
  ((text.map hexValue).takeWhile Option.isSome).reduceOption.foldl (16 * · + ·) 0

/-- The number that a stream reads from a text in base 16: blanks are skipped, a sign is read, and
without a digit the number is zero. Two characters have no room for digits behind `0x`. -/
def readHex (text : Str) : Int :=
  let signed := text.dropWhile isspace
  if signed.head? = some 43 then hexNumber signed.tail
  else if signed.head? = some 45 then -hexNumber signed.tail
  else hexNumber signed

def urlDecode : Str → Str
  | [] => []
  | 37 :: high :: low :: rest => Fin.ofNat 256 (readHex [high, low] % 256).toNat :: urlDecode rest
  | c :: rest => (if c = 43 then 32 else c) :: urlDecode rest

/-- What is between the separators; a body that ends in one has nothing behind it. -/
def pairs (body : Str) : List Str :=
  let pieces := body.splitOn 38
  if pieces.getLast? = some [] then pieces.dropLast else pieces

def AuthorizeRequest.assign (req : AuthorizeRequest) (key value : Str) : AuthorizeRequest :=
  if key = str "grant_type" then { req with grantType := value }
  else if key = str "client_id" then { req with clientId := some value }
  else if key = str "client_secret" then { req with clientSecret := some value }
  else if key = str "refresh_token" then { req with refreshToken := some value }
  else if key = str "scope" then { req with scope := some value }
  else req

def AuthorizeRequest.readPair (req : AuthorizeRequest) (pair : Str) : AuthorizeRequest :=
  if 61 ∈ pair then
    req.assign (urlDecode (pair.takeWhile (· ≠ 61))) (urlDecode (pair.dropWhile (· ≠ 61)).tail)
  else req

def AuthorizeRequest.fromFormData (body : Str) : AuthorizeRequest :=
  (pairs body).foldl AuthorizeRequest.readPair {}

/-! ## Rendering -/

/-- The ways to render form data: which bytes stand for themselves, whether a blank becomes a plus,
and the case of the hexadecimal digits. The four bytes that have a meaning are always escaped. -/
structure FormEncoding where
  literal : Byte → Bool
  plusForBlank : Bool
  upperCase : Bool
  reserved : ∀ b, literal b = true → b ≠ 37 ∧ b ≠ 38 ∧ b ≠ 43 ∧ b ≠ 61

def standardLiteral (b : Byte) : Bool := isAlnumByte b || b = 42 || b = 45 || b = 46 || b = 95

theorem standardLiteral_reserved (b : Byte) (h : standardLiteral b = true) :
    b ≠ 37 ∧ b ≠ 38 ∧ b ≠ 43 ∧ b ≠ 61 := by
  have excluded (c : Byte) (hc : standardLiteral c = false) : b ≠ c := by
    intro same
    rw [same, hc] at h
    cases h
  exact ⟨excluded 37 rfl, excluded 38 rfl, excluded 43 rfl, excluded 61 rfl⟩

def FormEncoding.standard : FormEncoding := ⟨standardLiteral, true, true, standardLiteral_reserved⟩

def FormEncoding.encodeByte (encoding : FormEncoding) (b : Byte) : Str :=
  if encoding.literal b then [b]
  else if b = 32 ∧ encoding.plusForBlank then [43]
  else [37, hexCharacter encoding.upperCase (b.val / 16),
    hexCharacter encoding.upperCase (b.val % 16)]

def FormEncoding.encode (encoding : FormEncoding) (text : Str) : Str :=
  text.flatMap encoding.encodeByte

inductive Field
  | grantType | clientId | clientSecret | refreshToken | scope
deriving DecidableEq

def Field.name : Field → Str
  | .grantType => str "grant_type"
  | .clientId => str "client_id"
  | .clientSecret => str "client_secret"
  | .refreshToken => str "refresh_token"
  | .scope => str "scope"

def FormEncoding.renderField (encoding : FormEncoding) (field : Field × Str) : Str :=
  encoding.encode field.1.name ++ 61 :: encoding.encode field.2

def FormEncoding.render (encoding : FormEncoding) (assignment : List (Field × Str)) : Str :=
  [38].intercalate (assignment.map encoding.renderField)

def AuthorizeRequest.overlaid (req : AuthorizeRequest) (assignment : List (Field × Str)) :
    AuthorizeRequest where
  grantType := (assignment.lookup .grantType).getD req.grantType
  clientId := (assignment.lookup .clientId).or req.clientId
  clientSecret := (assignment.lookup .clientSecret).or req.clientSecret
  refreshToken := (assignment.lookup .refreshToken).or req.refreshToken
  scope := (assignment.lookup .scope).or req.scope

/-! ## Decoding what was encoded -/

theorem hexValue_hexCharacter (upperCase : Bool) (n : Fin 16) :
    hexValue (hexCharacter upperCase n) = some n.val ∧
      isspace (hexCharacter upperCase n) = false ∧ hexCharacter upperCase n ≠ 43 ∧
      hexCharacter upperCase n ≠ 45 ∧ hexCharacter upperCase n ≠ 38 ∧
      hexCharacter upperCase n ≠ 61 := by
  revert upperCase n
  decide

theorem readHex_escape (upperCase : Bool) (high low : Fin 16) :
    readHex [hexCharacter upperCase high, hexCharacter upperCase low] = 16 * high + low := by
  obtain ⟨hhigh, blank, plus, minus, -⟩ := hexValue_hexCharacter upperCase high
  have hlow := (hexValue_hexCharacter upperCase low).1
  unfold readHex
  rw [List.dropWhile_cons_of_neg (by simp [blank]), if_neg (by simpa using plus),
    if_neg (by simpa using minus)]
  simp [hexNumber, hhigh, hlow, List.reduceOption]

theorem urlDecode_escape (upperCase : Bool) (b : Byte) (rest : Str) :
    urlDecode (37 :: hexCharacter upperCase (b.val / 16) ::
      hexCharacter upperCase (b.val % 16) :: rest) = b :: urlDecode rest := by
  rw [urlDecode]
  congr 1
  have value := readHex_escape upperCase ⟨b.val / 16, by omega⟩ ⟨b.val % 16, by omega⟩
  rw [value]
  apply Fin.ext
  have bound := b.isLt
  simp only [Fin.ofNat]
  omega

theorem urlDecode_cons {c : Byte} (rest : Str) (h : c ≠ 37) :
    urlDecode (c :: rest) = (if c = 43 then 32 else c) :: urlDecode rest := by
  rw [urlDecode]
  intro _ _ _ percent
  exact absurd percent h

variable (encoding : FormEncoding)

theorem urlDecode_encodeByte (b : Byte) (rest : Str) :
    urlDecode (encoding.encodeByte b ++ rest) = b :: urlDecode rest := by
  unfold FormEncoding.encodeByte
  split_ifs with literal blank
  · obtain ⟨percent, -, plus, -⟩ := encoding.reserved b literal
    rw [List.singleton_append, urlDecode_cons rest percent, if_neg plus]
  · rw [List.singleton_append, urlDecode_cons rest (by decide), if_pos rfl, blank.1]
  · exact urlDecode_escape ..

theorem urlDecode_encode (text : Str) : urlDecode (encoding.encode text) = text := by
  induction text with
  | nil => rfl
  | cons b text ih =>
    change urlDecode (encoding.encodeByte b ++ encoding.encode text) = b :: text
    rw [urlDecode_encodeByte, ih]

theorem not_mem_encode (text : Str) : 38 ∉ encoding.encode text ∧ 61 ∉ encoding.encode text := by
  have bytes (b : Byte) : 38 ∉ encoding.encodeByte b ∧ 61 ∉ encoding.encodeByte b := by
    have high := (hexValue_hexCharacter encoding.upperCase ⟨b.val / 16, by omega⟩).2.2.2.2
    have low := (hexValue_hexCharacter encoding.upperCase ⟨b.val % 16, by omega⟩).2.2.2.2
    unfold FormEncoding.encodeByte
    split_ifs with literal
    · have reserved := encoding.reserved b literal
      simp [Ne.symm reserved.2.1, Ne.symm reserved.2.2.2]
    · decide
    · simp [Ne.symm high.1, Ne.symm high.2, Ne.symm low.1, Ne.symm low.2]
  simp only [FormEncoding.encode, List.mem_flatMap, not_exists, not_and]
  exact ⟨fun b _ => (bytes b).1, fun b _ => (bytes b).2⟩

/-! ## Reading what was rendered -/

theorem readPair_renderField (req : AuthorizeRequest) (field : Field × Str) :
    req.readPair (encoding.renderField field) = req.assign field.1.name field.2 := by
  have key := (not_mem_encode encoding field.1.name).2
  have keyBytes : ∀ b ∈ encoding.encode field.1.name, b ≠ 61 := fun b hb same => key (same ▸ hb)
  unfold AuthorizeRequest.readPair FormEncoding.renderField
  rw [if_pos (List.mem_append_right _ List.mem_cons_self),
    takeWhile_append_cons (· ≠ 61) _ keyBytes (by simp),
    List.dropWhile_append_of_pos (by simpa using keyBytes),
    List.dropWhile_cons_of_neg (by simp), List.tail_cons, urlDecode_encode, urlDecode_encode]

theorem pairs_render (assignment : List (Field × Str)) :
    pairs (encoding.render assignment) = assignment.map encoding.renderField := by
  by_cases empty : assignment = []
  · rw [empty]
    rfl
  have nonempty : assignment.map encoding.renderField ≠ [] := by simpa using empty
  have separated : ∀ piece ∈ assignment.map encoding.renderField, 38 ∉ piece := by
    intro piece hpiece
    obtain ⟨field, -, rfl⟩ := List.mem_map.mp hpiece
    have key := (not_mem_encode encoding field.1.name).1
    have value := (not_mem_encode encoding field.2).1
    simp [FormEncoding.renderField, key, value]
  have last : (assignment.map encoding.renderField).getLast? ≠ some [] := by
    intro h
    obtain ⟨field, -, hfield⟩ := List.mem_map.mp (List.mem_of_getLast? h)
    simp [FormEncoding.renderField] at hfield
  unfold pairs FormEncoding.render
  rw [List.splitOn_intercalate 38 separated nonempty, if_neg last]

theorem assign_name (req : AuthorizeRequest) (field : Field) (value : Str) :
    req.assign field.name value = req.overlaid [(field, value)] := by
  cases field <;> rfl

theorem foldl_assign (assignment : List (Field × Str)) (req : AuthorizeRequest)
    (distinct : (assignment.map Prod.fst).Nodup) :
    assignment.foldl (fun req field => req.assign field.1.name field.2) req =
      req.overlaid assignment := by
  induction assignment generalizing req with
  | nil => rfl
  | cons field assignment ih =>
    obtain ⟨name, value⟩ := field
    rw [List.map_cons, List.nodup_cons] at distinct
    -- the value of a field is given once, so the first and the last one are the same
    have merged (other : Field) : ((name, value) :: assignment).lookup other =
        (assignment.lookup other).or ([(name, value)].lookup other) := by
      by_cases same : other = name
      · subst same
        have absent : assignment.lookup other = none := by
          rw [List.lookup_eq_none_iff]
          intro entry hentry
          rw [bne_iff_ne]
          exact fun same => distinct.1 (List.mem_map.mpr ⟨entry, hentry, same.symm⟩)
        rw [absent, List.lookup_cons_self, List.lookup_cons_self, Option.none_or]
      · simp [List.lookup, beq_eq_false_iff_ne.mpr same]
    rw [List.foldl_cons, ih _ distinct.2, assign_name]
    simp only [AuthorizeRequest.overlaid, merged, Option.or_assoc, Option.getD_or]

/-- A request that was rendered as form data is read back with exactly the values it was given. -/
theorem from_form_data_rendered (assignment : List (Field × Str))
    (distinct : (assignment.map Prod.fst).Nodup) :
    AuthorizeRequest.fromFormData (encoding.render assignment) =
      AuthorizeRequest.overlaid {} assignment := by
  unfold AuthorizeRequest.fromFormData
  rw [pairs_render, List.foldl_map]
  simp only [readPair_renderField]
  exact foldl_assign assignment {} distinct

theorem from_form_data_rendered_separators :
    [Field.scope, .clientId, .grantType, .refreshToken, .clientSecret].Nodup ∧
      AuthorizeRequest.fromFormData (FormEncoding.standard.render
        [(.scope, str "a b"), (.clientId, str "x&y=z"), (.grantType, str "100%+"),
          (.refreshToken, []), (.clientSecret, [0, 255])]) =
        ⟨str "100%+", some (str "x&y=z"), some [0, 255], some [], some (str "a b")⟩ :=
  ⟨by decide, from_form_data_rendered _ _ (by decide)⟩

end Medkit.Gateway.AuthModels
