import Medkit.Lib.Bytes

/-! The JSON arrays of strings that the SQLite backend keeps in text columns: the
writer, the lenient reader, and the round trip. -/
namespace Medkit.FaultManager

open Lib

def escapeByte (b : Byte) : Str :=
  if b = 34 then [92, 34]
  else if b = 92 then [92, 92]
  else if b = 8 then [92, 98]
  else if b = 12 then [92, 102]
  else if b = 10 then [92, 110]
  else if b = 13 then [92, 114]
  else if b = 9 then [92, 116]
  else [b]

def quoteString (s : Str) : Str := 34 :: (s.flatMap escapeByte ++ [34])

def joinElements : List Str → Str
  | [] => []
  | [s] => quoteString s
  | s :: rest => quoteString s ++ 44 :: joinElements rest

def serializeJsonArray (vec : List Str) : Str := 91 :: (joinElements vec ++ [93])

/-- The byte that stands for `escaped` behind a backslash; one without a meaning
is kept as it is. -/
def unescapeByte (escaped : Byte) : Byte :=
  if escaped = 98 then 8
  else if escaped = 102 then 12
  else if escaped = 110 then 10
  else if escaped = 114 then 13
  else if escaped = 116 then 9
  else escaped

/-- Read up to the closing quote, which stays in the remainder. A backslash at
the very end of the input stands for itself. -/
def parseString : Str → Str × Str
  | [] => ([], [])
  | c :: rest =>
      if c = 34 then ([], c :: rest)
      else if c = 92 then
        match rest with
        | [] => ([c], [])
        | escaped :: rest' =>
            let (value, tail) := parseString rest'
            (unescapeByte escaped :: value, tail)
      else
        let (value, tail) := parseString rest
        (c :: value, tail)

/-- The element loop. Every round consumes a byte, so the length of the content
bounds the number of rounds. -/
def parseElements : Nat → Str → List Str
  | 0, _ => []
  | fuel + 1, content =>
      match content.dropWhile isspace with
      | [] => []
      | c :: body =>
          if c = 34 then
            let (value, rest) := parseString body
            value :: parseElements fuel ((rest.drop 1).dropWhile fun b => isspace b || b = 44)
          else []

def parseJsonArray (json : Str) : List Str :=
  if json.length < 2 || json.head? ≠ some 91 || json.getLast? ≠ some 93 then []
  else
    let content := (json.drop 1).dropLast
    parseElements content.length content

theorem parseString_quote (rest : Str) : parseString (34 :: rest) = ([], 34 :: rest) := by
  unfold parseString
  rw [if_pos rfl]

theorem parseString_escapeByte (b : Byte) (rest : Str) :
    parseString (escapeByte b ++ rest) =
      (b :: (parseString rest).1, (parseString rest).2) := by
  have hescape (e : Byte) : parseString (92 :: e :: rest) =
      (unescapeByte e :: (parseString rest).1, (parseString rest).2) := rfl
  unfold escapeByte
  split_ifs with h₁ h₂
  -- the seven escapes invert; every other byte is read as it stands
  all_goals first
    | (subst b; exact hescape _)
    | simp only [List.singleton_append, parseString.eq_def (b :: rest), if_neg h₁, if_neg h₂]

theorem parseString_append_quote (s tail : Str) :
    parseString (s.flatMap escapeByte ++ 34 :: tail) = (s, 34 :: tail) := by
  induction s with
  | nil => exact parseString_quote tail
  | cons b s ih =>
    rw [List.flatMap_cons, List.append_assoc, parseString_escapeByte, ih]

theorem quoteString_injective : Function.Injective quoteString := by
  intro s t h
  have hparse (x : Str) : (parseString ((quoteString x).drop 1)).1 = x := by
    simp [quoteString, parseString_append_quote]
  rw [← hparse s, h, hparse t]

theorem length_le_joinElements (vec : List Str) : vec.length ≤ (joinElements vec).length := by
  fun_induction joinElements vec with
  | case1 => simp
  | case2 s => simp [quoteString]
  | case3 s rest _ ih =>
    simp only [List.length_cons, List.length_append, quoteString]
    omega

theorem parseElements_joinElements {vec : List Str} {fuel : Nat} (hfuel : vec.length ≤ fuel) :
    parseElements fuel (joinElements vec) = vec := by
  induction vec generalizing fuel with
  | nil => cases fuel <;> simp [parseElements, joinElements]
  | cons s rest ih =>
    obtain ⟨fuel, rfl⟩ : ∃ n, fuel = n + 1 := ⟨fuel - 1, by simp at hfuel; omega⟩
    have hopen (tail : Str) : (quoteString s ++ tail).dropWhile isspace =
        34 :: (s.flatMap escapeByte ++ 34 :: tail) := by
      simp [quoteString, isspace]
    cases rest with
    | nil =>
      have hopen := hopen []
      rw [List.append_nil] at hopen
      simp only [joinElements, parseElements, hopen, parseString_append_quote]
      cases fuel <;> simp [parseElements]
    | cons s' rest' =>
      -- the loop skips the comma and stops at the next opening quote
      have hnext : (44 :: joinElements (s' :: rest')).dropWhile
          (fun b => isspace b || b = 44) = joinElements (s' :: rest') := by
        cases rest' <;> simp [joinElements, quoteString, isspace]
      simp only [joinElements, parseElements, hopen, parseString_append_quote]
      simp only [List.drop_succ_cons, List.drop_zero, if_true]
      rw [hnext, ih (by simpa using hfuel)]

theorem parseJsonArray_brackets (content : Str) :
    parseJsonArray (91 :: (content ++ [93])) = parseElements content.length content := by
  have hlast : (91 :: (content ++ [93])).getLast? = some 93 := by
    simp [List.getLast?_cons, List.getLast?_append]
  unfold parseJsonArray
  rw [hlast, if_neg (by simp), List.drop_succ_cons, List.drop_zero, List.dropLast_concat]

/-- Whatever bytes the strings hold, reading the column gives back what was written. -/
theorem json_array_round_trip (vec : List Str) :
    parseJsonArray (serializeJsonArray vec) = vec := by
  rw [serializeJsonArray, parseJsonArray_brackets,
    parseElements_joinElements (length_le_joinElements vec)]

/-! ## NUL bytes -/

theorem escapeByte_ne_zero {b c : Byte} (hb : b ≠ 0) (hc : c ∈ escapeByte b) : c ≠ 0 := by
  unfold escapeByte at hc
  split_ifs at hc <;> simp at hc <;> grind

theorem zero_notMem_quoteString {s : Str} (h : (0 : Byte) ∉ s) : (0 : Byte) ∉ quoteString s := by
  intro hmem
  simp only [quoteString, List.mem_cons, List.mem_append, List.mem_flatMap, List.not_mem_nil,
    or_false] at hmem
  rcases hmem with h0 | ⟨b, hb, hb0⟩ | h0
  · exact absurd h0 (by decide)
  · exact escapeByte_ne_zero (fun hzero => h (hzero ▸ hb)) hb0 rfl
  · exact absurd h0 (by decide)

theorem zero_notMem_serializeJsonArray {vec : List Str} (h : ∀ s ∈ vec, (0 : Byte) ∉ s) :
    (0 : Byte) ∉ serializeJsonArray vec := by
  have hjoin : (0 : Byte) ∉ joinElements vec := by
    fun_induction joinElements vec with
    | case1 => simp
    | case2 s => exact zero_notMem_quoteString (h s (by simp))
    | case3 s rest _ ih =>
      have hs := zero_notMem_quoteString (h s (by simp))
      have hrest := ih fun s' hs' => h s' (by simp [hs'])
      simp [hs, hrest]
  simp [serializeJsonArray, hjoin]

end Medkit.FaultManager
