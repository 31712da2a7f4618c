import Medkit.Lib.Bytes
import Medkit.Lib.OrderedMap

/-! Node ids in the node map. A node id has many spellings, and the map knows its entries by the
spelling they came with. -/
namespace Medkit.Opcua.NodeIds

open Lib

inductive NodeId where
  | numeric (ns identifier : Nat)
  | string (ns : Nat) (identifier : Str)
  | guid (ns : Nat) (bytes : List Nat)
  | byteString (ns : Nat) (bytes : Str)
deriving DecidableEq

namespace NodeId

def null : NodeId := .numeric 0 0

/-- `UA_NodeId_isNull`: every kind has a null id, in namespace 0. -/
def isNull : NodeId → Bool
  | numeric ns identifier => ns = 0 && identifier = 0
  | string ns identifier => ns = 0 && identifier = []
  | guid ns bytes => ns = 0 && bytes.all (· = 0)
  | byteString ns bytes => ns = 0 && bytes = []

def base64Digit (n : Nat) : Byte :=
  Fin.ofNat 256 (if n < 26 then 65 + n else if n < 52 then 71 + n else if n < 62 then n - 4
    else if n = 62 then 43 else 47)

def toBase64 : Str → Str
  | [] => []
  | [a] => [base64Digit (a.val / 4), base64Digit (a.val % 4 * 16), 61, 61]
  | [a, b] =>
      [base64Digit (a.val / 4), base64Digit (a.val % 4 * 16 + b.val / 16),
        base64Digit (b.val % 16 * 4), 61]
  | a :: b :: c :: rest =>
      base64Digit (a.val / 4) :: base64Digit (a.val % 4 * 16 + b.val / 16) ::
        base64Digit (b.val % 16 * 4 + c.val / 64) :: base64Digit (c.val % 64) :: toBase64 rest

def guidToString (bytes : List Nat) : Str :=
  let hex (bytes : List Nat) : Str :=
    bytes.flatMap fun n => [hexCharacter false (n / 16), hexCharacter false (n % 16)]
  [45].intercalate [hex (bytes.take 4), hex ((bytes.drop 4).take 2), hex ((bytes.drop 6).take 2),
    hex ((bytes.drop 8).take 2), hex (bytes.drop 10)]

def toString (id : NodeId) : Str :=
  let inNamespace (ns : Nat) (form : Str) : Str :=
    if ns = 0 then form else str "ns=" ++ decimal ns ++ str ";" ++ form
  match id with
  | numeric ns identifier => inNamespace ns (str "i=" ++ decimal identifier)
  | string ns identifier => inNamespace ns (str "s=" ++ identifier)
  | guid ns bytes => inNamespace ns (str "g=" ++ guidToString bytes)
  | byteString ns bytes => inNamespace ns (str "b=" ++ toBase64 bytes)

end NodeId

def splitSign : Str → Bool × Str
  | [] => (false, [])
  | c :: s => if c = 45 then (true, s) else if c = 43 then (false, s) else (false, c :: s)

/-- `std::stoul`: it skips spaces, takes a sign, ignores what follows the digits, and throws without
digits and beyond 64 bits. -/
def stoul (s : Str) : Option Nat :=
  let signed := splitSign (s.dropWhile isspace)
  let digits := signed.2.takeWhile (isDigitByte ·)
  let value := digits.foldl (fun n c => 10 * n + (c.val - 48)) 0
  if digits = [] ∨ 2 ^ 64 ≤ value then none
  else some (if signed.1 then (2 ^ 64 - value) % 2 ^ 64 else value)

def hexBytes : Str → Option (List Nat)
  | [] => some []
  | [_] => none
  | hi :: lo :: rest =>
      match hexValue hi, hexValue lo, hexBytes rest with
      | some h, some l, some bytes => some ((16 * h + l) :: bytes)
      | _, _, _ => none

def parseGuidHex (s : Str) : Option (List Nat) :=
  let clean :=
    if s.head? = some 123 ∧ s.getLast? = some 125 then (s.drop 1).take (s.length - 2) else s
  let hex := clean.filter (· ≠ 45)
  if clean.length = 36 ∧ (∀ p ∈ ([8, 13, 18, 23] : List Nat), clean[p]? = some 45) ∧ hex.length = 32
  then hexBytes hex else none

/-- The part of a node id from its type on; `fromBase64` is the decoder of the OPC UA library. -/
def parseIdentifier (fromBase64 : Str → Option Str) (ns : Nat) : Str → NodeId
  | typeChar :: eq :: identifier =>
      if eq ≠ 61 then .null
      else if typeChar = 105 then
        match stoul identifier with
        | some n => .numeric ns (n % 2 ^ 32)
        | none => .null
      else if typeChar = 115 then .string ns identifier
      else if typeChar = 103 then
        match parseGuidHex identifier with
        | some bytes => .guid ns bytes
        | none => .null
      else if typeChar = 98 then
        match fromBase64 identifier with
        | some bytes => .byteString ns bytes
        | none => .null
      else .null
  | _ => .null

def parseSeparated (fromBase64 : Str → Option Str) (ns : Str) : Str → NodeId
  | [] => .null
  | _ :: identifier =>
      match stoul ns with
      | none => .null
      | some n => parseIdentifier fromBase64 (n % 2 ^ 16) identifier

def parseNodeId (fromBase64 : Str → Option Str) (s : Str) : NodeId :=
  if str "ns=" <+: s then
    parseSeparated fromBase64 ((s.drop 3).takeWhile (· ≠ 59)) ((s.drop 3).dropWhile (· ≠ 59))
  else parseIdentifier fromBase64 0 s

/-- The id printed back, `none` for a spelling that does not parse. -/
def canonicalNodeId (fromBase64 : Str → Option Str) (s : Str) : Option Str :=
  if (parseNodeId fromBase64 s).isNull then none else some (parseNodeId fromBase64 s).toString

structure NodeMapEntry (α : Type) where
  nodeIdStr : Str
  fields : α

structure NodeMap (α : Type) where
  entries : List (NodeMapEntry α) := []
  nodeIdIndex : OMap Str Nat := ∅

variable {α : Type}

namespace NodeMap

def addEntry (map : NodeMap α) (entry : NodeMapEntry α) : NodeMap α :=
  if entry.nodeIdStr ∈ map.nodeIdIndex then map
  else
    { entries := map.entries ++ [entry]
      nodeIdIndex := map.nodeIdIndex.insert entry.nodeIdStr map.entries.length }

/-- The entries of the file that pass all other checks; those with an empty node id are skipped. -/
def load (file : List (NodeMapEntry α)) : NodeMap α :=
  (file.filter fun entry => entry.nodeIdStr ≠ []).foldl addEntry {}

def mergeAutoBrowsedEntries (map : NodeMap α) (entries : List (NodeMapEntry α)) : NodeMap α :=
  entries.foldl addEntry map

def findByNodeId (map : NodeMap α) (nodeIdStr : Str) : Option (NodeMapEntry α) :=
  (map.nodeIdIndex[nodeIdStr]?).bind fun idx => map.entries[idx]?

def build (file : List (NodeMapEntry α)) (lists : List (List (NodeMapEntry α))) : NodeMap α :=
  lists.foldl mergeAutoBrowsedEntries (load file)

end NodeMap

def offered (file : List (NodeMapEntry α)) (lists : List (List (NodeMapEntry α))) : List Str :=
  ((file.filter fun entry => entry.nodeIdStr ≠ []) ++ lists.flatten).map NodeMapEntry.nodeIdStr

/-! ## Spellings -/

section Spellings

def padding (k : Nat) : Str := List.replicate k 120

theorem eq_of_mem_head?_padding {k : Nat} {c : Byte} (h : c ∈ (padding k).head?) : c = 120 :=
  List.eq_of_mem_replicate (List.mem_of_mem_head? h)

theorem splitSign_append (s : Str) (k : Nat) :
    splitSign (s ++ padding k) = ((splitSign s).1, (splitSign s).2 ++ padding k) := by
  cases s with
  | nil => cases k with
    | zero => rfl
    | succ k => rfl
  | cons c s =>
    simp only [splitSign, List.cons_append]
    split
    · rfl
    · split <;> rfl

theorem stoul_append (s : Str) (k : Nat) : stoul (s ++ padding k) = stoul s := by
  have hspace : ∀ c ∈ (padding k).head?, isspace c = false := fun c hc =>
    eq_of_mem_head?_padding hc ▸ rfl
  have hdigit : ∀ c ∈ (padding k).head?, decide (isDigitByte c) = false := fun c hc =>
    eq_of_mem_head?_padding hc ▸ rfl
  simp only [stoul, dropWhile_append_stop s hspace, splitSign_append,
    takeWhile_append_stop _ hdigit]

def respell (k : Nat) (s : Str) : Str :=
  if str "ns=" <+: s then
    str "ns=" ++ ((s.drop 3).takeWhile (· ≠ 59) ++ padding k ++ (s.drop 3).dropWhile (· ≠ 59))
  else str "ns=" ++ ([48] ++ padding k ++ 59 :: s)

theorem length_respell (k : Nat) (s : Str) : (respell k s).length = (respell 0 s).length + k := by
  unfold respell
  split
  all_goals
    simp only [List.length_append, List.length_cons, padding, List.length_replicate]
    omega

theorem parseNodeId_padded (fromBase64 : Str → Option Str) {a d : Str} (k : Nat)
    (ha : ∀ c ∈ a, c ≠ 59) (hd : ∀ c ∈ d.head?, c = 59) :
    parseNodeId fromBase64 (str "ns=" ++ (a ++ padding k ++ d)) =
      parseSeparated fromBase64 a d := by
  have hpad : ∀ c ∈ a ++ padding k, decide (c ≠ 59) = true := by
    intro c hc
    rcases List.mem_append.mp hc with hc | hc
    · simpa using ha c hc
    · rw [List.eq_of_mem_replicate hc]
      rfl
  have hstop : ∀ c ∈ d.head?, decide (c ≠ 59) = false := fun c hc => by simpa using hd c hc
  have hlength : (str "ns=").length = 3 := by decide
  rw [parseNodeId, if_pos (List.prefix_append _ _), ← hlength, List.drop_left,
    takeWhile_append_stop _ hstop, dropWhile_append_stop _ hstop,
    List.takeWhile_eq_self_iff.mpr hpad, List.dropWhile_eq_nil_iff.mpr hpad, List.nil_append]
  cases d with
  | nil => rfl
  | cons c d => simp only [parseSeparated, stoul_append]

theorem parseNodeId_respell (fromBase64 : Str → Option Str) (k : Nat) (s : Str) :
    parseNodeId fromBase64 (respell k s) = parseNodeId fromBase64 s := by
  unfold respell
  split
  · rename_i hspace
    have htake : ∀ c ∈ (s.drop 3).takeWhile (· ≠ 59), c ≠ 59 := fun c hc heq =>
      not_mem_takeWhile_ne 59 _ (heq ▸ hc)
    rw [parseNodeId_padded fromBase64 k htake fun _ => eq_of_mem_head?_dropWhile, parseNodeId,
      if_pos hspace]
  · rename_i hspace
    have hzero : stoul [48] = some 0 := by simp [stoul, splitSign, isspace, isDigitByte]
    rw [parseNodeId_padded fromBase64 k (by simp) (by simp), parseNodeId, if_neg hspace]
    simp only [parseSeparated, hzero]
    rfl

theorem exists_respelling (s : Str) (texts : List Str) : ∃ k, respell k s ∉ texts := by
  by_contra! hall
  have hinj : Function.Injective fun k => respell k s := by
    intro k k' h
    have hlength := congrArg List.length h
    simp only [length_respell k, length_respell k'] at hlength
    omega
  refine (Set.infinite_range_of_injective hinj).mono ?_ texts.finite_toSet
  rintro _ ⟨k, rfl⟩
  exact hall k

end Spellings

/-! ## The map -/

namespace NodeMap

structure Indexed (map : NodeMap α) : Prop where
  index : ∀ (text : Str) (idx : Nat), map.nodeIdIndex[text]? = some idx ↔
    (map.entries.map NodeMapEntry.nodeIdStr)[idx]? = some text
  nodup : (map.entries.map NodeMapEntry.nodeIdStr).Nodup

theorem Indexed.mem_iff {map : NodeMap α} (h : Indexed map) (text : Str) :
    text ∈ map.nodeIdIndex ↔ text ∈ map.entries.map NodeMapEntry.nodeIdStr := by
  rw [Std.ExtTreeMap.mem_iff_isSome_getElem?, Option.isSome_iff_exists, List.mem_iff_getElem?]
  exact exists_congr fun idx => h.index text idx

theorem Indexed.addEntry {map : NodeMap α} (h : Indexed map) (entry : NodeMapEntry α) :
    Indexed (map.addEntry entry) := by
  unfold NodeMap.addEntry
  split
  · exact h
  · rename_i hnew
    rw [h.mem_iff] at hnew
    refine ⟨fun text idx => ?_, ?_⟩
    · rw [List.map_append, List.map_singleton, List.getElem?_append, List.length_map]
      by_cases htext : entry.nodeIdStr = text
      · subst htext
        rw [Std.ExtTreeMap.getElem?_insert_self]
        grind
      · rw [OMap.getElem?_insert_of_ne htext, h.index]
        grind
    · rw [List.map_append, List.map_singleton, ← List.concat_eq_append, List.nodup_concat]
      exact ⟨hnew, h.nodup⟩

theorem foldl_addEntry {map : NodeMap α} (h : Indexed map) (entries : List (NodeMapEntry α)) :
    Indexed (entries.foldl addEntry map) ∧
      map.entries <+: (entries.foldl addEntry map).entries ∧
      ∀ text, text ∈ (entries.foldl addEntry map).entries.map NodeMapEntry.nodeIdStr ↔
        text ∈ (map.entries ++ entries).map NodeMapEntry.nodeIdStr := by
  induction entries generalizing map with
  | nil => exact ⟨h, List.prefix_refl _, by simp⟩
  | cons entry entries ih =>
    obtain ⟨hindexed, hkept, htexts⟩ := ih (h.addEntry entry)
    have hone : map.entries <+: (map.addEntry entry).entries ∧
        ∀ text, text ∈ (map.addEntry entry).entries.map NodeMapEntry.nodeIdStr ↔
          text ∈ (map.entries ++ [entry]).map NodeMapEntry.nodeIdStr := by
      unfold NodeMap.addEntry
      split
      · rename_i hold
        rw [h.mem_iff] at hold
        refine ⟨List.prefix_refl _, fun text => ?_⟩
        simp only [List.map_append, List.map_singleton, List.mem_append, List.mem_singleton]
        grind
      · exact ⟨List.prefix_append _ _, fun _ => Iff.rfl⟩
    refine ⟨hindexed, hone.1.trans hkept, fun text => ?_⟩
    rw [List.foldl_cons, htexts]
    simp only [List.map_append, List.mem_append, hone.2, List.map_cons, List.mem_cons,
      List.map_nil, List.not_mem_nil, or_false, or_assoc]

theorem build_eq (file : List (NodeMapEntry α)) (lists : List (List (NodeMapEntry α))) :
    build file lists = lists.flatten.foldl addEntry (load file) := by
  rw [List.foldl_flatten]
  rfl

theorem indexed_empty : Indexed ({} : NodeMap α) := ⟨by simp, by simp⟩

theorem indexed_build (file : List (NodeMapEntry α)) (lists : List (List (NodeMapEntry α))) :
    Indexed (build file lists) ∧ (load file).entries <+: (build file lists).entries ∧
      ∀ text, text ∈ (build file lists).entries.map NodeMapEntry.nodeIdStr ↔
        text ∈ offered file lists := by
  obtain ⟨hload, -, hfile⟩ := foldl_addEntry (α := α) indexed_empty
    (file.filter fun entry => entry.nodeIdStr ≠ [])
  obtain ⟨hbuild, hkept, htexts⟩ := foldl_addEntry hload lists.flatten
  rw [build_eq, load]
  refine ⟨hbuild, hkept, fun text => ?_⟩
  rw [htexts, List.map_append, List.mem_append, hfile, offered, List.map_append, List.mem_append]
  simp

theorem Indexed.find_eq_none {map : NodeMap α} (h : Indexed map) {text : Str}
    (htext : text ∉ map.entries.map NodeMapEntry.nodeIdStr) : map.findByNodeId text = none := by
  rw [← h.mem_iff, Std.ExtTreeMap.mem_iff_isSome_getElem?, Option.not_isSome_iff_eq_none] at htext
  rw [findByNodeId, htext, Option.bind_none]

theorem Indexed.find_ne_none {map : NodeMap α} (h : Indexed map) {entry : NodeMapEntry α}
    (hentry : entry ∈ map.entries) : map.findByNodeId entry.nodeIdStr ≠ none := by
  obtain ⟨idx, hidx⟩ := List.mem_iff_getElem?.mp hentry
  have hindex : map.nodeIdIndex[entry.nodeIdStr]? = some idx := by
    rw [h.index, List.getElem?_map, hidx]
    rfl
  rw [findByNodeId, hindex, Option.bind_some, hidx]
  exact Option.some_ne_none entry

end NodeMap

open NodeMap in
/-- The entries of the file stay as they are. No two entries denote one node exactly if no node is
offered in two spellings, and all spellings of a node have one answer exactly if nothing is offered
at all. -/
theorem node_map_ids (fromBase64 : Str → Option Str) (file : List (NodeMapEntry α))
    (lists : List (List (NodeMapEntry α))) :
    let map := build file lists
    (load file).entries <+: map.entries ∧
      (map.entries.Pairwise (fun a b =>
          parseNodeId fromBase64 a.nodeIdStr ≠ parseNodeId fromBase64 b.nodeIdStr) ↔
        ∀ s ∈ offered file lists, ∀ t ∈ offered file lists,
          parseNodeId fromBase64 s = parseNodeId fromBase64 t → s = t) ∧
      ((∀ s t, parseNodeId fromBase64 s = parseNodeId fromBase64 t →
          map.findByNodeId s = map.findByNodeId t) ↔
        offered file lists = []) := by
  intro map
  obtain ⟨hindexed, hkept, htexts⟩ := indexed_build file lists
  refine ⟨hkept, ?_, ?_⟩
  · have hmap : (map.entries.map fun entry => parseNodeId fromBase64 entry.nodeIdStr) =
        (map.entries.map NodeMapEntry.nodeIdStr).map (parseNodeId fromBase64) := by
      rw [List.map_map]
      rfl
    have hpairwise := List.nodup_map_iff_inj_on hindexed.nodup (f := parseNodeId fromBase64)
    rw [← hmap, List.nodup_iff_pairwise_ne, List.pairwise_map] at hpairwise
    rw [hpairwise]
    simp only [htexts]
  · constructor
    · intro halike
      by_contra hne
      obtain ⟨s, hs⟩ := List.exists_mem_of_ne_nil _ hne
      obtain ⟨entry, hentry, rfl⟩ := List.mem_map.mp ((htexts s).mpr hs)
      obtain ⟨k, hk⟩ := exists_respelling entry.nodeIdStr (map.entries.map NodeMapEntry.nodeIdStr)
      refine hindexed.find_ne_none hentry ?_
      rw [← hindexed.find_eq_none hk]
      exact halike _ _ (parseNodeId_respell fromBase64 k _).symm
    · intro hempty s t _
      have hnone : ∀ text, map.findByNodeId text = none := fun text =>
        hindexed.find_eq_none fun hmem => by simpa [hempty] using (htexts text).mp hmem
      rw [hnone, hnone]

/-- The file maps `i=85`; the walk of the server offers `ns=0;i=85`. -/
theorem respelled_node_twice :
    let fromBase64 : Str → Option Str := fun _ => none
    let map := NodeMap.build [⟨str "i=85", true⟩] [[⟨str "ns=0;i=85", false⟩]]
    map.entries.map NodeMapEntry.nodeIdStr = [str "i=85", str "ns=0;i=85"] ∧
      parseNodeId fromBase64 (str "i=85") = parseNodeId fromBase64 (str "ns=0;i=85") ∧
      (map.findByNodeId (str "i=85")).map NodeMapEntry.fields = some true ∧
      (map.findByNodeId (str "ns=0;i=85")).map NodeMapEntry.fields = some false := by
  decide

end Medkit.Opcua.NodeIds
