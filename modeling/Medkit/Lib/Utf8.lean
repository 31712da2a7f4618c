import Medkit.Lib.Bytes

/-! Which byte strings encode a text. ASCII bytes do, wherever they are cut. -/
namespace Lib

def bytesOf (s : Str) : ByteArray := ⟨(s.map UInt8.ofFin).toArray⟩

theorem validUtf8_iff {s : Str} : ValidUtf8 s ↔ (bytesOf s).validateUTF8 = true := by
  rw [ByteArray.validateUTF8_eq_true_iff]
  constructor
  · rintro ⟨text, rfl⟩
    have hbytes : bytesOf (str text) = text.toByteArray := by
      apply ByteArray.ext
      simp [bytesOf, str, String.toUTF8, Function.comp_def]
    rw [hbytes]
    exact text.isValidUTF8
  · intro hvalid
    refine ⟨String.ofByteArray (bytesOf s) hvalid, ?_⟩
    simp [bytesOf, str, String.toUTF8, Function.comp_def]

instance decidableValidUtf8 : DecidablePred ValidUtf8 := fun _ => decidable_of_iff _ validUtf8_iff.symm

def IsAscii (s : Str) : Prop := ∀ b ∈ s, b.val < 128
deriving Decidable

theorem isAscii_nil : IsAscii [] := nofun

theorem IsAscii.append {s t : Str} (hs : IsAscii s) (ht : IsAscii t) : IsAscii (s ++ t) := by
  intro b hb
  rcases List.mem_append.mp hb with hb | hb
  · exact hs b hb
  · exact ht b hb

theorem IsAscii.take {s : Str} (hs : IsAscii s) (n : Nat) : IsAscii (s.take n) :=
  fun b hb => hs b (List.mem_of_mem_take hb)

theorem isAscii_decimal (n : Nat) : IsAscii (decimal n) := by
  intro b hb
  have hdigit := isDigitByte_of_mem_decimal hb
  unfold isDigitByte at hdigit
  omega

theorem utf8EncodeChar_of_ascii {b : Byte} (h : b.val < 128) :
    String.utf8EncodeChar (Char.ofNat b.val) = [UInt8.ofFin b] := by
  have hvalid : b.val.isValidChar := .inl (by omega)
  have hval : (Char.ofNat b.val).val.toNat = b.val := (Char.toNat_ofNat b.val).trans (if_pos hvalid)
  rw [String.utf8EncodeChar, hval, if_pos (by omega)]
  congr 1
  exact UInt8.toNat_inj.mp (by simp)

theorem IsAscii.validUtf8 {s : Str} (h : IsAscii s) : ValidUtf8 s := by
  rw [validUtf8_iff, ByteArray.validateUTF8_eq_true_iff]
  refine ⟨s.map fun b => Char.ofNat b.val, ?_⟩
  have hencode : (s.map fun b => Char.ofNat b.val).flatMap String.utf8EncodeChar =
      s.map UInt8.ofFin := by
    rw [List.flatMap_map, List.map_eq_flatMap]
    exact List.flatMap_congr fun b hb => utf8EncodeChar_of_ascii (h b hb)
  apply ByteArray.ext
  rw [List.utf8Encode, hencode, List.data_toByteArray]
  rfl

theorem isAscii_ofList {chars : List Char} (h : chars.all (fun c => c.toNat < 128) = true) :
    IsAscii (str (String.ofList chars)) := by
  intro b hb
  obtain ⟨byte, hbyte, rfl⟩ := List.mem_map.mp hb
  simp only [String.toUTF8, String.ofList, List.utf8Encode, List.data_toByteArray] at hbyte
  obtain ⟨c, hc, hbyte⟩ := List.mem_flatMap.mp hbyte
  have hascii : c.val.toNat < 128 := by simpa using List.all_eq_true.mp h c hc
  rw [String.utf8EncodeChar, if_pos (by omega), List.mem_singleton] at hbyte
  subst hbyte
  change c.val.toNat % 256 < 128
  omega

/-! ## Escaping -/

theorem validUtf8_singleton {b : Byte} (h : b.val < 128) : ValidUtf8 [b] := by
  apply IsAscii.validUtf8
  intro c hc
  cases List.mem_singleton.mp hc
  exact h

theorem ValidUtf8.append {s t : Str} (hs : ValidUtf8 s) (ht : ValidUtf8 t) :
    ValidUtf8 (s ++ t) := by
  obtain ⟨first, rfl⟩ := hs
  obtain ⟨second, rfl⟩ := ht
  refine ⟨first ++ second, ?_⟩
  simp [str, String.toUTF8]

def charBytes (c : Char) : Str := (String.utf8EncodeChar c).map UInt8.toFin

theorem str_ofList (chars : List Char) : str (String.ofList chars) = chars.flatMap charBytes := by
  simp only [str, String.toUTF8, String.ofList, List.utf8Encode, List.data_toByteArray,
    List.map_flatMap]
  rfl

theorem charBytes_cases (c : Char) :
    IsAscii (charBytes c) ∨ ∀ b ∈ charBytes c, 128 ≤ b.val := by
  have hval (n : Nat) : (UInt8.ofNat n).toFin.val = n % 256 := rfl
  unfold charBytes String.utf8EncodeChar IsAscii
  dsimp only
  split_ifs
  · left
    simp only [List.map_cons, List.map_nil, List.mem_singleton, forall_eq, hval]
    omega
  all_goals
    right
    simp only [List.map_cons, List.map_nil, List.mem_cons, List.not_mem_nil, or_false,
      forall_eq_or_imp, forall_eq, hval]
    omega

/-- Replacing ASCII bytes by ASCII texts leaves the other characters whole. -/
theorem ValidUtf8.flatMap {f : Byte → Str} (hascii : ∀ b, b.val < 128 → IsAscii (f b))
    (hother : ∀ b, 128 ≤ b.val → f b = [b]) {s : Str} (hs : ValidUtf8 s) :
    ValidUtf8 (s.flatMap f) := by
  obtain ⟨text, rfl⟩ := hs
  rw [← text.ofList_toList, str_ofList, List.flatMap_assoc]
  induction text.toList with
  | nil => exact ⟨"", rfl⟩
  | cons c chars ih =>
    rw [List.flatMap_cons]
    refine ValidUtf8.append ?_ ih
    rcases charBytes_cases c with hc | hc
    · apply IsAscii.validUtf8
      intro b hb
      obtain ⟨a, ha, hb⟩ := List.mem_flatMap.mp hb
      exact hascii a (hc a ha) b hb
    · have hself : (charBytes c).flatMap f = charBytes c := by
        rw [List.flatMap_congr fun b hb => hother b (hc b hb), List.flatMap_singleton']
      rw [hself]
      refine ⟨String.ofList [c], ?_⟩
      rw [str_ofList, List.flatMap_singleton]

/-! ## Cutting -/

def startsCharacter (b : Byte) : Prop := b.val < 128 ∨ 192 ≤ b.val ∧ b.val < 248
deriving Decidable

theorem isUTF8FirstByte_iff (b : Byte) : (UInt8.ofFin b).IsUTF8FirstByte ↔ startsCharacter b := by
  revert b
  unfold UInt8.IsUTF8FirstByte startsCharacter
  decide +kernel

/-- A text that is cut is a text if the first byte behind the cut begins a character. -/
theorem ValidUtf8.take_iff {s : Str} (hs : ValidUtf8 s) (n : Nat) :
    ValidUtf8 (s.take n) ↔ ∀ b ∈ s[n]?, startsCharacter b := by
  obtain ⟨text, rfl⟩ := hs
  by_cases hn : n < (str text).length
  · have size : (str text).length = text.utf8ByteSize := by
      simp [str, String.toUTF8, ← String.size_toByteArray]
    have before : bytesOf ((str text).take n) = text.toByteArray.extract 0 n := by
      apply ByteArray.ext
      apply Array.ext'
      simp [bytesOf, str, String.toUTF8, Function.comp_def, ByteArray.data_extract]
    have inside : (⟨n⟩ : String.Pos.Raw) < text.rawEndPos := by
      change n < text.utf8ByteSize
      omega
    have byte : text.getUTF8Byte ⟨n⟩ inside = UInt8.ofFin (str text)[n] := by
      simp [String.getUTF8Byte, str, String.toUTF8]
      rfl
    have boundary := String.Pos.Raw.isValid_iff_isValidUTF8_extract_zero (s := text) (p := ⟨n⟩)
    rw [String.Pos.Raw.isValid_iff_isUTF8FirstByte, ← before] at boundary
    rw [validUtf8_iff, ByteArray.validateUTF8_eq_true_iff, List.getElem?_eq_getElem hn]
    constructor
    · intro valid b hb
      cases hb
      rw [← isUTF8FirstByte_iff, ← byte]
      rcases boundary.mpr ⟨Nat.le_of_lt inside, valid⟩ with h | ⟨_, h⟩
      · exact absurd (congrArg String.Pos.Raw.byteIdx h) (Nat.ne_of_lt inside)
      · exact h
    · intro starts
      have first := (isUTF8FirstByte_iff _).mpr (starts _ rfl)
      rw [← byte] at first
      exact (boundary.mp (.inr ⟨inside, first⟩)).2
  · rw [List.take_of_length_le (Nat.le_of_not_lt hn), List.getElem?_eq_none (Nat.le_of_not_lt hn)]
    simp [ValidUtf8]

end Lib
