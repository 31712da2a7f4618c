import Mathlib

/-! Byte strings. A string of the modelled programs is a sequence of bytes with
no further structure; text enters through its UTF-8 encoding, and numbers
through their decimal digits. -/
namespace Lib

abbrev Byte := Fin 256
abbrev Str := List Byte

/-! Literals of bytes, and strings as keys: the instances both need, under a name. -/

instance byte_neZero : NeZero 256 := ⟨by decide⟩

instance byte_lawfulBEq : LawfulBEq Byte := inferInstance

instance str_lawfulBEq : LawfulBEq Str := inferInstance

instance str_transOrd : Std.TransOrd Str := inferInstance

def str (text : String) : Str := text.toUTF8.data.toList.map UInt8.toFin

def ValidUtf8 (s : Str) : Prop := ∃ text : String, str text = s

def cString (s : Str) : Str := s.takeWhile (· ≠ 0)

variable {s : Str} {c : Byte} {p : Byte → Bool}

theorem cString_eq_self (h : (0 : Byte) ∉ s) : cString s = s := by
  unfold cString
  rw [List.takeWhile_eq_self_iff]
  intro b hb
  simp only [decide_eq_true_eq]
  rintro rfl
  exact h hb

/-- A run of bytes that all satisfy `p` ends where the first other byte stands. -/
theorem takeWhile_append_cons (p : Byte → Prop) [DecidablePred p] {x : Str} (r : Str)
    (hx : ∀ b ∈ x, p b) (hc : ¬ p c) : (x ++ c :: r).takeWhile (fun b => decide (p b)) = x := by
  rw [List.takeWhile_append_of_pos (by simpa using hx)]
  simp [hc]

/-- Such a run and what follows it can be read back from their concatenation. -/
theorem span_append_inj (p : Byte → Prop) [DecidablePred p] {x y r : Str} {d : Byte}
    (hx : ∀ b ∈ x, p b) (hy : ∀ b ∈ y, p b) (hc : ¬ p c) (hd : ¬ p d)
    (h : x ++ c :: r = y ++ d :: s) : x = y ∧ c = d ∧ r = s := by
  have hxy : x = y := by
    rw [← takeWhile_append_cons p r hx hc, h, takeWhile_append_cons p s hy hd]
  subst hxy
  simpa using List.append_cancel_left h

theorem dropWhile_of_head (h : ∀ c ∈ s.head?, p c = false) : s.dropWhile p = s := by
  cases s with
  | nil => rfl
  | cons c s => rw [List.dropWhile_cons_of_neg (by simp [h c rfl])]

theorem takeWhile_append_stop (s : Str) {t : Str} (h : ∀ c ∈ t.head?, p c = false) :
    (s ++ t).takeWhile p = s.takeWhile p := by
  have ht : t.takeWhile p = [] := by
    cases t with
    | nil => rfl
    | cons c t => simp [h c rfl]
  rw [List.takeWhile_append, ht, List.append_nil]
  split
  · rename_i hall
    exact ((List.takeWhile_prefix p).eq_of_length hall).symm
  · rfl

theorem dropWhile_append_stop (s : Str) {t : Str} (h : ∀ c ∈ t.head?, p c = false) :
    (s ++ t).dropWhile p = s.dropWhile p ++ t := by
  rw [List.dropWhile_append, dropWhile_of_head h]
  split
  · rename_i hempty
    rw [List.isEmpty_iff.mp hempty, List.nil_append]
  · rfl

/-! ## The first separator -/

theorem eq_of_mem_head?_dropWhile {separator : Byte} (h : c ∈ (s.dropWhile (· ≠ separator)).head?) :
    c = separator := by
  have hnot := List.head?_dropWhile_not (fun c : Byte => decide (c ≠ separator)) s
  rw [Option.mem_def.mp h] at hnot
  simpa using hnot

theorem not_mem_takeWhile_ne (separator : Byte) (s : Str) :
    separator ∉ s.takeWhile (· ≠ separator) := fun h => by
  simpa using List.mem_takeWhile_imp h

/-! ## Characters of the C locale -/

def isspace (c : Byte) : Bool := c = 32 || (9 ≤ c.val && c.val ≤ 13)

def tolower (c : Byte) : Byte := if 65 ≤ c.val ∧ c.val ≤ 90 then c + 32 else c

/-! ## Hexadecimal digits -/

def hexCharacter (upperCase : Bool) (n : Nat) : Byte :=
  Fin.ofNat 256 (if n < 10 then 48 + n else if upperCase then 55 + n else 87 + n)

def hexValue (c : Byte) : Option Nat :=
  if 48 ≤ c.val ∧ c.val ≤ 57 then some (c.val - 48)
  else if 65 ≤ c.val ∧ c.val ≤ 70 then some (c.val - 55)
  else if 97 ≤ c.val ∧ c.val ≤ 102 then some (c.val - 87)
  else none

/-! ## Trimming -/

def trimWith (blank : Byte → Bool) (s : Str) : Str :=
  ((s.dropWhile blank).reverse.dropWhile blank).reverse

theorem trimWith_eq_self {blank : Byte → Bool} (hfirst : ∀ c ∈ s.head?, blank c = false)
    (hlast : ∀ c ∈ s.getLast?, blank c = false) : trimWith blank s = s := by
  rw [← List.head?_reverse] at hlast
  rw [trimWith, dropWhile_of_head hfirst, dropWhile_of_head hlast, List.reverse_reverse]

/-! ## Decimal numbers -/

def charByte (c : Char) : Byte := Fin.ofNat 256 c.toNat

def decimal (n : Nat) : Str := (Nat.toDigits 10 n).map charByte

def intDecimal : Int → Str
  | .ofNat n => decimal n
  | .negSucc n => 45 :: decimal (n + 1)

def isDigitByte (b : Byte) : Prop := 48 ≤ b.val ∧ b.val ≤ 57
deriving Decidable

theorem isDigit_toNat {c : Char} (h : c.isDigit) : 48 ≤ c.toNat ∧ c.toNat ≤ 57 := by
  simp only [Char.isDigit, Bool.and_eq_true, decide_eq_true_eq] at h
  exact ⟨UInt32.le_iff_toNat_le.mp h.1, UInt32.le_iff_toNat_le.mp h.2⟩

theorem charByte_val {c : Char} (h : c.isDigit) : (charByte c).val = c.toNat := by
  have := isDigit_toNat h
  simp only [charByte, Fin.ofNat]
  exact Nat.mod_eq_of_lt (by omega)

theorem isDigitByte_of_mem_decimal {n : Nat} {b : Byte} (h : b ∈ decimal n) : isDigitByte b := by
  obtain ⟨c, hc, rfl⟩ := List.mem_map.mp h
  have hdigit := Nat.isDigit_of_mem_toDigits (by decide) (by decide) hc
  unfold isDigitByte
  rw [charByte_val hdigit]
  exact isDigit_toNat hdigit

theorem decimal_ne_nil (n : Nat) : decimal n ≠ [] := by
  simp [decimal]

/-- The digits come back from their bytes, so equal decimals are equal numbers. -/
theorem decimal_injective : Function.Injective decimal := by
  have hback (n : Nat) : (decimal n).map (fun b => Char.ofNat b.val) = Nat.toDigits 10 n := by
    unfold decimal
    rw [List.map_map]
    refine (List.map_congr_left fun c hc => ?_).trans (List.map_id _)
    have hdigit := Nat.isDigit_of_mem_toDigits (by decide) (by decide) hc
    simp only [Function.comp_apply, charByte_val hdigit, Char.ofNat_toNat, id_eq]
  intro n m h
  apply Nat.repr_injective
  rw [Nat.repr_eq_ofList_toDigits, Nat.repr_eq_ofList_toDigits, ← hback n, ← hback m, h]

def isNumberByte (b : Byte) : Prop := isDigitByte b ∨ b = 45
deriving Decidable

theorem isNumberByte_of_mem_intDecimal {i : Int} {b : Byte} (h : b ∈ intDecimal i) :
    isNumberByte b := by
  cases i with
  | ofNat n => exact .inl (isDigitByte_of_mem_decimal h)
  | negSucc n =>
    rcases List.mem_cons.mp h with rfl | h
    · exact .inr rfl
    · exact .inl (isDigitByte_of_mem_decimal h)

theorem intDecimal_injective : Function.Injective intDecimal := by
  have hsign (n k : Nat) : decimal n ≠ 45 :: decimal k := by
    intro h
    have hb : isDigitByte 45 := isDigitByte_of_mem_decimal (n := n) (by rw [h]; simp)
    exact absurd hb (by decide)
  intro i j h
  cases i with
  | ofNat n =>
    cases j with
    | ofNat k => exact congrArg Int.ofNat (decimal_injective h)
    | negSucc k => exact absurd h (hsign n _)
  | negSucc n =>
    cases j with
    | ofNat k => exact absurd h.symm (hsign k _)
    | negSucc k =>
      have hnk := decimal_injective (List.cons.inj h).2
      exact congrArg Int.negSucc (by omega)

theorem intDecimal_append_inj {i j : Int} {r : Str} (hc : ¬ isNumberByte c)
    (h : intDecimal i ++ c :: r = intDecimal j ++ c :: s) : i = j ∧ r = s := by
  obtain ⟨hi, -, hr⟩ := span_append_inj isNumberByte
    (fun _ => isNumberByte_of_mem_intDecimal) (fun _ => isNumberByte_of_mem_intDecimal) hc hc h
  exact ⟨intDecimal_injective hi, hr⟩

theorem decimal_append_inj {n k : Nat} {r : Str} (hc : ¬ isDigitByte c)
    (h : decimal n ++ c :: r = decimal k ++ c :: s) : n = k ∧ r = s := by
  obtain ⟨hn, -, hr⟩ := span_append_inj isDigitByte
    (fun _ => isDigitByte_of_mem_decimal) (fun _ => isDigitByte_of_mem_decimal) hc hc h
  exact ⟨decimal_injective hn, hr⟩

/-- A decimal suffix behind a separator that is no digit determines its number,
whatever stands before the separator. -/
theorem append_decimal_inj {x y : Str} {n k : Nat} (hc : ¬ isDigitByte c)
    (h : x ++ c :: decimal n = y ++ c :: decimal k) : x = y ∧ n = k := by
  have hrev : (decimal n).reverse ++ c :: x.reverse = (decimal k).reverse ++ c :: y.reverse := by
    simpa using congrArg List.reverse h
  obtain ⟨hn, -, hx⟩ := span_append_inj isDigitByte
    (fun b hb => isDigitByte_of_mem_decimal (List.mem_reverse.mp hb))
    (fun b hb => isDigitByte_of_mem_decimal (List.mem_reverse.mp hb)) hc hc hrev
  exact ⟨List.reverse_injective hx, decimal_injective (List.reverse_injective hn)⟩

/-! ## Character classes -/

/-- `std::isalnum` in the C locale. -/
def isAlnumByte (b : Byte) : Bool :=
  (48 ≤ b.val && b.val ≤ 57) || (65 ≤ b.val && b.val ≤ 90) || (97 ≤ b.val && b.val ≤ 122)

def toUpperByte (b : Byte) : Byte := if 97 ≤ b.val && b.val ≤ 122 then b - 32 else b

def lastSegment (path : Str) : Str := (path.reverse.takeWhile (· ≠ 47)).reverse

def parentPath (path : Str) : Str := (path.reverse.dropWhile (· ≠ 47)).reverse

theorem parentPath_append_lastSegment (path : Str) :
    parentPath path ++ lastSegment path = path := by
  rw [parentPath, lastSegment, ← List.reverse_append, List.takeWhile_append_dropWhile,
    List.reverse_reverse]

end Lib
