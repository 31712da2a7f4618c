import Medkit.Lib.Bytes

/-! Self-delimiting pieces of text: hexadecimal numbers and quoted literals. Each
lemma says that a piece can be told apart from whatever follows it, which is what
makes a record that concatenates such pieces readable in one way only. -/
namespace Lib

/-! ## Hexadecimal -/

def hexEncode (bytes : Str) : Str :=
  bytes.flatMap fun b => [hexCharacter false (b.val / 16), hexCharacter false (b.val % 16)]

def isHexByte (b : Byte) : Prop := isDigitByte b ∨ (97 ≤ b.val ∧ b.val ≤ 102)
deriving Decidable

theorem isHexByte_hexCharacter {n : Nat} (h : n < 16) : isHexByte (hexCharacter false n) := by
  interval_cases n <;> decide

theorem hexCharacter_inj {n k : Nat} (hn : n < 16) (hk : k < 16)
    (h : hexCharacter false n = hexCharacter false k) : n = k := by
  interval_cases n <;> interval_cases k <;> first | rfl | exact absurd h (by decide)

theorem isHexByte_of_mem_hexEncode {bytes : Str} {b : Byte} (h : b ∈ hexEncode bytes) :
    isHexByte b := by
  simp only [hexEncode, List.mem_flatMap, List.mem_cons, List.not_mem_nil, or_false] at h
  obtain ⟨c, -, rfl | rfl⟩ := h
  · exact isHexByte_hexCharacter (by omega)
  · exact isHexByte_hexCharacter (by omega)

theorem hexEncode_injective : Function.Injective hexEncode := by
  intro x y h
  induction x generalizing y with
  | nil =>
    cases y with
    | nil => rfl
    | cons c y => simp [hexEncode] at h
  | cons b x ih =>
    cases y with
    | nil => simp [hexEncode] at h
    | cons c y =>
      simp only [hexEncode, List.flatMap_cons, List.cons_append, List.nil_append,
        List.cons.injEq] at h
      obtain ⟨hhigh, hlow, hrest⟩ := h
      have hhigh := hexCharacter_inj (by omega) (by omega) hhigh
      have hlow := hexCharacter_inj (by omega) (by omega) hlow
      have hbc : b = c := Fin.ext (by omega)
      rw [hbc, ih hrest]

/-! ## Quoted literals -/

/-- What follows the closing quote of a literal whose opening quote has been
read; a backslash takes the next byte with it. -/
def afterQuote : Str → Option Str
  | [] => none
  | c :: rest =>
      if c = 34 then some rest
      else if c = 92 then
        match rest with
        | [] => none
        | _ :: rest' => afterQuote rest'
      else afterQuote rest

def IsQuoted (s : Str) : Prop := ∃ body, s = 34 :: body ∧ afterQuote body = some []

theorem afterQuote_quote (rest : Str) : afterQuote (34 :: rest) = some rest := by
  simp only [afterQuote.eq_def (34 :: rest), if_true]

theorem afterQuote_plain {c : Byte} (hq : c ≠ 34) (hb : c ≠ 92) (rest : Str) :
    afterQuote (c :: rest) = afterQuote rest := by
  simp only [afterQuote.eq_def (c :: rest), if_neg hq, if_neg hb]

theorem afterQuote_append {body rest : Str} (h : afterQuote body = some rest) (tail : Str) :
    afterQuote (body ++ tail) = some (rest ++ tail) := by
  fun_induction afterQuote body with
  | case1 => simp at h
  | case2 r =>
    obtain rfl := Option.some.inj h
    exact afterQuote_quote _
  | case3 => simp at h
  | case4 e r hq ih => exact ih h
  | case5 c r hq hb ih =>
    rw [List.cons_append, afterQuote_plain hq hb]
    exact ih h

theorem IsQuoted.append_inj {x y r s : Str} (hx : IsQuoted x) (hy : IsQuoted y)
    (h : x ++ r = y ++ s) : x = y ∧ r = s := by
  obtain ⟨bx, rfl, hbx⟩ := hx
  obtain ⟨by', rfl, hby⟩ := hy
  have htail : bx ++ r = by' ++ s := (List.cons.inj h).2
  have hr := afterQuote_append hbx r
  rw [htail, afterQuote_append hby s] at hr
  have hrs : r = s := by simpa using (Option.some.inj hr).symm
  subst hrs
  exact ⟨List.append_cancel_right h, rfl⟩

end Lib
