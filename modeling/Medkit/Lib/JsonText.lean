import Medkit.Lib.Utf8

/-! A strict reader of JSON arrays of strings. It accepts what the JSON grammar allows and
nothing else: blanks between the tokens, the eight short escapes and `\u` escapes in a string,
and no control byte there that is not escaped. -/
namespace Lib.JsonText

def isBlank (b : Byte) : Bool := b = 32 || b = 9 || b = 10 || b = 13

def skipBlanks (text : Str) : Str := text.dropWhile isBlank

/-! ## Strings -/

def readHex4 : Str → Option (Nat × Str)
  | a :: b :: c :: d :: rest => do
      let a ← hexValue a
      let b ← hexValue b
      let c ← hexValue c
      let d ← hexValue d
      some (a * 4096 + b * 256 + c * 16 + d, rest)
  | _ => none

/-- Behind `\u`: a code point, or the first half of a surrogate pair with the second half
after it. Half a pair stands for nothing. -/
def readUnicode (text : Str) : Option (Str × Str) := do
  let (unit, rest) ← readHex4 text
  if unit < 0xD800 ∨ 0xE000 ≤ unit then some (charBytes (Char.ofNat unit), rest)
  else if 0xDC00 ≤ unit then none
  else
    match rest with
    | 92 :: 117 :: rest => do
        let (low, rest) ← readHex4 rest
        if low < 0xDC00 ∨ 0xE000 ≤ low then none
        else some (charBytes (Char.ofNat (0x10000 + (unit - 0xD800) * 1024 + (low - 0xDC00))), rest)
    | _ => none

/-- Behind a backslash. -/
def readEscape : Str → Option (Str × Str)
  | [] => none
  | e :: rest =>
      if e = 34 ∨ e = 92 ∨ e = 47 then some ([e], rest)
      else if e = 98 then some ([8], rest)
      else if e = 102 then some ([12], rest)
      else if e = 110 then some ([10], rest)
      else if e = 114 then some ([13], rest)
      else if e = 116 then some ([9], rest)
      else if e = 117 then readUnicode rest
      else none

/-- Behind the opening quote, up to and with the closing one. -/
def readString : Nat → Str → Option (Str × Str)
  | 0, _ => none
  | _ + 1, [] => none
  | fuel + 1, c :: rest =>
      if c = 34 then some ([], rest)
      else if c = 92 then do
        let (bytes, rest) ← readEscape rest
        let (value, rest) ← readString fuel rest
        some (bytes ++ value, rest)
      else if c.val < 32 then none
      else do
        let (value, rest) ← readString fuel rest
        some (c :: value, rest)

/-! ## Arrays -/

/-- One element and the ones after it, up to and with the closing bracket. -/
def readElements : Nat → Str → Option (List Str × Str)
  | 0, _ => none
  | fuel + 1, text =>
      match skipBlanks text with
      | 34 :: rest => do
          let (value, rest) ← readString rest.length rest
          match skipBlanks rest with
          | 44 :: rest => do
              let (values, rest) ← readElements fuel rest
              some (value :: values, rest)
          | 93 :: rest => some ([value], rest)
          | _ => none
      | _ => none

def readBody (text : Str) : Option (List Str × Str) :=
  match skipBlanks text with
  | 93 :: rest => some ([], rest)
  | _ => readElements text.length text

def readArray (text : Str) : Option (List Str) :=
  match skipBlanks text with
  | 91 :: rest => do
      let (values, rest) ← readBody rest
      if (skipBlanks rest).isEmpty then some values else none
  | _ => none

/-! ## Reading what was written -/

theorem readString_quote (fuel : Nat) (rest : Str) :
    readString (fuel + 1) (34 :: rest) = some ([], rest) := rfl

theorem readString_plain {c : Byte} (hquote : c ≠ 34) (hescape : c ≠ 92) (hcontrol : 32 ≤ c.val)
    (fuel : Nat) (rest : Str) :
    readString (fuel + 1) (c :: rest) =
      (readString fuel rest).map fun read => (c :: read.1, read.2) := by
  rw [readString, if_neg hquote, if_neg hescape, if_neg (Nat.not_lt.mpr hcontrol)]
  cases readString fuel rest <;> rfl

theorem readString_escape {text tail bytes : Str} (h : readEscape text = some (bytes, tail))
    (fuel : Nat) :
    readString (fuel + 1) (92 :: text) =
      (readString fuel tail).map fun read => (bytes ++ read.1, read.2) := by
  rw [readString, if_neg (by decide), if_pos rfl, h, Option.bind_eq_bind, Option.bind_some]
  dsimp only
  cases readString fuel tail <;> rfl

/-! ## What is accepted -/

def Passes (ok : Byte → Prop) (text rest : Str) : Prop :=
  ∃ used, text = used ++ rest ∧ ∀ b ∈ used, ok b

namespace Passes

variable {ok : Byte → Prop} {text rest tail : Str}

theorem refl (ok : Byte → Prop) (text : Str) : Passes ok text text := ⟨[], rfl, nofun⟩

theorem cons {b : Byte} (hb : ok b) (h : Passes ok text rest) : Passes ok (b :: text) rest := by
  obtain ⟨used, rfl, hused⟩ := h
  exact ⟨b :: used, rfl, List.forall_mem_cons.mpr ⟨hb, hused⟩⟩

theorem trans (h : Passes ok text rest) (h' : Passes ok rest tail) : Passes ok text tail := by
  obtain ⟨used, rfl, hused⟩ := h
  obtain ⟨more, rfl, hmore⟩ := h'
  refine ⟨used ++ more, (List.append_assoc _ _ _).symm, fun b hb => ?_⟩
  exact (List.mem_append.mp hb).elim (hused b) (hmore b)

theorem mono {ok' : Byte → Prop} (hok : ∀ b, ok b → ok' b) (h : Passes ok text rest) :
    Passes ok' text rest := by
  obtain ⟨used, rfl, hused⟩ := h
  exact ⟨used, rfl, fun b hb => hok b (hused b hb)⟩

end Passes

def Printable (b : Byte) : Prop := 32 ≤ b.val
deriving Decidable

def Allowed (b : Byte) : Prop := Printable b ∨ b = 9 ∨ b = 10 ∨ b = 13
deriving Decidable

theorem passes_skipBlanks (text : Str) : Passes Allowed text (skipBlanks text) := by
  refine ⟨text.takeWhile isBlank, List.takeWhile_append_dropWhile.symm, fun b hb => ?_⟩
  have hblank := List.mem_takeWhile_imp hb
  unfold isBlank at hblank
  unfold Allowed
  simp only [Bool.or_eq_true, decide_eq_true_eq] at hblank
  rcases hblank with ((rfl | hb) | hb) | hb
  · exact .inl (Nat.le_refl 32)
  · exact .inr (.inl hb)
  · exact .inr (.inr (.inl hb))
  · exact .inr (.inr (.inr hb))

theorem printable_of_hexValue {b : Byte} {n : Nat} (h : hexValue b = some n) : Printable b := by
  unfold hexValue at h
  unfold Printable
  split_ifs at h <;> omega

theorem passes_readHex4 {text rest : Str} {n : Nat} (h : readHex4 text = some (n, rest)) :
    Passes Printable text rest := by
  unfold readHex4 at h
  split at h
  · simp only [Option.bind_eq_bind, Option.bind_eq_some_iff, Option.some.injEq,
      Prod.mk.injEq] at h
    obtain ⟨_, ha, _, hb, _, hc, _, hd, -, rfl⟩ := h
    apply Passes.cons (printable_of_hexValue ha)
    apply Passes.cons (printable_of_hexValue hb)
    apply Passes.cons (printable_of_hexValue hc)
    apply Passes.cons (printable_of_hexValue hd)
    exact Passes.refl _ _
  · cases h

theorem passes_readUnicode {text rest bytes : Str} (h : readUnicode text = some (bytes, rest)) :
    Passes Printable text rest := by
  unfold readUnicode at h
  simp only [Option.bind_eq_bind, Option.bind_eq_some_iff, Prod.exists] at h
  obtain ⟨unit, tail, hunit, h⟩ := h
  have htail := passes_readHex4 hunit
  split_ifs at h
  · cases h
    exact htail
  · split at h
    · rename_i rest'
      simp only [Option.bind_eq_some_iff, Prod.exists] at h
      obtain ⟨low, last, hlow, h⟩ := h
      split_ifs at h
      rw [Option.some.injEq, Prod.mk.injEq] at h
      obtain ⟨-, rfl⟩ := h
      apply htail.trans
      apply Passes.cons (show Printable 92 by decide)
      apply Passes.cons (show Printable 117 by decide)
      exact passes_readHex4 hlow
    · cases h

theorem passes_readEscape {text rest bytes : Str} (h : readEscape text = some (bytes, rest)) :
    Passes Printable text rest := by
  cases text with
  | nil => cases h
  | cons e text =>
    rw [readEscape] at h
    have hone (hrest : text = rest) (he : Printable e) : Passes Printable (e :: text) rest :=
      hrest ▸ (Passes.refl _ text).cons he
    split_ifs at h with hself hb hf hn hr ht hu
    · cases h
      apply hone rfl
      rcases hself with rfl | rfl | rfl <;> decide
    · cases h
      exact hone rfl (hb ▸ by decide)
    · cases h
      exact hone rfl (hf ▸ by decide)
    · cases h
      exact hone rfl (hn ▸ by decide)
    · cases h
      exact hone rfl (hr ▸ by decide)
    · cases h
      exact hone rfl (ht ▸ by decide)
    · exact (passes_readUnicode h).cons (hu ▸ by decide)

theorem passes_readString {fuel : Nat} {text rest value : Str}
    (h : readString fuel text = some (value, rest)) : Passes Printable text rest := by
  induction fuel generalizing text rest value with
  | zero => cases h
  | succ fuel ih =>
    cases text with
    | nil => cases h
    | cons c text =>
      rw [readString] at h
      split_ifs at h with hquote hescape hcontrol
      · cases h
        exact (Passes.refl _ _).cons (hquote ▸ by decide)
      all_goals simp only [Option.bind_eq_bind, Option.bind_eq_some_iff, Prod.exists] at h
      · obtain ⟨bytes, tail, hread, value', rest', hvalue, h⟩ := h
        cases h
        exact ((passes_readEscape hread).trans (ih hvalue)).cons (hescape ▸ by decide)
      · obtain ⟨value', rest', hvalue, h⟩ := h
        cases h
        exact (ih hvalue).cons (Nat.not_lt.mp hcontrol)

theorem passes_readElements {fuel : Nat} {text rest : Str} {values : List Str}
    (h : readElements fuel text = some (values, rest)) : Passes Allowed text rest := by
  induction fuel generalizing text rest values with
  | zero => cases h
  | succ fuel ih =>
    have hprintable : ∀ b, Printable b → Allowed b := fun b => .inl
    rw [readElements] at h
    split at h
    · rename_i body hopen
      simp only [Option.bind_eq_bind, Option.bind_eq_some_iff, Prod.exists] at h
      obtain ⟨value, tail, hvalue, h⟩ := h
      have hstring : Passes Allowed text tail := by
        apply (passes_skipBlanks text).trans
        rw [hopen]
        exact ((passes_readString hvalue).mono hprintable).cons (by decide)
      apply hstring.trans
      apply (passes_skipBlanks tail).trans
      split at h
      · rename_i more hcomma
        simp only [Option.bind_eq_some_iff, Prod.exists] at h
        obtain ⟨values', rest', hvalues, h⟩ := h
        cases h
        rw [hcomma]
        exact (ih hvalues).cons (by decide)
      · rename_i more hclose
        cases h
        rw [hclose]
        exact (Passes.refl _ _).cons (by decide)
      · cases h
    · cases h

theorem allowed_of_readArray {text : Str} {values : List Str}
    (h : readArray text = some values) : ∀ b ∈ text, Allowed b := by
  suffices hpasses : Passes Allowed text [] by
    obtain ⟨used, rfl, hused⟩ := hpasses
    rwa [List.append_nil]
  unfold readArray at h
  split at h
  · rename_i body hopen
    simp only [Option.bind_eq_bind, Option.bind_eq_some_iff, Prod.exists] at h
    obtain ⟨values', rest, hbody, h⟩ := h
    split_ifs at h with hend
    apply (passes_skipBlanks text).trans
    rw [hopen]
    refine Passes.trans (Passes.cons (by decide) ?_)
      (List.isEmpty_iff.mp hend ▸ passes_skipBlanks rest)
    unfold readBody at hbody
    split at hbody
    · rename_i tail hclose
      cases hbody
      apply (passes_skipBlanks body).trans
      rw [hclose]
      exact (Passes.refl _ _).cons (by decide)
    · exact passes_readElements hbody
  · cases h

end Lib.JsonText
