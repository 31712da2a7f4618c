import Medkit.Lib.Bytes

/-! A fragment of the ECMAScript regular expressions: characters, the dot, escaped characters,
classes that exclude one character, the two unbounded quantifiers and the two anchors. The text of
an expression is read into terms, and the terms are matched against a whole subject. -/
namespace Lib.Ecma

def syntaxCharacters : Str := str "^$\\.*+?()[]\x7b\x7d|"

def isLineTerminator (b : Byte) : Bool := b = 10 || b = 13

inductive Atom
  | literal (b : Byte)
  | dot
  | except (b : Byte)

def Atom.matches : Atom → Byte → Bool
  | .literal c, b => b = c
  | .dot, b => !isLineTerminator b
  | .except c, b => b ≠ c

inductive Token
  | atom (a : Atom)
  | star
  | plus
  | start
  | finish

def tokens : Str → Option (List Token)
  | [] => some []
  | 92 :: c :: rest =>
      if c ∈ syntaxCharacters then (tokens rest).map (.atom (.literal c) :: ·) else none
  | 91 :: 94 :: c :: 93 :: rest =>
      if c ∈ str "\\]-" then none else (tokens rest).map (.atom (.except c) :: ·)
  | b :: rest =>
      if b = 46 then (tokens rest).map (.atom .dot :: ·)
      else if b = 42 then (tokens rest).map (.star :: ·)
      else if b = 43 then (tokens rest).map (.plus :: ·)
      else if b = 94 then (tokens rest).map (.start :: ·)
      else if b = 36 then (tokens rest).map (.finish :: ·)
      else if b ∈ syntaxCharacters then none
      else (tokens rest).map (.atom (.literal b) :: ·)

inductive Quantifier
  | one
  | star
  | plus

def Quantifier.allows : Quantifier → Nat → Bool
  | .one, n => n = 1
  | .star, _ => true
  | .plus, n => 1 ≤ n

inductive Term
  | start
  | finish
  | repeated (a : Atom) (q : Quantifier)

def terms : List Token → Option (List Term)
  | [] => some []
  | .atom a :: .star :: rest => (terms rest).map (.repeated a .star :: ·)
  | .atom a :: .plus :: rest => (terms rest).map (.repeated a .plus :: ·)
  | .atom a :: rest => (terms rest).map (.repeated a .one :: ·)
  | .start :: rest => (terms rest).map (.start :: ·)
  | .finish :: rest => (terms rest).map (.finish :: ·)
  | _ :: _ => none

def parse (text : Str) : Option (List Term) := (tokens text).bind terms

/-- The terms match all that is left of the subject, the given number of bytes into it. -/
def accepts : List Term → Nat → Str → Bool
  | [], _, rest => rest = []
  | .start :: ts, i, rest => i = 0 && accepts ts i rest
  | .finish :: ts, i, rest => rest = [] && accepts ts i rest
  | .repeated a q :: ts, i, rest =>
      (List.range (rest.length + 1)).any fun n =>
        q.allows n && (rest.take n).all a.matches && accepts ts (i + n) (rest.drop n)

def regexMatch (text subject : Str) : Option Bool := (parse text).map (accepts · 0 subject)

theorem accepts_repeated {a : Atom} {q : Quantifier} {ts : List Term} {i : Nat} {rest : Str} :
    accepts (.repeated a q :: ts) i rest = true ↔
      ∃ front back, rest = front ++ back ∧ q.allows front.length = true ∧
        (∀ b ∈ front, a.matches b = true) ∧ accepts ts (i + front.length) back = true := by
  rw [accepts, List.any_eq_true]
  constructor
  · rintro ⟨n, hn, h⟩
    simp only [Bool.and_eq_true, List.all_eq_true] at h
    have hlength : (rest.take n).length = n := by
      rw [List.mem_range] at hn
      rw [List.length_take]
      omega
    refine ⟨rest.take n, rest.drop n, (List.take_append_drop n rest).symm, ?_, h.1.2, ?_⟩
    · rw [hlength]
      exact h.1.1
    · rw [hlength]
      exact h.2
  · rintro ⟨front, back, rfl, hq, hall, hback⟩
    refine ⟨front.length, List.mem_range.mpr (by rw [List.length_append]; omega), ?_⟩
    simp only [List.take_left', List.drop_left', Bool.and_eq_true, List.all_eq_true]
    exact ⟨⟨hq, hall⟩, hback⟩

end Lib.Ecma
