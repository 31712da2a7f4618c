import Medkit.Lib.EcmaRegex

/-! The path patterns of the authorization rules: a pattern is translated to the text of a regular
expression, and means a language of paths. -/
namespace Medkit.Gateway

open Lib

/-! ## The translation -/

def escapedCharacters : Str := str ".[]()\x7b\x7d\\^$|?+"

def regexPattern : Str → Str
  | [] => []
  | 42 :: 42 :: rest => str ".*" ++ regexPattern rest
  | c :: rest =>
      (if c = 42 then str "[^/]+" else if c ∈ escapedCharacters then [92, c] else [c]) ++
        regexPattern rest

/-- The one text that both copies of the function have. A text that is no expression is caught and
counts as no match. -/
def patternMatches (pattern path : Str) : Bool :=
  if pattern = path then true
  else (Ecma.regexMatch (str "^" ++ regexPattern pattern ++ str "$") path).getD false

def AuthManager.matchesPath (pattern path : Str) : Bool := patternMatches pattern path

def ConfigurableAuthRequirementPolicy.matchesPath (pattern path : Str) : Bool :=
  patternMatches pattern path

/-! ## The language of a pattern -/

inductive Glob
  | literal (b : Byte)
  | segment
  | anything

/-- Two stars next to each other are read as one wildcard, from the left. -/
def globs : Str → List Glob
  | [] => []
  | 42 :: 42 :: rest => .anything :: globs rest
  | c :: rest => (if c = 42 then .segment else .literal c) :: globs rest

def Glob.language : Glob → Language Byte
  | .literal b => {[b]}
  | .segment => {word | word ≠ [] ∧ 47 ∉ word}
  | .anything => ⊤

def globLanguage (pattern : Str) : Language Byte := ((globs pattern).map Glob.language).prod

/-! ## From the text to the terms -/

def Glob.text : Glob → Str
  | .literal b => if b ∈ escapedCharacters then [92, b] else [b]
  | .segment => str "[^/]+"
  | .anything => str ".*"

def Glob.tokens : Glob → List Ecma.Token
  | .literal b => [.atom (.literal b)]
  | .segment => [.atom (.except 47), .plus]
  | .anything => [.atom .dot, .star]

def Glob.atom : Glob → Ecma.Atom
  | .literal b => .literal b
  | .segment => .except 47
  | .anything => .dot

def Glob.quantifier : Glob → Ecma.Quantifier
  | .literal _ => .one
  | .segment => .plus
  | .anything => .star

def Glob.term (glob : Glob) : Ecma.Term := .repeated glob.atom glob.quantifier

def Glob.Proper : Glob → Prop
  | .literal b => b ≠ 42
  | _ => True

variable (pattern : Str)

theorem proper_globs : ∀ glob ∈ globs pattern, glob.Proper := by
  fun_induction globs pattern with
  | case1 => simp
  | case2 rest ih => simpa [Glob.Proper] using ih
  | case3 c rest _ ih =>
    refine List.forall_mem_cons.mpr ⟨?_, ih⟩
    split
    · trivial
    · assumption

theorem regexPattern_eq : regexPattern pattern = (globs pattern).flatMap Glob.text := by
  fun_induction globs pattern with
  | case1 => rfl
  | case2 rest ih => rw [regexPattern, ih]; rfl
  | case3 c rest hpair ih =>
    rw [regexPattern, ih, List.flatMap_cons]
    · split <;> rfl
    · exact hpair

set_option maxRecDepth 1024 in
theorem mem_syntaxCharacters_iff (b : Byte) :
    b ∈ Ecma.syntaxCharacters ↔ b ∈ escapedCharacters ∨ b = 42 := by
  have hspecial : ∀ c ∈ Ecma.syntaxCharacters, c ∈ escapedCharacters ∨ c = 42 := by decide
  have hescaped : ∀ c ∈ escapedCharacters, c ∈ Ecma.syntaxCharacters := by decide
  refine ⟨hspecial b, fun h => h.elim (hescaped b) ?_⟩
  rintro rfl
  decide

theorem tokens_of_not_mem {b : Byte} (hplain : b ∉ Ecma.syntaxCharacters) (rest : Str) :
    Ecma.tokens (b :: rest) = (Ecma.tokens rest).map (.atom (.literal b) :: ·) := by
  have hne : ∀ c ∈ Ecma.syntaxCharacters, b ≠ c := fun c hc h => hplain (h ▸ hc)
  rw [Ecma.tokens, if_neg (hne 46 (by decide)), if_neg (hne 42 (by decide)),
    if_neg (hne 43 (by decide)), if_neg (hne 94 (by decide)), if_neg (hne 36 (by decide)),
    if_neg hplain]
  · exact fun _ _ h => absurd h (hne 92 (by decide))
  · exact fun _ _ h => absurd h (hne 91 (by decide))

theorem tokens_text {glob : Glob} (hproper : glob.Proper) (rest : Str) :
    Ecma.tokens (glob.text ++ rest) = (Ecma.tokens rest).map (glob.tokens ++ ·) := by
  cases glob with
  | literal b =>
    rw [Glob.text]
    split
    · rename_i hescaped
      exact if_pos ((mem_syntaxCharacters_iff b).mpr (.inl hescaped))
    · rename_i hescaped
      refine tokens_of_not_mem (fun hmem => ?_) rest
      exact ((mem_syntaxCharacters_iff b).mp hmem).elim hescaped hproper
  | segment | anything =>
    show Option.map _ (Option.map _ (Ecma.tokens rest)) = _
    rw [Option.map_map]
    rfl

theorem tokens_texts {globs : List Glob} (hproper : ∀ glob ∈ globs, glob.Proper) (rest : Str) :
    Ecma.tokens (globs.flatMap Glob.text ++ rest) =
      (Ecma.tokens rest).map (globs.flatMap Glob.tokens ++ ·) := by
  induction globs with
  | nil => simp
  | cons glob globs ih =>
    obtain ⟨hglob, hglobs⟩ := List.forall_mem_cons.mp hproper
    rw [List.flatMap_cons, List.append_assoc, tokens_text hglob, ih hglobs, Option.map_map,
      List.flatMap_cons]
    simp [Function.comp_def]

theorem terms_tokens (globs : List Glob) :
    Ecma.terms (globs.flatMap Glob.tokens ++ [.finish]) =
      some (globs.map Glob.term ++ [.finish]) := by
  induction globs with
  | nil => rfl
  | cons glob globs ih =>
    rw [List.flatMap_cons, List.append_assoc]
    cases glob with
    | literal b =>
      -- no quantifier stands behind it
      have hnext : Ecma.terms (.atom (.literal b) :: (globs.flatMap Glob.tokens ++ [.finish])) =
          (Ecma.terms (globs.flatMap Glob.tokens ++ [.finish])).map
            (.repeated (.literal b) .one :: ·) := by
        cases globs with
        | nil => rfl
        | cons next globs => cases next <;> rfl
      rw [Glob.tokens, List.singleton_append, hnext, ih]
      rfl
    | segment | anything =>
      simp only [Glob.tokens, List.cons_append, List.nil_append, Ecma.terms, ih]
      rfl

theorem parse_regexPattern : Ecma.parse (str "^" ++ regexPattern pattern ++ str "$") =
      some (.start :: ((globs pattern).map Glob.term ++ [.finish])) := by
  have htokens : Ecma.tokens (str "^" ++ regexPattern pattern ++ str "$") =
      some (.start :: ((globs pattern).flatMap Glob.tokens ++ [.finish])) := by
    show Option.map _ (Ecma.tokens (regexPattern pattern ++ str "$")) = _
    rw [regexPattern_eq, tokens_texts (proper_globs pattern)]
    rfl
  rw [Ecma.parse, htokens, Option.bind_some, Ecma.terms, terms_tokens]
  rfl

/-! ## From the terms to the language -/

theorem mem_language_iff {glob : Glob} {word : Str}
    (hline : ∀ b ∈ word, Ecma.isLineTerminator b = false) :
    word ∈ glob.language ↔ glob.quantifier.allows word.length = true ∧
      ∀ b ∈ word, glob.atom.matches b = true := by
  cases glob with
  | literal b =>
    show word = [b] ↔ decide (word.length = 1) = true ∧ ∀ c ∈ word, decide (c = b) = true
    simp only [decide_eq_true_eq]
    exact List.eq_replicate_iff (n := 1)
  | segment =>
    show (word ≠ [] ∧ 47 ∉ word) ↔
      decide (1 ≤ word.length) = true ∧ ∀ c ∈ word, decide (c ≠ 47) = true
    have hlength : 1 ≤ word.length ↔ word ≠ [] := List.length_pos_iff
    simp only [decide_eq_true_eq, hlength]
    refine and_congr_right fun _ => ⟨fun h c hc heq => h (heq ▸ hc), fun h hmem => h 47 hmem rfl⟩
  | anything =>
    refine iff_of_true trivial ⟨rfl, fun b hb => ?_⟩
    show (!Ecma.isLineTerminator b) = true
    rw [hline b hb]
    rfl

theorem accepts_terms (globs : List Glob) {i : Nat} {subject : Str}
    (hline : ∀ b ∈ subject, Ecma.isLineTerminator b = false) :
    Ecma.accepts (globs.map Glob.term ++ [.finish]) i subject = true ↔
      subject ∈ (globs.map Glob.language).prod := by
  induction globs generalizing i subject with
  | nil => simp [Ecma.accepts, Language.mem_one]
  | cons glob globs ih =>
    rw [List.map_cons, List.map_cons, List.prod_cons, Language.mem_mul, List.cons_append,
      Glob.term, Ecma.accepts_repeated]
    constructor
    · rintro ⟨front, back, rfl, hallows, hmatches, hback⟩
      obtain ⟨hfront, hrest⟩ := List.forall_mem_append.mp hline
      exact ⟨front, (mem_language_iff hfront).mpr ⟨hallows, hmatches⟩, back,
        (ih hrest).mp hback, rfl⟩
    · rintro ⟨front, hmem, back, hback, rfl⟩
      obtain ⟨hfront, hrest⟩ := List.forall_mem_append.mp hline
      obtain ⟨hallows, hmatches⟩ := (mem_language_iff hfront).mp hmem
      exact ⟨front, back, rfl, hallows, hmatches, (ih hrest).mpr hback⟩

/-- A star is itself a character other than a slash, so the shortcut for equal strings adds no
path. -/
theorem mem_globLanguage_self : pattern ∈ globLanguage pattern := by
  unfold globLanguage
  fun_induction globs pattern with
  | case1 => exact Language.nil_mem_one
  | case2 rest ih => exact Language.mem_mul.mpr ⟨[42, 42], trivial, rest, ih, rfl⟩
  | case3 c rest _ ih =>
    refine Language.mem_mul.mpr ⟨[c], ?_, rest, ih, rfl⟩
    split
    · rename_i hstar
      rw [hstar]
      exact ⟨by decide, by decide⟩
    · rfl

/-- A path of one line is accepted exactly if it belongs to the language of the pattern, by both
copies of the function. -/
theorem matchesPath_iff_mem (pattern path : Str)
    (hline : ∀ b ∈ path, Ecma.isLineTerminator b = false) :
    (AuthManager.matchesPath pattern path = true ↔ path ∈ globLanguage pattern) ∧
      ConfigurableAuthRequirementPolicy.matchesPath pattern path =
        AuthManager.matchesPath pattern path := by
  refine ⟨?_, rfl⟩
  rw [AuthManager.matchesPath, patternMatches]
  split
  · rename_i heq
    rw [← heq]
    exact iff_of_true rfl (mem_globLanguage_self pattern)
  · rw [Ecma.regexMatch, parse_regexPattern, globLanguage, ← accepts_terms (i := 0) _ hline]
    rfl

set_option maxRecDepth 1024 in
theorem matchesPath_iff_mem_for_data :
    (AuthManager.matchesPath (str "/a/*/**") (str "/a/b/c/d") = true ↔
        str "/a/b/c/d" ∈ globLanguage (str "/a/*/**")) ∧
      AuthManager.matchesPath (str "/a.b/*") (str "/a.b/c") = true ∧
      AuthManager.matchesPath (str "/a.b/*") (str "/a.b/c/d") = false :=
  ⟨(matchesPath_iff_mem _ _ (by decide)).1, by decide, by decide⟩

end Medkit.Gateway
