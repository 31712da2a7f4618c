import Medkit.Lib.Bytes
import Medkit.Lib.OrderedMap

/-! Correlation rules, the matching of fault codes against them, and the
validation a configuration has to pass before an engine is created from it.

A pattern that contains `*` is compiled to an anchored ECMAScript regex in which
`*` becomes `.*` and every other byte stands for itself; `.` matches any byte
except the line terminators. -/
namespace Medkit.Correlation

open Lib

structure FaultPattern where
  codes : List Str

inductive CorrelationMode where
  | hierarchical
  | autoCluster
deriving DecidableEq

inductive Representative where
  | first
  | mostRecent
  | highestSeverity

structure CorrelationRule where
  id : Str
  name : Str
  mode : CorrelationMode := .hierarchical
  rootCauseCodes : List Str := []
  symptomPatternIds : List Str := []
  inlineSymptomCodes : List Str := []
  muteSymptoms : Bool := true
  autoClearWithRoot : Bool := true
  matchPatternIds : List Str := []
  minCount : Nat := 3
  showAsSingle : Bool := true
  representative : Representative := .highestSeverity
  windowMs : Nat := 500

structure CorrelationConfig where
  enabled : Bool := false
  patterns : OMap Str FaultPattern := ∅
  rules : List CorrelationRule := []

def severityRank (severity : Str) : Int :=
  if severity = str "CRITICAL" ∨ severity = str "3" then 3
  else if severity = str "ERROR" ∨ severity = str "2" then 2
  else if severity = str "WARN" ∨ severity = str "WARNING" ∨ severity = str "1" then 1
  else 0

/-! ## Pattern matching -/

def starTails : Str → List Str
  | [] => [[]]
  | b :: rest => (b :: rest) :: if b = 10 ∨ b = 13 then [] else starTails rest

/-- Full match of a text against a pattern in which 42, the star, is `.*`. -/
def regexMatch : Str → Str → Bool
  | [], faultCode => faultCode.isEmpty
  | c :: pattern, faultCode =>
      if c = 42 then (starTails faultCode).any (regexMatch pattern)
      else
        match faultCode with
        | [] => false
        | b :: rest => b = c && regexMatch pattern rest

def matchesWildcard (faultCode pattern : Str) : Bool :=
  if 42 ∈ pattern then regexMatch pattern faultCode else faultCode = pattern

def matchesAny (faultCode : Str) (codes : List Str) : Bool :=
  codes.any (matchesWildcard faultCode)

def CorrelationConfig.matchesPattern (config : CorrelationConfig) (faultCode patternId : Str) :
    Bool :=
  match config.patterns[patternId]? with
  | none => false
  | some pattern => matchesAny faultCode pattern.codes

/-! ## Validation -/

structure ValidationResult where
  valid : Bool := true
  errors : List Str := []
  warnings : List Str := []

namespace ValidationResult

def addError (result : ValidationResult) (msg : Str) : ValidationResult :=
  { result with valid := false, errors := result.errors ++ [msg] }

def addWarning (result : ValidationResult) (msg : Str) : ValidationResult :=
  { result with warnings := result.warnings ++ [msg] }

def errorIf (result : ValidationResult) (found : Bool) (msg : Str) : ValidationResult :=
  if found then result.addError msg else result

def warningIf (result : ValidationResult) (found : Bool) (msg : Str) : ValidationResult :=
  if found then result.addWarning msg else result

@[simp] theorem valid_errorIf (result : ValidationResult) (found : Bool) (msg : Str) :
    (result.errorIf found msg).valid = (result.valid && !found) := by
  cases found <;> simp [errorIf, addError]

@[simp] theorem valid_warningIf (result : ValidationResult) (found : Bool) (msg : Str) :
    (result.warningIf found msg).valid = result.valid := by
  cases found <;> simp [warningIf, addWarning]

end ValidationResult

def CorrelationRule.message (rule : CorrelationRule) (before after : String) : Str :=
  str before ++ rule.id ++ str after

def checkPattern (seen : OSet Str × ValidationResult) (entry : Str × FaultPattern) :
    OSet Str × ValidationResult :=
  let result := seen.2.errorIf (seen.1.contains entry.1) (str "Duplicate pattern ID: " ++ entry.1)
  (seen.1.insert entry.1,
    result.warningIf entry.2.codes.isEmpty
      (str "Pattern '" ++ entry.1 ++ str "' has no codes defined"))

def checkPatternRefs (patternIds : OSet Str) (rule : CorrelationRule) (refs : List Str)
    (result : ValidationResult) : ValidationResult :=
  refs.foldl (fun result patternId => result.errorIf (!patternIds.contains patternId)
    (rule.message "Rule '" "' references unknown pattern: " ++ patternId)) result

def checkMode (patternIds : OSet Str) (rule : CorrelationRule) (result : ValidationResult) :
    ValidationResult :=
  match rule.mode with
  | .hierarchical =>
      let result := result.errorIf rule.rootCauseCodes.isEmpty
        (rule.message "Hierarchical rule '" "' has no root_cause codes")
      let result := checkPatternRefs patternIds rule rule.symptomPatternIds result
      result.warningIf (rule.symptomPatternIds.isEmpty && rule.inlineSymptomCodes.isEmpty)
        (rule.message "Hierarchical rule '" "' has no symptoms defined")
  | .autoCluster =>
      let result := checkPatternRefs patternIds rule rule.matchPatternIds result
      let result := result.warningIf rule.matchPatternIds.isEmpty
        (rule.message "Auto-cluster rule '" "' has no match patterns defined")
      let result := result.errorIf (rule.minCount = 0)
        (rule.message "Rule '" "' has min_count=0, must be at least 1")
      result.warningIf (rule.minCount ≠ 0 && rule.minCount < 2)
        (rule.message "Rule '" "' has min_count < 2, which may cause false clusters")

def checkRule (patternIds : OSet Str) (seen : OSet Str × ValidationResult)
    (rule : CorrelationRule) : OSet Str × ValidationResult :=
  let result := seen.2.errorIf (seen.1.contains rule.id) (str "Duplicate rule ID: " ++ rule.id)
  let result := result.errorIf rule.id.isEmpty (str "Rule missing 'id' field")
  let result := checkMode patternIds rule result
  let result := result.errorIf (rule.windowMs = 0) (rule.message "Rule '" "' has window_ms=0")
  (seen.1.insert rule.id,
    result.warningIf (rule.windowMs > 60000)
      (rule.message "Rule '" "' has window_ms > 60s, which may be too long"))

def validateConfig (config : CorrelationConfig) : ValidationResult :=
  if !config.enabled then {}
  else
    let patterns := config.patterns.toList.foldl checkPattern (∅, {})
    let rules := config.rules.foldl (checkRule patterns.1) (∅, patterns.2)
    rules.2.warningIf config.rules.isEmpty (str "Correlation is enabled but no rules are defined")

structure CorrelationRule.WellFormed (patternIds : Str → Prop) (rule : CorrelationRule) : Prop where
  id_ne : rule.id ≠ []
  window_pos : 0 < rule.windowMs
  root_ne : rule.mode = .hierarchical → rule.rootCauseCodes ≠ []
  symptoms_known : rule.mode = .hierarchical → ∀ p ∈ rule.symptomPatternIds, patternIds p
  matches_known : rule.mode = .autoCluster → ∀ p ∈ rule.matchPatternIds, patternIds p
  count_pos : rule.mode = .autoCluster → 0 < rule.minCount

variable (patternIds : OSet Str)

theorem valid_checkPatternRefs (rule : CorrelationRule) (refs : List Str)
    (result : ValidationResult) : (checkPatternRefs patternIds rule refs result).valid = true ↔
      result.valid = true ∧ ∀ p ∈ refs, p ∈ patternIds := by
  unfold checkPatternRefs
  induction refs generalizing result with
  | nil => simp
  | cons p refs ih =>
    rw [List.foldl_cons, ih]
    simp [and_assoc]

theorem valid_checkRule (seen : OSet Str × ValidationResult) (rule : CorrelationRule) :
    (checkRule patternIds seen rule).2.valid = true ↔
      (seen.2.valid = true ∧ rule.id ∉ seen.1) ∧ rule.WellFormed (· ∈ patternIds) := by
  have hseen : seen.1.contains rule.id = false ↔ rule.id ∉ seen.1 := by
    rw [← Std.ExtTreeSet.contains_iff_mem, Bool.not_eq_true]
  cases hmode : rule.mode
  all_goals simp only [checkRule, checkMode, hmode, ValidationResult.valid_errorIf,
    ValidationResult.valid_warningIf, valid_checkPatternRefs, Bool.and_eq_true,
    Bool.not_eq_true', decide_eq_false_iff_not, List.isEmpty_eq_false_iff, hseen]
  case hierarchical =>
    constructor
    · rintro ⟨⟨⟨⟨⟨hvalid, hdup⟩, hid⟩, hroot⟩, hrefs⟩, hwindow⟩
      exact ⟨⟨hvalid, hdup⟩, hid, Nat.pos_of_ne_zero hwindow,
        fun _ => hroot, fun _ => hrefs, by simp [hmode], by simp [hmode]⟩
    · rintro ⟨⟨hvalid, hdup⟩, h⟩
      exact ⟨⟨⟨⟨⟨hvalid, hdup⟩, h.id_ne⟩, h.root_ne hmode⟩,
        h.symptoms_known hmode⟩, h.window_pos.ne'⟩
  case autoCluster =>
    constructor
    · rintro ⟨⟨⟨⟨⟨hvalid, hdup⟩, hid⟩, hrefs⟩, hcount⟩, hwindow⟩
      exact ⟨⟨hvalid, hdup⟩, hid, Nat.pos_of_ne_zero hwindow,
        by simp [hmode], by simp [hmode], fun _ => hrefs, fun _ => Nat.pos_of_ne_zero hcount⟩
    · rintro ⟨⟨hvalid, hdup⟩, h⟩
      exact ⟨⟨⟨⟨⟨hvalid, hdup⟩, h.id_ne⟩, h.matches_known hmode⟩,
        (h.count_pos hmode).ne'⟩, h.window_pos.ne'⟩

theorem valid_foldl_checkRule (rules : List CorrelationRule) (seen : OSet Str × ValidationResult) :
    (rules.foldl (checkRule patternIds) seen).2.valid = true ↔
      (seen.2.valid = true ∧ ∀ rule ∈ rules, rule.id ∉ seen.1) ∧
        rules.Pairwise (fun a b => a.id ≠ b.id) ∧
        ∀ rule ∈ rules, rule.WellFormed (· ∈ patternIds) := by
  induction rules generalizing seen with
  | nil => simp
  | cons rule rules ih =>
    have hids (id : Str) : id ∉ (checkRule patternIds seen rule).1 ↔ rule.id ≠ id ∧ id ∉ seen.1 := by
      simp [checkRule, Std.ExtTreeSet.mem_insert, not_or]
    rw [List.foldl_cons, ih, valid_checkRule]
    simp only [hids, List.mem_cons, forall_eq_or_imp, List.pairwise_cons, forall_and]
    tauto

theorem foldl_checkPattern (l : List (Str × FaultPattern)) (seen : OSet Str × ValidationResult)
    (hdistinct : l.Pairwise (fun a b => compare a.1 b.1 = .lt))
    (hfresh : ∀ entry ∈ l, entry.1 ∉ seen.1) : (l.foldl checkPattern seen).2.valid = seen.2.valid ∧
      ∀ id, id ∈ (l.foldl checkPattern seen).1 ↔ id ∈ seen.1 ∨ ∃ pattern, (id, pattern) ∈ l := by
  induction l generalizing seen with
  | nil => simp
  | cons entry l ih =>
    rw [List.pairwise_cons] at hdistinct
    have hids (id : Str) : id ∈ (checkPattern seen entry).1 ↔ entry.1 = id ∨ id ∈ seen.1 := by
      simp [checkPattern, Std.ExtTreeSet.mem_insert]
    have hnew : seen.1.contains entry.1 = false := by
      have h := hfresh entry List.mem_cons_self
      rwa [← Std.ExtTreeSet.contains_iff_mem, Bool.not_eq_true] at h
    obtain ⟨hvalid, hmem⟩ := ih (checkPattern seen entry) hdistinct.2 (by
      intro other hother hin
      rcases (hids other.1).mp hin with heq | hin
      · have := hdistinct.1 other hother
        rw [heq] at this
        simp at this
      · exact hfresh other (List.mem_cons_of_mem _ hother) hin)
    constructor
    · rw [List.foldl_cons, hvalid]
      simp [checkPattern, hnew]
    · intro id
      rw [List.foldl_cons, hmem, hids]
      obtain ⟨key, pattern⟩ := entry
      simp only [List.mem_cons, Prod.mk.injEq]
      constructor
      · rintro ((rfl | h) | ⟨p, h⟩)
        · exact .inr ⟨pattern, .inl ⟨rfl, rfl⟩⟩
        · exact .inl h
        · exact .inr ⟨p, .inr h⟩
      · rintro (h | ⟨p, ⟨rfl, -⟩ | h⟩)
        · exact .inl (.inr h)
        · exact .inl (.inl rfl)
        · exact .inr ⟨p, h⟩

/-- An enabled configuration is accepted exactly when the rule ids are distinct
and every rule is well formed over the defined patterns. -/
theorem validateConfig_valid_iff (config : CorrelationConfig) (henabled : config.enabled = true) :
    (validateConfig config).valid = true ↔
      config.rules.Pairwise (fun a b => a.id ≠ b.id) ∧
        ∀ rule ∈ config.rules, rule.WellFormed (· ∈ config.patterns) := by
  obtain ⟨hvalid, hmem⟩ := foldl_checkPattern config.patterns.toList (∅, {})
    Std.ExtTreeMap.ordered_keys_toList (by simp)
  have hids : (fun id => id ∈ (config.patterns.toList.foldl checkPattern (∅, {})).1) =
      (fun id => id ∈ config.patterns) := by
    funext id
    rw [hmem]
    simp only [Std.ExtTreeMap.mem_toList_iff_getElem?_eq_some,
      Std.ExtTreeMap.mem_iff_isSome_getElem?, Option.isSome_iff_exists, Std.ExtTreeSet.not_mem_empty,
      false_or]
  unfold validateConfig
  rw [henabled]
  simp only [Bool.not_true, Bool.false_eq_true, if_false, ValidationResult.valid_warningIf,
    valid_foldl_checkRule, hvalid, hids]
  simp

/-! ## The configuration of an engine -/

/-- An engine only exists for a configuration that is enabled and valid. -/
structure EngineConfig extends CorrelationConfig where
  isEnabled : enabled = true
  isValid : (validateConfig toCorrelationConfig).valid = true

def createCorrelationEngine (config : CorrelationConfig) : Option EngineConfig :=
  if h : config.enabled = true ∧ (validateConfig config).valid = true then
    some { config with isEnabled := h.1, isValid := h.2 }
  else none

theorem EngineConfig.rule_ext (config : EngineConfig) {a b : CorrelationRule}
    (ha : a ∈ config.rules) (hb : b ∈ config.rules) (hid : a.id = b.id) : a = b := by
  have hpair := ((validateConfig_valid_iff _ config.isEnabled).mp config.isValid).1
  have hsymm : Std.Symm (fun a b : CorrelationRule => a.id ≠ b.id) := ⟨fun _ _ h => h.symm⟩
  by_contra hne
  exact hpair.forall ha hb hne hid

end Medkit.Correlation
