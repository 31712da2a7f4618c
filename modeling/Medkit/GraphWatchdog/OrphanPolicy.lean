import Medkit.Lib.Bytes
import Medkit.Lib.EditDistance
import Medkit.Lib.OrderedMap

/-! Topics with publishers or subscribers alone are paired with a near miss of the same type. -/
namespace Medkit.GraphWatchdog

open Lib

structure TopicEndpointCounts where
  name : Str
  type : Str
  publishers : Nat := 0
  subscribers : Nat := 0
deriving DecidableEq

structure OrphanFinding where
  publisherTopic : Str
  subscriberTopic : Str
  reason : Str

/-! ## Distances -/

/-- The cells of a row behind the first one, from the cell before, the one above that and the row
above. -/
def cells (x : Byte) : Nat → Nat → Str → List Nat → List Nat
  | left, diagonal, y :: b, up :: prev =>
      let cell := min (up + 1) (min (left + 1) (diagonal + if x = y then 0 else 1))
      cell :: cells x cell up b prev
  | _, _, _, _ => []

/-- The rows for the characters of the first name, of which only the last one is kept. -/
def lastRow (b : Str) : Nat → List Nat → Str → List Nat
  | _, prev, [] => prev
  | i, prev, x :: a => lastRow b (i + 1) (i :: cells x i (prev.headD 0) b prev.tail) a

def levenshtein (a b : Str) : Nat :=
  (lastRow b 1 (List.range' 0 (b.length + 1)) a).getLastD 0

theorem distanceRow_cells {x : Byte} {a b ys : Str} {left diagonal : Nat} {prev : List Nat}
    (hprev : DistanceRow a b ys (diagonal :: prev)) (hleft : EditDistance (x :: a) b left) :
    DistanceRow (x :: a) b ys (left :: cells x left diagonal ys prev) := by
  induction ys generalizing b left diagonal prev with
  | nil =>
    cases hprev
    exact .last hleft
  | cons y ys ih =>
    cases hprev with
    | @cell _ _ _ _ prev hdiagonal hrow =>
      cases prev with
      | nil => cases hrow
      | cons up prev => exact .cell hleft (ih hrow (hrow.first.cons_cons hleft hdiagonal))

theorem distanceRow_lastRow {a b front : Str} {i : Nat} {prev : List Nat}
    (hi : i = front.length + 1) (hprev : DistanceRow front [] b prev) :
    DistanceRow (a.reverse ++ front) [] b (lastRow b i prev a) := by
  induction a generalizing front i prev with
  | nil => exact hprev
  | cons x a ih =>
    rw [List.reverse_cons, List.append_assoc]
    change DistanceRow (a.reverse ++ x :: front) [] b _
    refine ih (by simp [hi]) ?_
    have hfirst : EditDistance (x :: front) [] i := by
      rw [hi]
      exact EditDistance.nil_right (x :: front)
    cases prev with
    | nil => cases hprev
    | cons diagonal prev => exact distanceRow_cells hprev hfirst

theorem editDistance_levenshtein (a b : Str) : EditDistance a b (levenshtein a b) := by
  have hrow : DistanceRow (a.reverse ++ []) [] b (lastRow b 1 (List.range' 0 (b.length + 1)) a) :=
    distanceRow_lastRow rfl (DistanceRow.nil_left [] b)
  have hlast := hrow.getLast
  rw [List.append_nil, List.append_nil] at hlast
  exact hlast.of_reverse

theorem levenshtein_comm (a b : Str) : levenshtein a b = levenshtein b a :=
  (editDistance_levenshtein a b).unique (editDistance_levenshtein b a).symm

/-! ## Pairing -/

def isSystemTopic (name : Str) : Bool := name = str "/rosout" || name = str "/parameter_events"

def parentNamespace (topic : Str) : Str := parentPath topic

def leafName (topic : Str) : Str := lastSegment topic

theorem parentNamespace_append_leafName (topic : Str) :
    parentNamespace topic ++ leafName topic = topic :=
  parentPath_append_lastSegment topic

def collapseDigitRuns : Bool → Str → Str
  | _, [] => []
  | inDigits, c :: rest =>
      if isDigitByte c then (if inDigits then [] else str "#") ++ collapseDigitRuns true rest
      else c :: collapseDigitRuns false rest

def differsOnlyInNumericFields (a b : Str) : Bool :=
  a ≠ b && collapseDigitRuns false a = collapseDigitRuns false b

structure Budgets where
  maxEditDistance : Int
  namespaceEditDistance : Int := 0

namespace TopicEndpointCounts

def pubOnly (t : TopicEndpointCounts) : Bool := 0 < t.publishers && t.subscribers = 0

def subOnly (t : TopicEndpointCounts) : Bool := 0 < t.subscribers && t.publishers = 0

def admits (budgets : Budgets) (t u : TopicEndpointCounts) : Bool :=
  !isSystemTopic u.name && u.type = t.type &&
    !(budgets.namespaceEditDistance <
      levenshtein (parentNamespace t.name) (parentNamespace u.name)) &&
    !(budgets.maxEditDistance < levenshtein (leafName t.name) (leafName u.name)) &&
    !differsOnlyInNumericFields t.name u.name &&
    if t.pubOnly then u.subOnly else u.pubOnly

end TopicEndpointCounts

/-- A sum of machine integers. -/
def bound (budgets : Budgets) : Int :=
  (budgets.maxEditDistance + budgets.namespaceEditDistance + 1).bmod (2 ^ 32)

def consider (budgets : Budgets) (t : TopicEndpointCounts × Nat)
    (best : Int × Option TopicEndpointCounts) (u : TopicEndpointCounts × Nat) :
    Int × Option TopicEndpointCounts :=
  let d := levenshtein t.1.name u.1.name
  if u.2 ≠ t.2 && t.1.admits budgets u.1 && (1 ≤ d && (d : Int) < best.1) then (d, some u.1)
  else best

/-- The names in order, apart by a line feed. -/
def pairKey (a b : Str) : Str := if a < b then a ++ str "\n" ++ b else b ++ str "\n" ++ a

def finding (t u : TopicEndpointCounts) (best : Int) : OrphanFinding :=
  let pubSide := if t.pubOnly then t.name else u.name
  let subSide := if t.pubOnly then u.name else t.name
  { publisherTopic := pubSide
    subscriberTopic := subSide
    reason := str "possible topic-name mismatch: publisher-only '" ++ pubSide ++
      str "' and subscriber-only '" ++ subSide ++ str "' share type " ++ t.type ++
      str " and differ by " ++ intDecimal best ++
      str " char(s) - either a remap typo or a departed counterpart; check both before renaming" }

def report (topics : List TopicEndpointCounts) (budgets : Budgets)
    (state : List OrphanFinding × OSet Str) (t : TopicEndpointCounts × Nat) :
    List OrphanFinding × OSet Str :=
  if isSystemTopic t.1.name || !t.1.pubOnly && !t.1.subOnly then state
  else
    match topics.zipIdx.foldl (consider budgets t) (bound budgets, none) with
    | (_, none) => state
    | (best, some u) =>
        if pairKey t.1.name u.name ∈ state.2 then state
        else (state.1 ++ [finding t.1 u best], state.2.insert (pairKey t.1.name u.name))

def findOrphans (topics : List TopicEndpointCounts) (budgets : Budgets) : List OrphanFinding :=
  (topics.zipIdx.foldl (report topics budgets) ([], ∅)).1

/-! ## Near misses -/

def Within (budget : Int) (a b : Str) : Prop := ∃ n, EditDistance a b n ∧ (n : Int) ≤ budget

structure NearMiss (budgets : Budgets) (pub sub : TopicEndpointCounts) : Prop where
  sides : pub.pubOnly = true ∧ sub.subOnly = true
  userTopics : isSystemTopic pub.name = false ∧ isSystemTopic sub.name = false
  type : pub.type = sub.type
  namespaces : Within budgets.namespaceEditDistance
    (parentNamespace pub.name) (parentNamespace sub.name)
  leaves : Within budgets.maxEditDistance (leafName pub.name) (leafName sub.name)
  notNumeric : differsOnlyInNumericFields pub.name sub.name = false

theorem within_iff {budget : Int} {a b : Str} : Within budget a b ↔ levenshtein a b ≤ budget := by
  constructor
  · rintro ⟨n, hn, hle⟩
    rwa [(editDistance_levenshtein a b).unique hn]
  · exact fun h => ⟨_, editDistance_levenshtein a b, h⟩

theorem differsOnlyInNumericFields_comm (a b : Str) :
    differsOnlyInNumericFields a b = differsOnlyInNumericFields b a := by
  simp [differsOnlyInNumericFields, eq_comm]

section Loops

variable {topics : List TopicEndpointCounts} {budgets : Budgets} {t : TopicEndpointCounts × Nat}

theorem subOnly_eq_false {u : TopicEndpointCounts} (h : u.pubOnly = true) : u.subOnly = false := by
  simp only [TopicEndpointCounts.pubOnly, TopicEndpointCounts.subOnly, Bool.and_eq_true,
    decide_eq_true_eq] at h ⊢
  simp [h.2]

theorem admits_iff {t u : TopicEndpointCounts} (huser : isSystemTopic t.name = false)
    (hone : t.pubOnly = true ∨ t.subOnly = true) :
    t.admits budgets u = true ↔ NearMiss budgets t u ∨ NearMiss budgets u t := by
  simp only [TopicEndpointCounts.admits, Bool.and_eq_true, Bool.not_eq_true', decide_eq_true_eq,
    decide_eq_false_iff_not, not_lt, ← within_iff]
  by_cases hpub : t.pubOnly = true
  · rw [if_pos hpub]
    constructor
    · rintro ⟨⟨⟨⟨⟨hsystem, htype⟩, hns⟩, hleaf⟩, hnumeric⟩, hsub⟩
      exact .inl ⟨⟨hpub, hsub⟩, ⟨huser, hsystem⟩, htype.symm, hns, hleaf, hnumeric⟩
    · rintro (h | h)
      · exact ⟨⟨⟨⟨⟨h.userTopics.2, h.type.symm⟩, h.namespaces⟩, h.leaves⟩, h.notNumeric⟩, h.sides.2⟩
      · have := h.sides.2
        rw [subOnly_eq_false hpub] at this
        cases this
  · have hsub := hone.resolve_left hpub
    rw [if_neg hpub]
    constructor
    · rintro ⟨⟨⟨⟨⟨hsystem, htype⟩, hns⟩, hleaf⟩, hnumeric⟩, hpub'⟩
      refine .inr ⟨⟨hpub', hsub⟩, ⟨hsystem, huser⟩, htype, ?_, ?_, ?_⟩
      iterate 2 rwa [within_iff, levenshtein_comm, ← within_iff]
      rwa [differsOnlyInNumericFields_comm]
    · rintro (h | h)
      · exact absurd h.sides.1 hpub
      · refine ⟨⟨⟨⟨⟨h.userTopics.1, h.type⟩, ?_⟩, ?_⟩, ?_⟩, h.sides.1⟩
        · rw [within_iff, levenshtein_comm, ← within_iff]
          exact h.namespaces
        · rw [within_iff, levenshtein_comm, ← within_iff]
          exact h.leaves
        · rw [differsOnlyInNumericFields_comm]
          exact h.notNumeric

variable (budgets t) in
theorem foldl_consider (l : List (TopicEndpointCounts × Nat)) (start : Int) :
    (∃ u ∈ l, t.1.admits budgets u.1 = true ∧ l.foldl (consider budgets t) (start, none) =
      ((levenshtein t.1.name u.1.name : Int), some u.1)) ∨
    (l.foldl (consider budgets t) (start, none) = (start, none) ∧
      ∀ u ∈ l, u.2 ≠ t.2 → t.1.admits budgets u.1 = true → 1 ≤ levenshtein t.1.name u.1.name →
        start ≤ levenshtein t.1.name u.1.name) := by
  induction l using List.reverseRecOn with
  | nil => exact .inr ⟨rfl, by simp⟩
  | append_singleton l v ih =>
    rw [List.foldl_concat]
    by_cases htake : (v.2 ≠ t.2 && t.1.admits budgets v.1 && (1 ≤ levenshtein t.1.name v.1.name &&
        (levenshtein t.1.name v.1.name : Int) <
          (l.foldl (consider budgets t) (start, none)).1)) = true
    · rw [consider, if_pos htake]
      simp only [Bool.and_eq_true] at htake
      exact .inl ⟨v, by simp, htake.1.2, rfl⟩
    · rw [consider, if_neg htake]
      rcases ih with ⟨u, hu, hadmits, hfold⟩ | ⟨hfold, hnone⟩
      · exact .inl ⟨u, List.mem_append_left _ hu, hadmits, hfold⟩
      · refine .inr ⟨hfold, List.forall_mem_append.mpr ⟨hnone, ?_⟩⟩
        rw [List.forall_mem_singleton]
        intro hne hadmits hpos
        by_contra hlt
        refine htake ?_
        rw [hfold]
        simp [hne, hadmits, hpos, not_le.mp hlt]

/-! ## Keys -/

theorem pairKey_comm (a b : Str) : pairKey a b = pairKey b a := by
  rcases lt_trichotomy a b with h | rfl | h
  · rw [pairKey, pairKey, if_pos h, if_neg (lt_asymm h)]
  · rfl
  · rw [pairKey, pairKey, if_neg (lt_asymm h), if_pos h]

theorem pairKey_inj {a b c d : Str} (ha : 10 ∉ a) (hb : 10 ∉ b) (hc : 10 ∉ c) (hd : 10 ∉ d)
    (h : pairKey a b = pairKey c d) : a = c ∧ b = d ∨ a = d ∧ b = c := by
  have hsplit : ∀ {x y r s : Str}, 10 ∉ x → 10 ∉ y → x ++ str "\n" ++ r = y ++ str "\n" ++ s →
      x = y ∧ r = s := by
    intro x y r s hx hy heq
    rw [List.append_assoc, List.append_assoc] at heq
    obtain ⟨hxy, -, hrs⟩ := span_append_inj (· ≠ 10) (fun _ hb h => hx (h ▸ hb))
      (fun _ hb h => hy (h ▸ hb)) (by simp) (by simp) heq
    exact ⟨hxy, hrs⟩
  unfold pairKey at h
  split at h <;> split at h
  · exact .inl (hsplit ha hc h)
  · exact .inr (hsplit ha hd h)
  · exact .inr (hsplit hb hc h).symm
  · exact .inl (hsplit hb hd h).symm

/-! ## The outer loop -/

structure Reported (topics : List TopicEndpointCounts) (budgets : Budgets)
    (state : List OrphanFinding × OSet Str) : Prop where
  nearMiss : ∀ found ∈ state.1, ∃ pub ∈ topics, ∃ sub ∈ topics, NearMiss budgets pub sub ∧
    found.publisherTopic = pub.name ∧ found.subscriberTopic = sub.name
  keys : ∀ key, key ∈ state.2 ↔
    ∃ found ∈ state.1, pairKey found.publisherTopic found.subscriberTopic = key
  nodup : (state.1.map fun found => pairKey found.publisherTopic found.subscriberTopic).Nodup

theorem pairKey_finding (t u : TopicEndpointCounts) (best : Int) :
    pairKey (finding t u best).publisherTopic (finding t u best).subscriberTopic =
      pairKey t.name u.name := by
  simp only [finding]
  split
  · rfl
  · exact pairKey_comm _ _

variable (topics budgets t) in
/-- What the outer loop does with a topic: nothing, if it has no match; otherwise it reports the
pair unless its key was reported. -/
theorem report_cases (state : List OrphanFinding × OSet Str) :
    (report topics budgets state t = state ∧ ∀ u ∈ topics.zipIdx, u.2 ≠ t.2 →
      NearMiss budgets t.1 u.1 ∨ NearMiss budgets u.1 t.1 → 1 ≤ levenshtein t.1.name u.1.name →
        bound budgets ≤ levenshtein t.1.name u.1.name) ∨
    ∃ u ∈ topics, (NearMiss budgets t.1 u ∨ NearMiss budgets u t.1) ∧
      (pairKey t.1.name u.name ∈ state.2 ∧ report topics budgets state t = state ∨
        pairKey t.1.name u.name ∉ state.2 ∧ ∃ best, report topics budgets state t =
          (state.1 ++ [finding t.1 u best], state.2.insert (pairKey t.1.name u.name))) := by
  unfold report
  split
  · rename_i hskip
    refine .inl ⟨rfl, fun u _ _ hnear _ => ?_⟩
    simp only [Bool.or_eq_true, Bool.and_eq_true, Bool.not_eq_true'] at hskip
    rcases hnear with h | h <;> rcases hskip with hskip | hskip <;>
      simp [h.userTopics, h.sides] at hskip
  · rename_i hskip
    simp only [Bool.or_eq_true, Bool.and_eq_true, Bool.not_eq_true', not_or, Bool.not_eq_true,
      not_and_or, Bool.not_eq_false] at hskip
    have hiff : ∀ u, t.1.admits budgets u = true ↔ _ := fun u => admits_iff hskip.1 hskip.2
    rcases foldl_consider budgets t topics.zipIdx (bound budgets) with
      ⟨u, hu, hadmits, hfold⟩ | ⟨hfold, hnone⟩
    · rw [hfold]
      dsimp only
      refine .inr ⟨u.1, List.fst_mem_of_mem_zipIdx hu, (hiff u.1).mp hadmits, ?_⟩
      split
      · next hkey => exact .inl ⟨hkey, rfl⟩
      · next hkey => exact .inr ⟨hkey, _, rfl⟩
    · rw [hfold]
      exact .inl ⟨rfl, fun u hu hne hnear => hnone u hu hne ((hiff u.1).mpr hnear)⟩

theorem nearMiss_finding {t u : TopicEndpointCounts} {best : Int}
    (h : NearMiss budgets t u ∨ NearMiss budgets u t) (ht : t ∈ topics) (hu : u ∈ topics) :
    ∃ pub ∈ topics, ∃ sub ∈ topics, NearMiss budgets pub sub ∧
      (finding t u best).publisherTopic = pub.name ∧
      (finding t u best).subscriberTopic = sub.name := by
  rcases h with h | h
  · refine ⟨t, ht, u, hu, h, ?_⟩
    simp [finding, h.sides.1]
  · refine ⟨u, hu, t, ht, h, ?_⟩
    have hpub : t.pubOnly = false := by
      by_contra htrue
      exact absurd h.sides.2 (by simp [subOnly_eq_false (Bool.eq_true_of_not_eq_false htrue)])
    simp [finding, hpub]

variable {state : List OrphanFinding × OSet Str}

theorem Reported.step (h : Reported topics budgets state) (ht : t ∈ topics.zipIdx) :
    Reported topics budgets (report topics budgets state t) := by
  have htopic := List.fst_mem_of_mem_zipIdx ht
  rcases report_cases topics budgets t state with
    ⟨hsame, -⟩ | ⟨u, hu, hnear, ⟨-, hsame⟩ | ⟨hkey, best, hnew⟩⟩
  · rwa [hsame]
  · rwa [hsame]
  · rw [hnew]
    constructor
    · rw [List.forall_mem_append, List.forall_mem_singleton]
      exact ⟨h.nearMiss, nearMiss_finding hnear htopic hu⟩
    · intro key
      simp only [Std.ExtTreeSet.mem_insert, Std.LawfulEqCmp.compare_eq_iff_eq, h.keys,
        List.mem_append, List.mem_singleton, or_and_right, exists_or, exists_eq_left,
        pairKey_finding]
      exact or_comm
    · rw [List.map_append, List.map_singleton, pairKey_finding, List.nodup_append]
      refine ⟨h.nodup, List.nodup_singleton _, ?_⟩
      intro key hkey' key' hsingle
      rw [List.mem_singleton.mp hsingle]
      rintro rfl
      exact hkey ((h.keys _).mpr (List.mem_map.mp hkey'))

theorem fst_subset_report (state : List OrphanFinding × OSet Str) :
    state.1 ⊆ (report topics budgets state t).1 := by
  rcases report_cases topics budgets t state with
    ⟨hsame, -⟩ | ⟨u, -, -, ⟨-, hsame⟩ | ⟨-, best, hnew⟩⟩
  · rw [hsame]
    exact List.Subset.refl _
  · rw [hsame]
    exact List.Subset.refl _
  · rw [hnew]
    exact List.subset_append_left _ _

def Named (name : Str) (findings : List OrphanFinding) : Prop :=
  ∃ found ∈ findings, name = found.publisherTopic ∨ name = found.subscriberTopic

/-- A topic with a match below the bound is named when its turn is over, by its own finding or by
the one that took the key. -/
theorem named_report {u : TopicEndpointCounts × Nat} (h : Reported topics budgets state)
    (hnames : ∀ u ∈ topics, 10 ∉ u.name) (ht : t ∈ topics.zipIdx) (hu : u ∈ topics.zipIdx)
    (hne : u.2 ≠ t.2) (hnear : NearMiss budgets t.1 u.1 ∨ NearMiss budgets u.1 t.1)
    (hpos : 1 ≤ levenshtein t.1.name u.1.name)
    (hlt : levenshtein t.1.name u.1.name < bound budgets) :
    Named t.1.name (report topics budgets state t).1 := by
  have htopic := List.fst_mem_of_mem_zipIdx ht
  rcases report_cases topics budgets t state with
    ⟨-, hnone⟩ | ⟨v, hv, -, ⟨hkey, hsame⟩ | ⟨-, best, hnew⟩⟩
  · exact absurd (hnone u hu hne hnear hpos) (not_le.mpr hlt)
  · obtain ⟨found, hfound, heq⟩ := (h.keys _).mp hkey
    obtain ⟨pub, hpub, sub, hsub, -, hpubName, hsubName⟩ := h.nearMiss found hfound
    rw [hsame]
    refine ⟨found, hfound, ?_⟩
    rw [hpubName, hsubName] at heq ⊢
    rcases pairKey_inj (hnames pub hpub) (hnames sub hsub) (hnames _ htopic) (hnames v hv) heq with
      h | h
    · exact .inl h.1.symm
    · exact .inr h.2.symm
  · rw [hnew]
    refine ⟨finding t.1 v best, by simp, ?_⟩
    simp only [finding]
    split
    · exact .inl rfl
    · exact .inr rfl

theorem reported_foldl {l : List (TopicEndpointCounts × Nat)} (hl : l ⊆ topics.zipIdx)
    (h : Reported topics budgets state) :
    Reported topics budgets (l.foldl (report topics budgets) state) ∧
      state.1 ⊆ (l.foldl (report topics budgets) state).1 ∧
      ∀ t ∈ l, (∀ state, Reported topics budgets state →
          Named t.1.name (report topics budgets state t).1) →
        Named t.1.name (l.foldl (report topics budgets) state).1 := by
  induction l generalizing state with
  | nil => exact ⟨h, List.Subset.refl _, by simp⟩
  | cons v l ih =>
    obtain ⟨hv, hl⟩ := List.cons_subset.mp hl
    obtain ⟨hreported, hgrow, hnamed⟩ := ih hl (h.step hv)
    refine ⟨hreported, List.Subset.trans (fst_subset_report state) hgrow, ?_⟩
    rw [List.forall_mem_cons]
    refine ⟨fun hturn => ?_, hnamed⟩
    obtain ⟨found, hfound, hname⟩ := hturn state h
    exact ⟨found, hgrow hfound, hname⟩

theorem NearMiss.levenshtein_bounds {pub sub : TopicEndpointCounts} (h : NearMiss budgets pub sub)
    (hdistinct : (topics.map fun t => (t.name, t.type)).Nodup) (hpub : pub ∈ topics)
    (hsub : sub ∈ topics) :
    1 ≤ levenshtein pub.name sub.name ∧ (levenshtein pub.name sub.name : Int) ≤
      budgets.maxEditDistance + budgets.namespaceEditDistance := by
  constructor
  · by_contra hzero
    have hedits := (editDistance_levenshtein pub.name sub.name).1
    rw [Nat.lt_one_iff.mp (not_le.mp hzero)] at hedits
    have hname : pub.name = sub.name := Edits.eq_of_zero hedits
    have hsame := List.inj_on_of_nodup_map hdistinct hpub hsub (Prod.ext hname h.type)
    have hsides := h.sides
    rw [← hsame, subOnly_eq_false hsides.1] at hsides
    cases hsides.2
  · have hns := within_iff.mp h.namespaces
    have hleaf := within_iff.mp h.leaves
    have hedits := Edits.append
      (editDistance_levenshtein (parentNamespace pub.name) (parentNamespace sub.name)).1
      (editDistance_levenshtein (leafName pub.name) (leafName sub.name)).1
    rw [parentNamespace_append_leafName, parentNamespace_append_leafName] at hedits
    have hle := (editDistance_levenshtein pub.name sub.name).2 hedits
    omega

end Loops

/-- For topics of distinct names and types whose names have no line feed, and budgets whose sum is a
machine integer: every finding is a near miss, no pair of names is reported twice in either order,
and every topic with a counterpart is named. -/
theorem findOrphans_spec (topics : List TopicEndpointCounts) (budgets : Budgets)
    (hdistinct : (topics.map fun t => (t.name, t.type)).Nodup)
    (hnames : ∀ t ∈ topics, 10 ∉ t.name)
    (hnonneg : 0 ≤ budgets.maxEditDistance ∧ 0 ≤ budgets.namespaceEditDistance)
    (hfits : budgets.maxEditDistance + budgets.namespaceEditDistance + 1 < 2 ^ 31) :
    (∀ found ∈ findOrphans topics budgets, ∃ pub ∈ topics, ∃ sub ∈ topics,
      NearMiss budgets pub sub ∧ found.publisherTopic = pub.name ∧
        found.subscriberTopic = sub.name) ∧
    ((findOrphans topics budgets).map fun found =>
      s(found.publisherTopic, found.subscriberTopic)).Nodup ∧
    ∀ pub ∈ topics, ∀ sub ∈ topics, NearMiss budgets pub sub →
      Named pub.name (findOrphans topics budgets) ∧
        Named sub.name (findOrphans topics budgets) := by
  have hstart : Reported topics budgets ([], ∅) := ⟨by simp, by simp, by simp⟩
  obtain ⟨hreported, -, hnamed⟩ := reported_foldl (List.Subset.refl _) hstart
  refine ⟨hreported.nearMiss, ?_, ?_⟩
  · refine List.Nodup.of_map (Sym2.lift ⟨pairKey, pairKey_comm⟩) ?_
    rw [List.map_map]
    exact hreported.nodup
  · intro pub hpub sub hsub hnear
    obtain ⟨i, hi⟩ := List.mem_iff_getElem?.mp hpub
    obtain ⟨j, hj⟩ := List.mem_iff_getElem?.mp hsub
    have hi' : (pub, i) ∈ topics.zipIdx := List.mem_zipIdx_iff_getElem?.mpr hi
    have hj' : (sub, j) ∈ topics.zipIdx := List.mem_zipIdx_iff_getElem?.mpr hj
    obtain ⟨hpos, hle⟩ := hnear.levenshtein_bounds hdistinct hpub hsub
    have hne : i ≠ j := by
      rintro rfl
      obtain rfl : pub = sub := Option.some.inj (hi.symm.trans hj)
      exact absurd hnear.sides.2 (by simp [subOnly_eq_false hnear.sides.1])
    have hlt : (levenshtein pub.name sub.name : Int) < bound budgets := by
      rw [bound, Int.bmod_eq_of_le (by omega) (by omega)]
      omega
    constructor
    · refine hnamed (pub, i) hi' fun state h => ?_
      exact named_report h hnames hi' hj' hne.symm (.inl hnear) hpos hlt
    · refine hnamed (sub, j) hj' fun state h => ?_
      rw [levenshtein_comm] at hpos hlt
      exact named_report h hnames hj' hi' hne (.inr hnear) hpos hlt

theorem findOrphans_spec_for_scan :
    let topics : List TopicEndpointCounts :=
      [⟨str "/scann", str "T", 1, 0⟩, ⟨str "/scan", str "T", 0, 1⟩]
    NearMiss ⟨1, 0⟩ ⟨str "/scann", str "T", 1, 0⟩ ⟨str "/scan", str "T", 0, 1⟩ ∧
      Named (str "/scann") (findOrphans topics ⟨1, 0⟩) ∧
      Named (str "/scan") (findOrphans topics ⟨1, 0⟩) := by
  have hnear : NearMiss ⟨1, 0⟩ ⟨str "/scann", str "T", 1, 0⟩ ⟨str "/scan", str "T", 0, 1⟩ :=
    ⟨by decide, by decide, rfl, within_iff.mpr (by decide), within_iff.mpr (by decide), by decide⟩
  exact ⟨hnear, (findOrphans_spec _ ⟨1, 0⟩ (by decide) (by decide) (by decide) (by decide)).2.2
    _ (by decide) _ (by decide) hnear⟩

/-- Two pairs of names with one key: the second pair is taken for the first and not reported. -/
theorem line_feed_joins_pairs :
    let topics : List TopicEndpointCounts :=
      [⟨str "p\nq", str "T", 1, 0⟩, ⟨str "r", str "T", 0, 1⟩,
        ⟨str "p", str "U", 1, 0⟩, ⟨str "q\nr", str "U", 0, 1⟩]
    (topics.map fun t => (t.name, t.type)).Nodup ∧
      NearMiss ⟨3, 0⟩ ⟨str "p", str "U", 1, 0⟩ ⟨str "q\nr", str "U", 0, 1⟩ ∧
      ¬ Named (str "p") (findOrphans topics ⟨3, 0⟩) := by
  refine ⟨by decide, ?_, ?_⟩
  · exact ⟨by decide, by decide, rfl, within_iff.mpr (by decide), within_iff.mpr (by decide),
      by decide⟩
  · unfold Named
    decide

end Medkit.GraphWatchdog
