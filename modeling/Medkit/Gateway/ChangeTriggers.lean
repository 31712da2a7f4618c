import Medkit.Lib.Bytes
import Medkit.Lib.Machine

/-! `OnChange` triggers. The trigger keeps one previous value, whatever entity and resource it
came from, so a trigger over several of them compares each change with the latest of all. JSON
values are an arbitrary type with the comparison of the JSON library, in which not every value
equals itself, and the lookup of a JSON Pointer is a parameter. -/
namespace Medkit.Gateway.Triggers

open Lib

structure TriggerInfo where
  entityId : Str
  entityType : Str
  collection : Str
  /-- empty: the whole collection -/
  resourcePath : Str := []
  /-- JSON Pointer, empty: the whole value -/
  path : Str := []
  multishot : Bool := false
  expiresAt : Option Int := none

structure ResourceChange (J : Type) where
  collection : Str
  entityId : Str
  resourcePath : Str
  value : J

/-- A call of `on_resource_change`, with the clock and the hierarchy that it reads. -/
structure Delivery (J : Type) where
  change : ResourceChange J
  now : Int
  /-- `entity_children_fn_`, if one is set -/
  entityChildren : Option (Str → Str → List Str) := none

structure TriggerState (J : Type) where
  info : TriggerInfo
  previousValue : Option J := none
  /-- not terminated, and still in the dispatch index -/
  active : Bool := true

def dispatchKey (collection entityId : Str) : Str := collection ++ str ":" ++ entityId

def TriggerInfo.dispatchKeys (info : TriggerInfo) : List Str :=
  [dispatchKey info.collection info.entityId, dispatchKey info.collection []]

section Triggers

variable {J : Type} (valueAt : Str → J → Option J)

def TriggerInfo.isCandidate (info : TriggerInfo) (change : ResourceChange J) : Bool :=
  info.dispatchKeys.contains (dispatchKey change.collection change.entityId) ||
    info.dispatchKeys.contains (dispatchKey change.collection [])

def TriggerInfo.isExpired (info : TriggerInfo) (now : Int) : Bool :=
  match info.expiresAt with
  | none => false
  | some expiresAt => now ≥ expiresAt

def TriggerInfo.matchesEntity (info : TriggerInfo) (d : Delivery J) : Bool :=
  info.entityId = d.change.entityId ||
    match d.entityChildren with
    | none => false
    | some children => (children info.entityId info.entityType).contains d.change.entityId

/-- The value that the trigger looks at; `none` if the pointer is malformed or leads nowhere. -/
def TriggerInfo.extractedValue (info : TriggerInfo) (change : ResourceChange J) : Option J :=
  if info.path.isEmpty then some change.value else valueAt info.path change.value

abbrev TriggerEvent (J : Type) := Event (TriggerState J) (Delivery J) Bool

abbrev Resource := Str × Str

def Delivery.resource (d : Delivery J) : Resource := (d.change.entityId, d.change.resourcePath)

def TriggerInfo.matching (info : TriggerInfo) (d : Delivery J) : Option J :=
  if info.isCandidate d.change &&
      (info.resourcePath.isEmpty || info.resourcePath = d.change.resourcePath) &&
      info.matchesEntity d then
    info.extractedValue valueAt d.change
  else none

def TriggerInfo.matched (info : TriggerInfo) (history : List (TriggerEvent J)) :
    List (Resource × J) :=
  history.filterMap fun event =>
    (info.matching valueAt event.op).map fun value => (event.op.resource, value)

def TriggerInfo.lastOf (info : TriggerInfo) (history : List (TriggerEvent J))
    (resource : Resource) : Option J :=
  ((info.matched valueAt history).find? (·.1 = resource)).map (·.2)

variable [BEq J]

def evaluateOnChange (previous : Option J) (current : J) : Bool :=
  match previous with
  | none => true
  | some previous => previous != current

/-- One trigger in `on_resource_change`, and whether it fires. -/
def TriggerState.onResourceChange (state : TriggerState J) (d : Delivery J) :
    TriggerState J × Bool :=
  if !state.info.isCandidate d.change || !state.active then (state, false)
  else if state.info.isExpired d.now then ({ state with active := false }, false)
  else if !state.info.resourcePath.isEmpty && state.info.resourcePath ≠ d.change.resourcePath then
    (state, false)
  else if !state.info.matchesEntity d then (state, false)
  else
    match state.info.extractedValue valueAt d.change with
    | none => (state, false)
    | some value =>
        let fired := evaluateOnChange state.previousValue value
        -- a one-shot trigger terminates when it fires
        ({ state with
            previousValue := some value
            active := !(fired && !state.info.multishot) }, fired)

def triggerMachine (info : TriggerInfo) : Machine (TriggerState J) (Delivery J) Bool where
  init := { info := info }
  step := TriggerState.onResourceChange valueAt

/-! ## Changes that are due -/

def repeats (previous : Option J) (value : J) : Bool :=
  match previous with
  | none => false
  | some previous => previous == value

def TriggerInfo.Due (info : TriggerInfo) (earlier : List (TriggerEvent J)) (d : Delivery J) :
    Prop :=
  ∃ value, info.matching valueAt d = some value ∧
    repeats (info.lastOf valueAt earlier d.resource) value = false

/-- When the trigger is right about a change. While it is alive, a matching change of another
resource than the one before repeats the value of that one exactly if it repeats the value of
its own resource; afterwards every matching change repeats the value of its own resource. -/
def InTurn (info : TriggerInfo) (earlier : List (TriggerEvent J)) (state : TriggerState J)
    (d : Delivery J) : Prop :=
  ∀ value, info.matching valueAt d = some value →
    if state.active && !info.isExpired d.now then
      ∀ other previous, (info.matched valueAt earlier).head? = some (other, previous) →
        other ≠ d.resource →
        (previous == value) = repeats (info.lastOf valueAt earlier d.resource) value
    else repeats (info.lastOf valueAt earlier d.resource) value = true

structure Follows (info : TriggerInfo) (history : List (TriggerEvent J)) (state : TriggerState J) :
    Prop where
  same : state.info = info
  previous : state.active = true →
    state.previousValue = ((info.matched valueAt history).head?).map (·.2)

variable {valueAt} {info : TriggerInfo}

theorem evaluateOnChange_eq (previous : Option J) (value : J) :
    evaluateOnChange previous value = !repeats previous value := by
  cases previous <;> rfl

variable {state : TriggerState J}

theorem onResourceChange_of_matching {d : Delivery J} {value : J}
    (h : state.info.matching valueAt d = some value) : state.onResourceChange valueAt d =
      if !state.active then (state, false)
      else if state.info.isExpired d.now then ({ state with active := false }, false)
      else ({ state with
          previousValue := some value
          active := repeats state.previousValue value || state.info.multishot },
        !repeats state.previousValue value) := by
  unfold TriggerInfo.matching at h
  split_ifs at h with hmatch
  simp only [Bool.and_eq_true, Bool.or_eq_true, decide_eq_true_eq, List.isEmpty_iff] at hmatch
  obtain ⟨⟨hcandidate, hpath⟩, hentity⟩ := hmatch
  have hpath' : ¬(¬state.info.resourcePath = [] ∧
      ¬state.info.resourcePath = d.change.resourcePath) := by
    rintro ⟨hne, hother⟩
    exact hpath.elim hne hother
  unfold TriggerState.onResourceChange
  simp [hcandidate, hpath', hentity, h, evaluateOnChange_eq]

theorem onResourceChange_of_unmatched {d : Delivery J} (h : state.info.matching valueAt d = none) :
    (state.onResourceChange valueAt d).2 = false ∧
      (state.onResourceChange valueAt d).1.previousValue = state.previousValue ∧
      ((state.onResourceChange valueAt d).1.active = true → state.active = true) := by
  unfold TriggerInfo.matching at h
  unfold TriggerState.onResourceChange
  split
  · exact ⟨rfl, rfl, id⟩
  · split
    · exact ⟨rfl, rfl, nofun⟩
    · split
      · exact ⟨rfl, rfl, id⟩
      · split
        · exact ⟨rfl, rfl, id⟩
        · rename_i hcandidate _ hpath hentity
          have hvalue : state.info.extractedValue valueAt d.change = none := by
            by_cases hempty : state.info.resourcePath = [] <;> simp_all
          rw [hvalue]
          exact ⟨rfl, rfl, id⟩

theorem info_onResourceChange (state : TriggerState J) (d : Delivery J) :
    (state.onResourceChange valueAt d).1.info = state.info := by
  unfold TriggerState.onResourceChange
  split_ifs
  · rfl
  · rfl
  · rfl
  · rfl
  · split <;> rfl

/-! ## Runs -/

theorem follows_step {history : List (TriggerEvent J)} (d : Delivery J)
    (h : Follows valueAt info history state) : Follows valueAt info
      (⟨state, d, (state.onResourceChange valueAt d).2⟩ :: history)
      (state.onResourceChange valueAt d).1 := by
  obtain ⟨rfl, hprevious⟩ := h
  refine ⟨info_onResourceChange state d, ?_⟩
  cases hmatching : state.info.matching valueAt d with
  | none =>
    obtain ⟨-, hkept, hactive⟩ := onResourceChange_of_unmatched hmatching
    intro halive
    rw [hkept, hprevious (hactive halive)]
    simp [TriggerInfo.matched, hmatching]
  | some value =>
    rw [onResourceChange_of_matching hmatching]
    split_ifs with hdead hexpired
    · intro halive
      change state.active = true at halive
      simp [halive] at hdead
    · exact nofun
    · intro _
      simp [TriggerInfo.matched, hmatching]

theorem fires_iff_due_step {history : List (TriggerEvent J)} (d : Delivery J)
    (h : Follows valueAt info history state) :
    ((state.onResourceChange valueAt d).2 = true ↔ info.Due valueAt history d) ↔
      InTurn valueAt info history state d := by
  obtain ⟨rfl, hprevious⟩ := h
  cases hmatching : state.info.matching valueAt d with
  | none =>
    simp [onResourceChange_of_unmatched hmatching, TriggerInfo.Due, InTurn, hmatching]
  | some value =>
    have hstep := onResourceChange_of_matching hmatching
    simp only [TriggerInfo.Due, InTurn, hmatching, Option.some.injEq, exists_eq_left', forall_eq']
    by_cases halive : (state.active && !state.info.isExpired d.now) = true
    · obtain ⟨hactive, hexpired⟩ := Bool.and_eq_true_iff.mp halive
      rw [Bool.not_eq_true'] at hexpired
      rw [if_pos halive, hstep]
      simp only [hactive, hexpired, Bool.not_true, Bool.false_eq_true, if_false,
        hprevious hactive, Bool.not_eq_true']
      cases hhead : (state.info.matched valueAt history).head? with
      | none =>
        have hnil := List.head?_eq_none_iff.mp hhead
        simp [TriggerInfo.lastOf, hnil, repeats]
      | some entry =>
        obtain ⟨other, previous⟩ := entry
        by_cases hsame : other = d.resource
        · -- the change before was of the same resource
          have hlast : state.info.lastOf valueAt history d.resource = some previous := by
            obtain ⟨rest, hmatched⟩ := List.head?_eq_some_iff.mp hhead
            simp [TriggerInfo.lastOf, hmatched, hsame]
          simp [hlast, repeats, hsame]
        · generalize repeats (state.info.lastOf valueAt history d.resource) value = own
          cases own <;> cases hrepeats : previous == value <;> simp [hsame, hrepeats, repeats]
    · have hsilent : (state.onResourceChange valueAt d).2 = false := by
        rw [Bool.and_eq_true_iff, Bool.not_eq_true'] at halive
        rw [hstep]
        split_ifs <;> simp_all
      rw [if_neg halive, hsilent]
      simp

/-- Over every sequence of changes: the trigger fires exactly on the first change of a resource
and on those with a new value of their resource, exactly if each change is in turn. -/
theorem fires_on_changes_iff (valueAt : Str → J → Option J) (info : TriggerInfo)
    (deliveries : List (Delivery J)) :
    let m := triggerMachine valueAt info
    let history := m.history [] m.init deliveries
    (∀ event earlier, event :: earlier <:+ history →
      (event.out = true ↔ info.Due valueAt earlier event.op)) ↔
    ∀ event earlier, event :: earlier <:+ history →
      InTurn valueAt info earlier event.before event.op := by
  intro m history
  have hr : m.Runs (fun _ _ => True) history (m.exec m.init deliveries) :=
    Machine.Runs.start.exec deliveries (m.guarded_true m.init deliveries)
  have hinv := hr.invariant
    (fun h s => Follows valueAt info h s ∧ ∀ event earlier, event :: earlier <:+ h →
      ((event.out = true ↔ info.Due valueAt earlier event.op) ↔
        InTurn valueAt info earlier event.before event.op))
    ⟨⟨rfl, fun _ => rfl⟩, by simp⟩
    (by
      intro h s d _ _ ⟨hfollows, hsteps⟩
      refine ⟨follows_step d hfollows, ?_⟩
      intro event earlier hsuffix
      rcases List.suffix_cons_iff.mp hsuffix with heq | hsuffix
      · cases heq
        exact fires_iff_due_step d hfollows
      · exact hsteps event earlier hsuffix)
  constructor
  · intro hright event earlier hsuffix
    exact (hinv.2 event earlier hsuffix).mp (hright event earlier hsuffix)
  · intro hturn event earlier hsuffix
    exact (hinv.2 event earlier hsuffix).mpr (hturn event earlier hsuffix)

end Triggers

def armChange (entityId : String) (value : Nat) : Delivery Nat where
  change :=
    { collection := str "data", entityId := str entityId, resourcePath := str "/temperature"
      value := value }
  now := 0
  entityChildren := some fun _ _ => [str "left_arm", str "right_arm"]

/-- The left arm stays at 1, but the change of the right arm in between makes the trigger fire
again; and it does not fire on the first change of the right arm to the value of the left. -/
theorem fires_on_unchanged_and_misses_first :
    let info : TriggerInfo :=
      { entityId := str "robot", entityType := str "areas", collection := str "data"
        multishot := true }
    let m := triggerMachine (fun _ (value : Nat) => some value) info
    m.outputs m.init [armChange "left_arm" 1, armChange "right_arm" 2, armChange "left_arm" 1] =
      [true, true, true] ∧
    m.outputs m.init [armChange "left_arm" 1, armChange "right_arm" 1] = [true, false] := by
  decide

end Medkit.Gateway.Triggers
