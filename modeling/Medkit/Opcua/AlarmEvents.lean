import Medkit.Lib.Substring
import Medkit.Opcua.AddressSpaceBrowser
import Medkit.Opcua.AlarmConditions

/-! How an OPC UA event reaches the table of conditions: the fault it resolves to, by the
source's mappings or by `auto_alarms`, and the bracket of a ConditionRefresh, in which the
events of a burst are remembered until its `RefreshEnd` retires every condition that was not
replayed. One set and one flag serve the bursts of all sources. -/
namespace Medkit.Opcua

open Lib Std
open NodeIds (NodeId NodeMap canonicalNodeId)

/-! ## Which fault an event stands for -/

def contains (text needle : Str) : Bool := (findSub needle text).isSome

structure ResolvedAlarm where
  faultCode : Str
  severityOverride : Str
  messageOverride : Str

structure AlarmIdentity where
  conditionName : Str := []
  sourceName : Str := []
  sourceNode : Str
  eventType : Str := []
  message : Str := []
  severity : Nat := 0

/-- An empty match field is a wildcard. -/
def AlarmMapping.applies (mapping : AlarmMapping) (identity : AlarmIdentity) : Bool :=
  (mapping.matchConditionName = [] ∨ mapping.matchConditionName = identity.conditionName) &&
  (mapping.matchSourceNode = [] ∨ mapping.matchSourceNode = identity.sourceNode) &&
  (mapping.matchEventType = [] ∨ mapping.matchEventType = identity.eventType) &&
  (mapping.matchMessage = [] ∨ contains identity.message mapping.matchMessage)

/-- The first mapping that applies wins, then the code of the source itself; `none` is an
alarm that is not matched. -/
def resolveAlarm (cfg : AlarmEventConfig) (identity : AlarmIdentity) : Option ResolvedAlarm :=
  match cfg.mappings.find? (·.applies identity) with
  | some mapping => some
      { faultCode := mapping.faultCode
        severityOverride :=
          if mapping.severityOverride = [] then cfg.severityOverride else mapping.severityOverride
        messageOverride :=
          if mapping.messageOverride = [] then cfg.messageOverride else mapping.messageOverride }
  | none =>
      if cfg.faultCode = [] then none
      else some ⟨cfg.faultCode, cfg.severityOverride, cfg.messageOverride⟩

structure AutoAlarmsSeverityBands where
  criticalMin : Nat := 801
  errorMin : Nat := 501
  warningMin : Nat := 201

structure AutoAlarmsConfig where
  enabled : Bool := false
  sourceNodeIdStr : Str := str "i=2253"
  entityId : Str := []
  autoClear : Bool := true
  severityBands : AutoAlarmsSeverityBands := {}
  includePatterns : List Str := []
  excludePatterns : List Str := []

structure Settings where
  eventAlarms : List AlarmEventConfig
  autoAlarms : AutoAlarmsConfig := {}
  nodeMap : NodeMap AutoBrowser.DataPoint := {}
  /-- The decoder of the OPC UA library. -/
  fromBase64 : Str → Option Str := fun _ => none
  requireConfirmForClear : Bool := true

def nodeIdsEquivalent (settings : Settings) (a b : Str) : Bool :=
  a = b || match canonicalNodeId settings.fromBase64 a, canonicalNodeId settings.fromBase64 b with
    | some a, some b => a = b
    | _, _ => false

/-- Alphanumerics in upper case, every other run one underscore, none at the ends. -/
def slugify (s : Str) : Str :=
  let underscore : Byte := 95
  let append (out : Str) (b : Byte) : Str :=
    if isAlnumByte b then out ++ [toUpperByte b]
    else if out ≠ [] ∧ out.getLast? ≠ some underscore then out ++ [underscore]
    else out
  let out := s.foldl append []
  (out.reverse.dropWhile (· = underscore)).reverse

/-- FNV-1a with 32 bits, as eight hexadecimal digits. -/
def shortHashHex (s : Str) : Str :=
  let h := s.foldl (fun h b => (h ^^^ b.val) * 16777619 % 2 ^ 32) 2166136261
  (List.range 8).map fun i => hexCharacter true (h / 16 ^ (7 - i) % 16)

def deriveAutoFaultCode (settings : Settings) (identity : AlarmIdentity) : Str :=
  let sourceKey := (canonicalNodeId settings.fromBase64 identity.sourceNode).getD
    identity.sourceNode
  if slugify identity.conditionName ≠ [] then
    str "PLC_ALARM_" ++ slugify identity.conditionName ++ str "_" ++ shortHashHex sourceKey
  else if slugify identity.sourceName ≠ [] then
    str "PLC_ALARM_" ++ slugify identity.sourceName ++ str "_" ++ shortHashHex sourceKey
  else str "PLC_ALARM_" ++
    shortHashHex (sourceKey ++ str "|" ++ identity.eventType ++ str "|" ++ identity.message)

def AlarmIdentity.matchesAny (identity : AlarmIdentity) (patterns : List Str) : Bool :=
  patterns.any fun pattern =>
    pattern ≠ [] && [identity.conditionName, identity.sourceName, identity.message].any fun text =>
      text ≠ [] && contains text pattern

def autoAlarmPassesFilters (identity : AlarmIdentity) (auto : AutoAlarmsConfig) : Bool :=
  if auto.excludePatterns ≠ [] ∧ identity.matchesAny auto.excludePatterns then false
  else if auto.includePatterns ≠ [] ∧ !identity.matchesAny auto.includePatterns then false
  else true

def mapAutoSeverity (severity : Nat) (bands : AutoAlarmsSeverityBands) : Str :=
  if bands.criticalMin ≤ severity then str "CRITICAL"
  else if bands.errorMin ≤ severity then str "ERROR"
  else if bands.warningMin ≤ severity then str "WARNING"
  else str "INFO"

structure Effective where
  cfg : AlarmEventConfig
  input : AlarmEventInput
  requireConfirm : Bool

/-- The configuration `auto_alarms` derives where no mapping matched. -/
def autoDerived (settings : Settings) (cfg : AlarmEventConfig) (identity : AlarmIdentity)
    (input : AlarmEventInput) : Effective :=
  let auto := settings.autoAlarms
  { cfg :=
      { cfg with
        faultCode := deriveAutoFaultCode settings identity
        entityId := ((settings.nodeMap.findByNodeId identity.sourceNode).map (·.fields.entityId)).getD
          auto.entityId
        severityOverride := mapAutoSeverity identity.severity auto.severityBands
        messageOverride := [] }
    input := if auto.autoClear then { input with ackedState := true } else input
    requireConfirm := if auto.autoClear then false else settings.requireConfirmForClear }

/-- An explicit source other than the event's own monitored item has delivered it already. -/
def deliveredElsewhere (settings : Settings) (cfg : AlarmEventConfig) (sourceNode : Str) : Bool :=
  settings.eventAlarms.any fun explicit =>
    !nodeIdsEquivalent settings explicit.sourceNodeIdStr cfg.sourceNodeIdStr &&
      nodeIdsEquivalent settings explicit.sourceNodeIdStr sourceNode

/-- The part `on_event` and `read_fallback_replay` have in common; `dropped` is the test that
only the event path makes. -/
def effective (settings : Settings) (cfg : AlarmEventConfig) (identity : AlarmIdentity)
    (input : AlarmEventInput) (dropped : Bool) : Option Effective :=
  match resolveAlarm cfg identity with
  | some resolved => some
      { cfg :=
          { cfg with
            faultCode := resolved.faultCode
            severityOverride := resolved.severityOverride
            messageOverride := resolved.messageOverride }
        input := input
        requireConfirm := settings.requireConfirmForClear }
  | none =>
      if !settings.autoAlarms.enabled ||
          !nodeIdsEquivalent settings cfg.sourceNodeIdStr settings.autoAlarms.sourceNodeIdStr then
        none
      else if dropped then none
      else if !autoAlarmPassesFilters identity settings.autoAlarms then none
      else some (autoDerived settings cfg identity input)

/-- Resolution changes neither the source of an alarm nor what was observed of it, the
acknowledgement apart. -/
structure Effective.Keeps (eff : Effective) (cfg : AlarmEventConfig) (input : AlarmEventInput) :
    Prop where
  source : eff.cfg.sourceNodeIdStr = cfg.sourceNodeIdStr
  enabled : eff.input.enabledState = input.enabledState
  active : eff.input.activeState = input.activeState
  present : eff.input.activeStatePresent = input.activeStatePresent
  shelved : eff.input.shelved = input.shelved
  branch : eff.input.branchIdPresent = input.branchIdPresent

theorem keeps_effective {settings : Settings} {cfg : AlarmEventConfig} {identity : AlarmIdentity}
    {input : AlarmEventInput} {dropped : Bool} {eff : Effective}
    (h : effective settings cfg identity input dropped = some eff) : eff.Keeps cfg input := by
  unfold effective at h
  split at h
  · cases h
    constructor <;> rfl
  · split_ifs at h
    cases h
    constructor
    · rfl
    all_goals
      simp only [autoDerived]
      split <;> rfl

/-! ## Events -/

structure EventFields where
  eventId : Option Str := none
  severity : Option Nat := none
  message : Str := []
  enabledState : Option Bool := none
  activeState : Option Bool := none
  ackedState : Option Bool := none
  confirmedState : Option Bool := none
  shelvingState : Option NodeId := none
  branchId : Option NodeId := none
  conditionName : Str := []
  sourceName : Str := []
  /-- As displayed, from `kFirstAssociatedValueField` on. -/
  associatedValues : List Str := []

structure Notification where
  cfg : AlarmEventConfig
  /-- `none`: fewer than `kAlarmFieldCount` values. -/
  fields : Option EventFields := none
  sourceNode : NodeId := .numeric 0 0
  eventType : NodeId
  conditionId : NodeId := .numeric 0 0

def refreshStartEventType : NodeId := .numeric 0 2787

def refreshEndEventType : NodeId := .numeric 0 2788

def EventFields.input (fields : EventFields) : AlarmEventInput where
  enabledState := fields.enabledState.getD true
  activeState := fields.activeState.getD false
  activeStatePresent := fields.activeState.isSome
  ackedState := fields.ackedState.getD false
  confirmedState := fields.confirmedState.getD false
  -- only the two known shelved states count, an unknown id does not
  shelved := fields.shelvingState = some (.numeric 0 2930) ∨
    fields.shelvingState = some (.numeric 0 2932)
  branchIdPresent := fields.branchId.any (· ≠ .numeric 0 0)

def describe (message : Str) (labels values : List Str) : Str :=
  let append (message : Str) (entry : Str × Str) : Str :=
    if entry.2 = [] then message
    else (if message = [] then [] else message ++ str "; ") ++ entry.1 ++ str "=" ++ entry.2
  (labels.zip values).foldl append message

namespace Notification

def identity (event : Notification) (fields : EventFields) : AlarmIdentity where
  conditionName := fields.conditionName
  sourceName := fields.sourceName
  sourceNode := event.sourceNode.toString
  eventType := event.eventType.toString
  message := fields.message
  severity := fields.severity.getD 0

def observation (settings : Settings) (event : Notification) : Option Observation :=
  event.fields.bind fun fields =>
    (effective settings event.cfg (event.identity fields) fields.input
      (deliveredElsewhere settings event.cfg event.sourceNode.toString)).map fun eff =>
        { cfg := eff.cfg
          conditionId := event.conditionId.toString
          input := eff.input
          severity := fields.severity.getD 0
          message := describe fields.message event.cfg.associatedValues fields.associatedValues
          eventId := fields.eventId
          requireConfirmForClear := eff.requireConfirm }

end Notification

structure Poller where
  conditions : Conditions := ∅
  refreshSeen : OSet Str := ∅
  conditionRefreshInProgress : Bool := false

/-- A condition that is reported inside a burst is still there. -/
def Poller.note (poller : Poller) (conditionId : Str) : Poller :=
  if poller.conditionRefreshInProgress then
    { poller with refreshSeen := poller.refreshSeen.insert conditionId }
  else poller

/-- `on_event`, with the order in which a reconcile meets the condition map. -/
def onEvent (settings : Settings) (poller : Poller) (event : Notification) (order : List Str) :
    Poller × List AlarmEventDelivery :=
  if event.eventType = refreshStartEventType then
    ({ poller with refreshSeen := ∅, conditionRefreshInProgress := true }, [])
  else if event.eventType = refreshEndEventType then
    let (conditions, clears) :=
      reconcileAfterRefresh poller.refreshSeen order poller.conditions
    ({ conditions := conditions, refreshSeen := ∅, conditionRefreshInProgress := false }, clears)
  else if event.conditionId.isNull then (poller, [])
  else
    let poller := poller.note event.conditionId.toString
    match event.observation settings with
    | none => (poller, [])
    | some call =>
        let (conditions, delivery) := applyConditionState poller.conditions call
        ({ poller with conditions := conditions }, delivery.toList)

def eventMachine (settings : Settings) (init : Poller) :
    Machine Poller (Notification × List Str) (List AlarmEventDelivery) where
  init := init
  step poller event := onEvent settings poller event.1 event.2

/-! ## The burst of a refresh -/

structure Notification.ReportsActive (event : Notification) (fields : EventFields) : Prop where
  fields_eq : event.fields = some fields
  isCondition : event.conditionId.isNull = false
  notStart : event.eventType ≠ refreshStartEventType
  notEnd : event.eventType ≠ refreshEndEventType
  enabled : fields.input.enabledState = true
  active : fields.activeState = some true
  shelved : fields.input.shelved = false
  branch : fields.input.branchIdPresent = false

structure Burst where
  cfg : AlarmEventConfig
  replayed : List Notification
  active : ∀ event ∈ replayed, ∃ fields, event.ReportsActive fields

namespace Burst

def start (burst : Burst) : Notification :=
  { cfg := burst.cfg, eventType := refreshStartEventType }

def finish (burst : Burst) : Notification :=
  { cfg := burst.cfg, eventType := refreshEndEventType }

def events (burst : Burst) : List Notification :=
  burst.start :: burst.replayed ++ [burst.finish]

end Burst

/-- A list of events is put together from the bursts, each in its own order. -/
inductive Interleaves {α : Type} : List (List α) → List α → Prop
  | done {queues : List (List α)} : (∀ queue ∈ queues, queue = []) → Interleaves queues []
  | take (before after : List (List α)) {event : α} {queue trace : List α} :
      Interleaves (before ++ queue :: after) trace →
      Interleaves (before ++ (event :: queue) :: after) (event :: trace)

variable {settings : Settings} {poller : Poller} {event : Notification} {cid : Str}

variable {fields : EventFields} {call : Observation}

theorem observation_of_reportsActive (hactive : event.ReportsActive fields)
    (hcall : event.observation settings = some call) :
    call.conditionId = event.conditionId.toString ∧ call.input.branchIdPresent = false ∧
      call.input.enabledState = true ∧ call.input.shelved = false ∧
      call.input.activeStatePresent = true ∧ call.input.activeState = true := by
  unfold Notification.observation at hcall
  rw [hactive.fields_eq, Option.bind_some, Option.map_eq_some_iff] at hcall
  obtain ⟨eff, heff, rfl⟩ := hcall
  have hkeeps := keeps_effective heff
  refine ⟨rfl, hkeeps.branch.trans hactive.branch, hkeeps.enabled.trans hactive.enabled,
    hkeeps.shelved.trans hactive.shelved, hkeeps.present.trans ?_, hkeeps.active.trans ?_⟩
  · simp [EventFields.input, hactive.active]
  · simp [EventFields.input, hactive.active]

def Conditions.status (conditions : Conditions) (cid : Str) : Option SovdAlarmStatus :=
  conditions[cid]?.map (·.lastStatus)

theorem status_applyConditionState_of_ne {conditions : Conditions} (hne : call.conditionId ≠ cid) :
    (applyConditionState conditions call).1.status cid = conditions.status cid := by
  rw [Conditions.status, applyConditionState, OMap.getElem?_insert_of_ne hne, Conditions.status]

theorem applyConditionState_of_raised (conditions : Conditions)
    (hbranch : call.input.branchIdPresent = false) (henabled : call.input.enabledState = true)
    (hshelved : call.input.shelved = false) (hpresent : call.input.activeStatePresent = true)
    (hactive : call.input.activeState = true) :
    (applyConditionState conditions call).1.status call.conditionId = some .confirmed ∧
      ∀ d ∈ (applyConditionState conditions call).2, d.action = .reportConfirmed := by
  have hnext : (outcome conditions call).nextStatus = .confirmed := by
    simp only [outcome, effectiveInput, hpresent, if_true]
    exact AlarmStateMachine.compute_of_raised hbranch henabled hshelved hactive _ _
  constructor
  · simp [Conditions.status, applyConditionState, advanced, hnext]
  · intro d hd
    have hmoves : AlarmStateMachine.Moves (observed conditions call).lastStatus
      (outcome conditions call) := AlarmStateMachine.moves_compute ..
    simp only [applyConditionState, Option.mem_def] at hd
    split_ifs at hd with hnoop
    cases hd
    show (outcome conditions call).action = _
    generalize outcome conditions call = out at hnext hnoop hmoves
    cases hmoves with
    | confirms => rfl
    | stays | idles => exact absurd rfl hnoop
    | heals | clears => cases hnext

theorem reconcile_of_kept {shouldClear : Str → ConditionRuntime → Bool} (order : List Str)
    {conditions : Conditions}
    (hkeep : ∀ runtime, conditions[cid]? = some runtime → shouldClear cid runtime = false) :
    (reconcile shouldClear order conditions).1[cid]? = conditions[cid]? ∧
      ∀ d ∈ (reconcile shouldClear order conditions).2, d.conditionId ≠ cid := by
  unfold reconcile
  apply List.foldlRecOn order (reconcileOne shouldClear)
    (motive := fun acc : Conditions × List AlarmEventDelivery =>
      acc.1[cid]? = conditions[cid]? ∧ ∀ d ∈ acc.2, d.conditionId ≠ cid)
  · exact ⟨rfl, nofun⟩
  · rintro acc ⟨hsame, hclears⟩ other _
    unfold reconcileOne
    cases hruntime : acc.1[other]? with
    | none => exact ⟨hsame, hclears⟩
    | some runtime =>
      dsimp only
      split
      · rename_i hclear
        have hother : other ≠ cid := by
          rintro rfl
          rw [hkeep runtime (hsame ▸ hruntime)] at hclear
          cases hclear
        refine ⟨(OMap.getElem?_insert_of_ne hother _).trans hsame, ?_⟩
        intro d hd
        split at hd
        · exact hclears d hd
        · rcases List.mem_append.mp hd with hd | hd
          · exact hclears d hd
          · rw [List.mem_singleton.mp hd]
            exact hother
      · exact ⟨hsame, hclears⟩

structure Replayed (cid : Str) (poller : Poller) : Prop where
  inProgress : poller.conditionRefreshInProgress = true
  seen : cid ∈ poller.refreshSeen
  confirmed : poller.conditions.status cid = some .confirmed

theorem onEvent_of_reportsActive (settings : Settings) (poller : Poller)
    (hactive : event.ReportsActive fields) (order : List Str) :
    onEvent settings poller event order =
      match event.observation settings with
      | none => (poller.note event.conditionId.toString, [])
      | some call =>
        ({ poller.note event.conditionId.toString with
            conditions := (applyConditionState
              (poller.note event.conditionId.toString).conditions call).1 },
          (applyConditionState
            (poller.note event.conditionId.toString).conditions call).2.toList) := by
  rw [onEvent, if_neg hactive.notStart, if_neg hactive.notEnd, if_neg (by simp [hactive.isCondition])]

theorem note_conditions (poller : Poller) (cid : Str) :
    (poller.note cid).conditions = poller.conditions := by
  unfold Poller.note
  split <;> rfl

theorem note_inProgress (poller : Poller) (cid : Str) :
    (poller.note cid).conditionRefreshInProgress = poller.conditionRefreshInProgress := by
  unfold Poller.note
  split <;> rfl

theorem mem_seen_note {other : Str} (hprogress : poller.conditionRefreshInProgress = true) :
    other ∈ (poller.note cid).refreshSeen ↔ other = cid ∨ other ∈ poller.refreshSeen := by
  rw [Poller.note, if_pos hprogress, OSet.mem_insert_iff]

theorem onEvent_bracket (settings : Settings) (hactive : event.ReportsActive fields)
    (hprogress : poller.conditionRefreshInProgress = true) (order : List Str) :
    (onEvent settings poller event order).1.conditionRefreshInProgress = true ∧
      ∀ other, other ∈ (onEvent settings poller event order).1.refreshSeen ↔
        other = event.conditionId.toString ∨ other ∈ poller.refreshSeen := by
  rw [onEvent_of_reportsActive settings poller hactive]
  split <;>
    exact ⟨(note_inProgress _ _).trans hprogress, fun other => mem_seen_note hprogress⟩

/-- What an event delivers about a condition only raises it. -/
def OnlyRaises (cid : Str) (deliveries : List AlarmEventDelivery) : Prop :=
  ∀ d ∈ deliveries, d.conditionId = cid → d.action = .reportConfirmed

theorem onEvent_onlyRaises (hactive : event.ReportsActive fields) (order : List Str) :
    OnlyRaises cid (onEvent settings poller event order).2 := by
  rw [onEvent_of_reportsActive settings poller hactive]
  cases hcall : event.observation settings with
  | none => nofun
  | some call =>
    obtain ⟨-, hbranch, henabled, hshelved, hpresent, hraised⟩ :=
      observation_of_reportsActive hactive hcall
    intro d hd _
    exact (applyConditionState_of_raised _ hbranch henabled hshelved hpresent hraised).2 d
      (Option.mem_toList.mp hd)

theorem onEvent_replays (hactive : event.ReportsActive fields)
    (hprogress : poller.conditionRefreshInProgress = true)
    (hresolved : (event.observation settings).isSome) (order : List Str) :
    Replayed event.conditionId.toString (onEvent settings poller event order).1 := by
  obtain ⟨hprogress', hseen⟩ := onEvent_bracket settings hactive hprogress order
  obtain ⟨call, hcall⟩ := Option.isSome_iff_exists.mp hresolved
  obtain ⟨hid, hbranch, henabled, hshelved, hpresent, hraised⟩ :=
    observation_of_reportsActive hactive hcall
  refine ⟨hprogress', (hseen _).mpr (Or.inl rfl), ?_⟩
  rw [onEvent_of_reportsActive settings poller hactive, hcall, ← hid]
  exact (applyConditionState_of_raised _ hbranch henabled hshelved hpresent hraised).1

theorem onEvent_keeps_replayed (hactive : event.ReportsActive fields) (h : Replayed cid poller)
    (order : List Str) : Replayed cid (onEvent settings poller event order).1 := by
  obtain ⟨hprogress, hseen⟩ := onEvent_bracket settings hactive h.inProgress order
  have hother : event.conditionId.toString ≠ cid ∨ event.observation settings = none →
      Replayed cid (onEvent settings poller event order).1 := by
    intro hcase
    refine ⟨hprogress, (hseen cid).mpr (Or.inr h.seen), ?_⟩
    rw [onEvent_of_reportsActive settings poller hactive]
    cases hcall : event.observation settings with
    | none =>
      dsimp only
      rw [note_conditions]
      exact h.confirmed
    | some call =>
      have hid := (observation_of_reportsActive hactive hcall).1
      have hne : call.conditionId ≠ cid := by
        rw [hid]
        exact hcase.resolve_right (by simp [hcall])
      dsimp only
      rw [status_applyConditionState_of_ne hne, note_conditions]
      exact h.confirmed
  by_cases hcid : event.conditionId.toString = cid
  · cases hcall : event.observation settings with
    | none => exact hother (Or.inr hcall)
    | some call => exact hcid ▸ onEvent_replays hactive h.inProgress (by simp [hcall]) order
  · exact hother (Or.inl hcid)

theorem onEvent_finish (settings : Settings) (h : Replayed cid poller)
    (hend : event.eventType = refreshEndEventType) (order : List Str) :
    (onEvent settings poller event order).1.conditions.status cid = some .confirmed ∧
      OnlyRaises cid (onEvent settings poller event order).2 := by
  have hseen : ∀ runtime, poller.conditions[cid]? = some runtime →
      shouldClearAfterRefresh poller.refreshSeen cid runtime = false := by
    simp [shouldClearAfterRefresh, h.seen]
  have hkept := reconcile_of_kept order hseen
  have hstart : event.eventType ≠ refreshStartEventType := by
    rw [hend]
    decide
  rw [onEvent, if_neg hstart, if_pos hend]
  constructor
  · rw [← h.confirmed]
    exact congrArg (Option.map (·.lastStatus)) hkept.1
  · intro d hd hid
    exact absurd hid (hkept.2 d hd)

/-! ## Whole bursts -/

section Runs

variable {init : Poller} {trace : List (Notification × List Str)}

section

variable (hactive : ∀ event ∈ trace, ∃ fields, event.1.ReportsActive fields)

include hactive

theorem outputs_onlyRaises :
    ∀ deliveries ∈ (eventMachine settings init).outputs poller trace, OnlyRaises cid deliveries := by
  induction trace generalizing poller with
  | nil => nofun
  | cons event trace ih =>
    obtain ⟨fields, hfields⟩ := hactive event List.mem_cons_self
    intro deliveries hmem
    rcases List.mem_cons.mp hmem with rfl | hmem
    · exact onEvent_onlyRaises hfields event.2
    · exact ih (fun e he => hactive e (List.mem_cons_of_mem _ he)) deliveries hmem

theorem exec_inProgress (hprogress : poller.conditionRefreshInProgress = true) :
    ((eventMachine settings init).exec poller trace).conditionRefreshInProgress = true := by
  refine Machine.exec_invariant _ (fun poller : Poller => poller.conditionRefreshInProgress = true)
    ?_ hprogress
  intro event hevent poller hprogress
  obtain ⟨fields, hfields⟩ := hactive event hevent
  exact (onEvent_bracket settings hfields hprogress event.2).1

theorem exec_keeps_replayed (h : Replayed cid poller) :
    Replayed cid ((eventMachine settings init).exec poller trace) := by
  apply Machine.exec_invariant _ (Replayed cid) _ h
  intro event hevent poller h
  obtain ⟨fields, hfields⟩ := hactive event hevent
  exact onEvent_keeps_replayed hfields h event.2

theorem exec_replays (hprogress : poller.conditionRefreshInProgress = true)
    {event : Notification × List Str} (hmem : event ∈ trace)
    (hresolved : (event.1.observation settings).isSome) :
    Replayed event.1.conditionId.toString ((eventMachine settings init).exec poller trace) := by
  obtain ⟨front, back, rfl⟩ := List.append_of_mem hmem
  obtain ⟨fields, hfields⟩ := hactive event hmem
  rw [Machine.exec_append, Machine.exec]
  apply exec_keeps_replayed
  · intro e he
    exact hactive e (List.mem_append_right _ (List.mem_cons_of_mem _ he))
  · apply onEvent_replays hfields _ hresolved
    apply exec_inProgress _ hprogress
    intro e he
    exact hactive e (List.mem_append_left _ he)

end

end Runs

/-- A burst that comes last and that no other burst interrupts: whatever was handled before,
every condition it replays is confirmed after its `RefreshEnd`, and from its `RefreshStart` on
the sink is told nothing about it but that. -/
theorem last_burst_confirmed (settings : Settings) (init : Poller)
    (before trace : List (Notification × List Str)) (burst : Burst)
    (htrace : trace.map Prod.fst = burst.events) (event : Notification)
    (hevent : event ∈ burst.replayed) (hresolved : (event.observation settings).isSome) :
    let machine := eventMachine settings init
    let begun := machine.exec init before
    (machine.exec init (before ++ trace)).conditions.status event.conditionId.toString =
        some .confirmed ∧
      ∀ deliveries ∈ machine.outputs begun trace, ∀ d ∈ deliveries,
        d.conditionId = event.conditionId.toString → d.action = .reportConfirmed := by
  intro machine begun
  obtain ⟨first, rest, rfl, hfirst, hrest⟩ := List.map_eq_cons_iff.mp htrace
  obtain ⟨mid, last, rfl, hmid, hlast⟩ := List.map_eq_append_iff.mp hrest
  obtain ⟨final, empty, rfl, hfinal, hnil⟩ := List.map_eq_cons_iff.mp hlast
  obtain rfl := List.map_eq_nil_iff.mp hnil
  have hactive : ∀ e ∈ mid, ∃ fields, e.1.ReportsActive fields := by
    intro e he
    exact burst.active e.1 (hmid ▸ List.mem_map_of_mem he)
  have hopened : machine.step begun first =
      ({ begun with refreshSeen := ∅, conditionRefreshInProgress := true }, []) := by
    show onEvent settings begun first.1 first.2 = _
    rw [hfirst]
    rfl
  rw [← hmid] at hevent
  obtain ⟨replay, hreplay, rfl⟩ := List.mem_map.mp hevent
  have hreplayed : Replayed replay.1.conditionId.toString
      (machine.exec (machine.step begun first).1 mid) :=
    exec_replays hactive (by rw [hopened]) hreplay hresolved
  have hend : final.1.eventType = refreshEndEventType := by
    rw [hfinal]
    rfl
  have hfinish := onEvent_finish settings hreplayed hend final.2
  constructor
  · rw [Machine.exec_append, Machine.exec, Machine.exec_append]
    exact hfinish.1
  · intro deliveries hmem
    rw [Machine.outputs, Machine.outputs_append, List.mem_cons, List.mem_append] at hmem
    rcases hmem with rfl | hmem | hmem
    · rw [hopened]
      nofun
    · exact outputs_onlyRaises hactive deliveries hmem
    · rw [List.mem_singleton.mp hmem]
      exact hfinish.2

/-! ## Two sources -/

def replaying (source code condition : String) : Notification where
  cfg := { sourceNodeIdStr := str source, faultCode := str code }
  fields := some { activeState := some true }
  eventType := .numeric 0 2915
  conditionId := .string 1 (str condition)

theorem reportsActive_replaying (source code condition : String) :
    (replaying source code condition).ReportsActive { activeState := some true } := by
  constructor <;> simp [replaying, NodeId.isNull, refreshStartEventType, refreshEndEventType,
    EventFields.input]

def burstOf (source code condition : String) : Burst where
  cfg := { sourceNodeIdStr := str source, faultCode := str code }
  replayed := [replaying source code condition]
  active := by
    intro event hevent
    rw [List.mem_singleton.mp hevent]
    exact ⟨_, reportsActive_replaying source code condition⟩

def tankBurst : Burst := burstOf "tank" "OVERPRESSURE" "tank.high"

def pumpBurst : Burst := burstOf "pump" "OVERHEAT" "pump.hot"

def plant : Settings := { eventAlarms := [tankBurst.cfg, pumpBurst.cfg] }

def plantOrder : List Str := [str "ns=1;s=tank.high", str "ns=1;s=pump.hot"]

def statusAfter (trace : List Notification) (condition : String) : Option SovdAlarmStatus :=
  ((eventMachine plant {}).exec {} (trace.map (·, plantOrder))).conditions.status
    (NodeId.string 1 (str condition)).toString

theorem last_burst_confirmed_of_pump :
    statusAfter (tankBurst.events ++ pumpBurst.events) "pump.hot" = some .confirmed := by
  have h := (last_burst_confirmed plant {} (tankBurst.events.map (·, plantOrder))
    (pumpBurst.events.map (·, plantOrder)) pumpBurst (by rw [List.map_map]; exact List.map_id _)
    (replaying "pump" "OVERHEAT" "pump.hot") (List.mem_singleton.mpr rfl) (by decide)).1
  rw [← List.map_append] at h
  exact h

/-- One burst after the other: the second one's end retires what the first one replayed. And
with both bursts open, the first end empties the set, so that the second retires everything. -/
theorem bursts_clear_each_other :
    (Interleaves [tankBurst.events, pumpBurst.events] (tankBurst.events ++ pumpBurst.events) ∧
      statusAfter (tankBurst.events ++ pumpBurst.events) "tank.high" = some .cleared) ∧
    ∃ trace, Interleaves [tankBurst.events, pumpBurst.events] trace ∧
      statusAfter trace "tank.high" = some .cleared ∧
      statusAfter trace "pump.hot" = some .cleared := by
  refine ⟨⟨?_, by decide⟩, ?_⟩
  · exact .take [] _ <| .take [] _ <| .take [] _ <| .take [[]] [] <| .take [[]] [] <|
      .take [[]] [] <| .done (by simp)
  · refine ⟨[tankBurst.start, pumpBurst.start, replaying "tank" "OVERPRESSURE" "tank.high",
      replaying "pump" "OVERHEAT" "pump.hot", tankBurst.finish, pumpBurst.finish], ?_,
      by decide, by decide⟩
    exact .take [] _ <| .take [_] [] <| .take [] _ <| .take [_] [] <| .take [] _ <|
      .take [[]] [] <| .done (by simp)

end Medkit.Opcua
