import Medkit.Lib.Bytes
import Medkit.Lib.Machine
import Medkit.Lib.OrderedMap

/-! The OPC UA bridge's table of alarm conditions. `AlarmStateMachine::compute` maps one
notification of a condition to its next status and to what the fault sink is told;
`apply_condition_state` runs it on the tracked instance, and the two reconcile passes retire
the instances that a scan or a refresh no longer lists. Several instances may carry one
fault code, and the sink knows only codes. -/
namespace Medkit.Opcua

open Lib Std

inductive SovdAlarmStatus
  | suppressed
  | confirmed
  | healed
  | cleared
  deriving DecidableEq, Repr

inductive AlarmAction
  | noOp
  | reportConfirmed
  | reportHealed
  | clearFault
  deriving DecidableEq, Repr

structure AlarmEventInput where
  enabledState : Bool := true
  activeState : Bool := false
  /-- False when the notification carried no readable `ActiveState`. -/
  activeStatePresent : Bool := true
  ackedState : Bool := false
  confirmedState : Bool := false
  shelved : Bool := false
  branchIdPresent : Bool := false
  deriving DecidableEq

namespace SovdAlarmStatus

def wasActive (status : SovdAlarmStatus) : Bool :=
  status == .confirmed || status == .healed

theorem wasActive_iff {status : SovdAlarmStatus} :
    status.wasActive = true ↔ status = .confirmed ∨ status = .healed := by
  simp [wasActive]

end SovdAlarmStatus

/-! ## The state machine -/

namespace AlarmStateMachine

structure Outcome where
  nextStatus : SovdAlarmStatus
  action : AlarmAction
  deriving DecidableEq

/-- Rules 2 and 3: an alarm switched off in the controller or shelved by the operator. -/
def suppress (prevStatus : SovdAlarmStatus) : Outcome :=
  if prevStatus.wasActive then ⟨.cleared, .clearFault⟩ else ⟨.suppressed, .noOp⟩

def compute (prevStatus : SovdAlarmStatus) (input : AlarmEventInput)
    (requireConfirmForClear : Bool) : Outcome :=
  if input.branchIdPresent then ⟨prevStatus, .noOp⟩
  else if !input.enabledState then suppress prevStatus
  else if input.shelved then suppress prevStatus
  else if input.activeState then
    if prevStatus = .confirmed then ⟨.confirmed, .noOp⟩ else ⟨.confirmed, .reportConfirmed⟩
  else if input.ackedState && (input.confirmedState || !requireConfirmForClear) then
    if prevStatus = .cleared ∨ prevStatus = .suppressed then ⟨.cleared, .noOp⟩
    else ⟨.cleared, .clearFault⟩
  else if prevStatus = .healed then ⟨.healed, .noOp⟩
  else ⟨.healed, .reportHealed⟩

/-- Every way a notification can move a condition: what the sink is told and what the
statuses before and after have to do with it. -/
inductive Moves : SovdAlarmStatus → Outcome → Prop
  | stays (prev : SovdAlarmStatus) : Moves prev ⟨prev, .noOp⟩
  | idles {prev next : SovdAlarmStatus} : prev.wasActive = false → next.wasActive = false →
      Moves prev ⟨next, .noOp⟩
  | confirms {prev : SovdAlarmStatus} : prev ≠ .confirmed → Moves prev ⟨.confirmed, .reportConfirmed⟩
  | heals {prev : SovdAlarmStatus} : prev ≠ .healed → Moves prev ⟨.healed, .reportHealed⟩
  | clears {prev : SovdAlarmStatus} : prev.wasActive = true → Moves prev ⟨.cleared, .clearFault⟩

theorem moves_suppress (prev : SovdAlarmStatus) : Moves prev (suppress prev) := by
  unfold suppress
  split
  · next hactive => exact .clears hactive
  · next hidle => exact .idles (by simpa using hidle) rfl

theorem moves_compute (prev : SovdAlarmStatus) (input : AlarmEventInput) (requireConfirm : Bool) :
    Moves prev (compute prev input requireConfirm) := by
  unfold compute
  split_ifs with hbranch henabled hshelved hactive hprev hready hprev hprev
  · exact .stays prev
  · exact moves_suppress prev
  · exact moves_suppress prev
  · subst hprev
    exact .stays .confirmed
  · exact .confirms hprev
  · apply Moves.idles
    · obtain rfl | rfl := hprev <;> rfl
    · rfl
  · apply Moves.clears
    cases prev <;> simp_all [SovdAlarmStatus.wasActive]
  · subst hprev
    exact .stays .healed
  · exact .heals hprev

theorem compute_of_raised {input : AlarmEventInput} (hbranch : input.branchIdPresent = false)
    (henabled : input.enabledState = true) (hshelved : input.shelved = false)
    (hactive : input.activeState = true) (prev : SovdAlarmStatus) (requireConfirm : Bool) :
    (compute prev input requireConfirm).nextStatus = .confirmed := by
  unfold compute
  simp only [hbranch, henabled, hshelved, hactive]
  cases prev <;> rfl

end AlarmStateMachine

/-! ## Tracked conditions -/

structure AlarmMapping where
  matchConditionName : Str := []
  matchSourceNode : Str := []
  matchEventType : Str := []
  matchMessage : Str := []
  faultCode : Str
  severityOverride : Str := []
  messageOverride : Str := []

/-- One alarm source as configured. Only the label of an associated value is kept: its
browse name and namespace select the event field before the event reaches the poller. -/
structure AlarmEventConfig where
  sourceNodeIdStr : Str
  entityId : Str := []
  faultCode : Str := []
  severityOverride : Str := []
  messageOverride : Str := []
  mappings : List AlarmMapping := []
  associatedValues : List Str := []

structure ConditionRuntime where
  latestEventId : Str := []
  entityId : Str
  faultCode : Str
  sourceId : Str
  lastStatus : SovdAlarmStatus := .suppressed

structure AlarmEventDelivery where
  faultCode : Str
  entityId : Str
  nextStatus : SovdAlarmStatus
  action : AlarmAction
  severity : Nat := 0
  severityOverride : Str := []
  message : Str := []
  conditionId : Str

/-- `conditions_`: the string form of a condition's id to its runtime. -/
abbrev Conditions := OMap Str ConditionRuntime

def sameCodeActiveElsewhere (conditions : Conditions) (faultCode conditionId : Str) : Bool :=
  conditions.toList.any fun entry =>
    entry.1 != conditionId && entry.2.faultCode == faultCode && entry.2.lastStatus == .confirmed

variable {conditions : Conditions} {statuses : SovdAlarmStatus → Prop}

theorem sameCodeActiveElsewhere_iff {faultCode conditionId : Str} :
    sameCodeActiveElsewhere conditions faultCode conditionId = true ↔
      ∃ cid runtime, conditions[cid]? = some runtime ∧ cid ≠ conditionId ∧
        runtime.faultCode = faultCode ∧ runtime.lastStatus = .confirmed := by
  simp [sameCodeActiveElsewhere, List.any_eq_true, ExtTreeMap.mem_toList_iff_getElem?_eq_some,
    and_assoc]

structure Observation where
  cfg : AlarmEventConfig
  conditionId : Str
  input : AlarmEventInput
  severity : Nat := 0
  message : Str := []
  eventId : Option Str := none
  requireConfirmForClear : Bool := true

/-- The instance a notification is applied to: the tracked one, or a fresh one that pins the
code, the entity and the source of this first observation. -/
def observed (conditions : Conditions) (call : Observation) : ConditionRuntime :=
  conditions[call.conditionId]?.getD
    { entityId := call.cfg.entityId, faultCode := call.cfg.faultCode,
      sourceId := call.cfg.sourceNodeIdStr }

/-- A notification without a readable `ActiveState` keeps the instance's activity. -/
def effectiveInput (prevStatus : SovdAlarmStatus) (input : AlarmEventInput) : AlarmEventInput :=
  if input.activeStatePresent then input else { input with activeState := prevStatus.wasActive }

def outcome (conditions : Conditions) (call : Observation) : AlarmStateMachine.Outcome :=
  let prevStatus := (observed conditions call).lastStatus
  AlarmStateMachine.compute prevStatus (effectiveInput prevStatus call.input)
    call.requireConfirmForClear

def advanced (conditions : Conditions) (call : Observation) : ConditionRuntime :=
  let runtime := observed conditions call
  { runtime with
    latestEventId := call.eventId.getD runtime.latestEventId
    lastStatus := (outcome conditions call).nextStatus }

theorem advanced_faultCode (conditions : Conditions) (call : Observation) :
    (advanced conditions call).faultCode = (observed conditions call).faultCode := rfl

/-- A heal or a clear is withheld while another instance of the code is confirmed. -/
def withheld (conditions : Conditions) (call : Observation) : Bool :=
  ((outcome conditions call).action = .reportHealed ∨
      (outcome conditions call).action = .clearFault) &&
    sameCodeActiveElsewhere conditions (observed conditions call).faultCode call.conditionId

def delivery (conditions : Conditions) (call : Observation) : AlarmEventDelivery where
  faultCode := (observed conditions call).faultCode
  entityId := (observed conditions call).entityId
  nextStatus := (outcome conditions call).nextStatus
  action := (outcome conditions call).action
  severity := call.severity
  severityOverride := call.cfg.severityOverride
  message := if call.cfg.messageOverride = [] then call.message else call.cfg.messageOverride
  conditionId := call.conditionId

/-- The critical section of `apply_condition_state`, with the delivery it leaves for the
callback. The other instances are looked up before the runtime is written back, which the
lookup does not see: it skips the condition itself. -/
def applyConditionState (conditions : Conditions) (call : Observation) :
    Conditions × Option AlarmEventDelivery :=
  (conditions.insert call.conditionId (advanced conditions call),
    if (outcome conditions call).action = .noOp then none
    else if withheld conditions call then none
    else some (delivery conditions call))

/-! ## Reconciling -/

def shouldClearCondition (seen failedSources modeledSources : OSet Str) (conditionId : Str)
    (runtime : ConditionRuntime) : Bool :=
  runtime.lastStatus.wasActive && runtime.sourceId ∉ failedSources &&
    runtime.sourceId ∈ modeledSources && conditionId ∉ seen

def shouldClearAfterRefresh (seen : OSet Str) (conditionId : Str) (runtime : ConditionRuntime) :
    Bool :=
  runtime.lastStatus.wasActive && conditionId ∉ seen

def retired (runtime : ConditionRuntime) : ConditionRuntime :=
  { runtime with lastStatus := .cleared }

def clearDelivery (conditionId : Str) (runtime : ConditionRuntime) : AlarmEventDelivery where
  faultCode := runtime.faultCode
  entityId := runtime.entityId
  nextStatus := .cleared
  action := .clearFault
  conditionId := conditionId

/-- One turn of the reconcile loop. A stale instance is retired quietly while another one of
its code is confirmed. -/
def reconcileOne (shouldClear : Str → ConditionRuntime → Bool)
    (acc : Conditions × List AlarmEventDelivery) (conditionId : Str) :
    Conditions × List AlarmEventDelivery :=
  match acc.1[conditionId]? with
  | none => acc
  | some runtime =>
      if shouldClear conditionId runtime then
        (acc.1.insert conditionId (retired runtime),
          if sameCodeActiveElsewhere acc.1 runtime.faultCode conditionId then acc.2
          else acc.2 ++ [clearDelivery conditionId runtime])
      else acc

/-- The loop under the lock. A hash map lists its keys in an order of its own, here `order`. -/
def reconcile (shouldClear : Str → ConditionRuntime → Bool) (order : List Str)
    (conditions : Conditions) : Conditions × List AlarmEventDelivery :=
  order.foldl (reconcileOne shouldClear) (conditions, [])

def reconcileAfterRead (seen failedSources modeledSources : OSet Str) :
    List Str → Conditions → Conditions × List AlarmEventDelivery :=
  reconcile (shouldClearCondition seen failedSources modeledSources)

def reconcileAfterRefresh (seen : OSet Str) :
    List Str → Conditions → Conditions × List AlarmEventDelivery :=
  reconcile (shouldClearAfterRefresh seen)

/-! ## The fault sink -/

abbrev Sink := OSet Str

/-- `on_event_alarm`: a heal is not passed on. -/
def onEventAlarm (sink : Sink) (delivery : AlarmEventDelivery) : Sink :=
  match delivery.action with
  | .reportConfirmed => sink.insert delivery.faultCode
  | .clearFault => sink.erase delivery.faultCode
  | .reportHealed | .noOp => sink

def Tracked (conditions : Conditions) (statuses : SovdAlarmStatus → Prop) (code : Str) : Prop :=
  ∃ (cid : Str) (runtime : ConditionRuntime), conditions[cid]? = some runtime ∧
    runtime.faultCode = code ∧ statuses runtime.lastStatus

/-- The sink agrees with the table: confirmed codes are raised, and a raised code is held by
an instance that is confirmed or healed. -/
structure Agrees (conditions : Conditions) (sink : Sink) : Prop where
  raised : ∀ code, Tracked conditions (· = .confirmed) code → code ∈ sink
  held : ∀ code, code ∈ sink → Tracked conditions (fun s => s = .confirmed ∨ s = .healed) code

def TrackedBeside (conditions : Conditions) (cid : Str) (statuses : SovdAlarmStatus → Prop)
    (code : Str) : Prop :=
  ∃ (other : Str) (r : ConditionRuntime), conditions[other]? = some r ∧ other ≠ cid ∧
    r.faultCode = code ∧ statuses r.lastStatus

theorem tracked_insert {cid code : Str} {runtime : ConditionRuntime} :
    Tracked (conditions.insert cid runtime) statuses code ↔
      (runtime.faultCode = code ∧ statuses runtime.lastStatus) ∨
        TrackedBeside conditions cid statuses code := by
  constructor
  · rintro ⟨other, r, hr, hcode, hstatus⟩
    by_cases hother : other = cid
    · subst hother
      rw [ExtTreeMap.getElem?_insert_self, Option.some.injEq] at hr
      subst hr
      exact Or.inl ⟨hcode, hstatus⟩
    · rw [OMap.getElem?_insert_of_ne (Ne.symm hother)] at hr
      exact Or.inr ⟨other, r, hr, hother, hcode, hstatus⟩
  · rintro (⟨hcode, hstatus⟩ | ⟨other, r, hr, hother, hcode, hstatus⟩)
    · exact ⟨cid, runtime, ExtTreeMap.getElem?_insert_self, hcode, hstatus⟩
    · refine ⟨other, r, ?_, hcode, hstatus⟩
      rwa [OMap.getElem?_insert_of_ne (Ne.symm hother)]

theorem Tracked.of_other {cid code : Str}
    (h : TrackedBeside conditions cid statuses code) : Tracked conditions statuses code := by
  obtain ⟨other, r, hr, -, hcode, hstatus⟩ := h
  exact ⟨other, r, hr, hcode, hstatus⟩

theorem Tracked.split {code : Str} (h : Tracked conditions statuses code) (cid : Str) :
    (∃ runtime, conditions[cid]? = some runtime ∧ runtime.faultCode = code ∧
      statuses runtime.lastStatus) ∨ TrackedBeside conditions cid statuses code := by
  obtain ⟨other, r, hr, hcode, hstatus⟩ := h
  by_cases hother : other = cid
  · subst hother
    exact Or.inl ⟨r, hr, hcode, hstatus⟩
  · exact Or.inr ⟨other, r, hr, hother, hcode, hstatus⟩

section Writes

variable {conditions : Conditions} {sink : Sink} {before : ConditionRuntime} (cid : Str)
  (after : ConditionRuntime)

/-- The instance keeps its code and tells the sink nothing: either its status means the same
to both halves of the agreement, or another instance of the code is confirmed. -/
theorem Agrees.quiet (h : Agrees conditions sink) (hbefore : conditions[cid]? = some before ∨
      conditions[cid]? = none ∧ before.lastStatus.wasActive = false)
    (hcode : after.faultCode = before.faultCode)
    (hraised : after.lastStatus = .confirmed → before.lastStatus = .confirmed)
    (hheld : (before.lastStatus.wasActive = true → after.lastStatus.wasActive = true) ∨
      sameCodeActiveElsewhere conditions before.faultCode cid = true) :
    Agrees (conditions.insert cid after) sink where
  raised := by
    intro code htracked
    rw [tracked_insert] at htracked
    rcases htracked with ⟨hafter, hconfirmed⟩ | hother
    · rcases hbefore with hbefore | ⟨-, hidle⟩
      · exact h.raised code ⟨cid, before, hbefore, hcode ▸ hafter, hraised hconfirmed⟩
      · rw [hraised hconfirmed] at hidle
        cases hidle
    · exact h.raised code (.of_other hother)
  held := by
    intro code hmem
    rw [tracked_insert]
    rcases (h.held code hmem).split cid with ⟨runtime, hruntime, hsame, hstatus⟩ | hother
    · rcases hbefore with hbefore | ⟨hnone, -⟩
      · obtain rfl : before = runtime := by rw [hbefore, Option.some.injEq] at hruntime; exact hruntime
        rcases hheld with hkeeps | helsewhere
        · rw [SovdAlarmStatus.wasActive_iff, SovdAlarmStatus.wasActive_iff] at hkeeps
          exact Or.inl ⟨hcode.trans hsame, hkeeps hstatus⟩
        · obtain ⟨other, r, hr, hne, hr', hconfirmed⟩ := sameCodeActiveElsewhere_iff.mp helsewhere
          exact Or.inr ⟨other, r, hr, hne, hr'.trans hsame, Or.inl hconfirmed⟩
      · rw [hnone] at hruntime
        cases hruntime
    · exact Or.inr hother

theorem Agrees.confirm (h : Agrees conditions sink) (hconfirmed : after.lastStatus = .confirmed)
    (hbefore : ∀ runtime, conditions[cid]? = some runtime → after.faultCode = runtime.faultCode) :
    Agrees (conditions.insert cid after) (sink.insert after.faultCode) where
  raised := by
    intro code htracked
    rw [tracked_insert] at htracked
    rw [OSet.mem_insert_iff]
    rcases htracked with ⟨rfl, -⟩ | hother
    · exact Or.inl rfl
    · exact Or.inr (h.raised code (.of_other hother))
  held := by
    intro code hmem
    rw [tracked_insert]
    rw [OSet.mem_insert_iff] at hmem
    rcases hmem with rfl | hmem
    · exact Or.inl ⟨rfl, Or.inl hconfirmed⟩
    · rcases (h.held code hmem).split cid with ⟨runtime, hruntime, hsame, -⟩ | hother
      · exact Or.inl ⟨(hbefore runtime hruntime).trans hsame, Or.inl hconfirmed⟩
      · exact Or.inr hother

theorem Agrees.clear (h : Agrees conditions sink) (hcleared : after.lastStatus ≠ .confirmed)
    (hbefore : ∀ runtime, conditions[cid]? = some runtime → after.faultCode = runtime.faultCode)
    (hlast : sameCodeActiveElsewhere conditions after.faultCode cid = false) :
    Agrees (conditions.insert cid after) (sink.erase after.faultCode) where
  raised := by
    intro code htracked
    rw [tracked_insert] at htracked
    rcases htracked with ⟨-, hconfirmed⟩ | hother
    · exact absurd hconfirmed hcleared
    · rw [OSet.mem_erase_iff]
      refine ⟨?_, h.raised code (.of_other hother)⟩
      rintro rfl
      rw [sameCodeActiveElsewhere_iff.mpr hother] at hlast
      cases hlast
  held := by
    intro code hmem
    rw [OSet.mem_erase_iff] at hmem
    rw [tracked_insert]
    rcases (h.held code hmem.2).split cid with ⟨runtime, hruntime, hsame, -⟩ | hother
    · exact absurd ((hbefore runtime hruntime).trans hsame).symm hmem.1
    · exact Or.inr hother

end Writes

/-! ## The operations keep the agreement -/

variable {conditions : Conditions} {sink : Sink}

theorem observed_of_some {call : Observation} {runtime : ConditionRuntime}
    (h : conditions[call.conditionId]? = some runtime) : observed conditions call = runtime := by
  simp [observed, h]

theorem observed_cases (conditions : Conditions) (call : Observation) :
    conditions[call.conditionId]? = some (observed conditions call) ∨
      conditions[call.conditionId]? = none ∧
        (observed conditions call).lastStatus.wasActive = false := by
  cases hruntime : conditions[call.conditionId]? with
  | some runtime => exact Or.inl (by rw [observed_of_some hruntime])
  | none => exact Or.inr ⟨rfl, by simp [observed, hruntime, SovdAlarmStatus.wasActive]⟩

def dispatch (sink : Sink) (deliveries : List AlarmEventDelivery) : Sink :=
  deliveries.foldl onEventAlarm sink

theorem Agrees.applyConditionState (h : Agrees conditions sink) (call : Observation) :
    Agrees (applyConditionState conditions call).1
      (dispatch sink (Opcua.applyConditionState conditions call).2.toList) := by
  have hpinned : ∀ runtime, conditions[call.conditionId]? = some runtime →
      (advanced conditions call).faultCode = runtime.faultCode := by
    intro runtime hruntime
    rw [← observed_of_some hruntime]
    rfl
  have hquiet := h.quiet call.conditionId (advanced conditions call)
    (observed_cases conditions call) rfl
  have hmoves : AlarmStateMachine.Moves (observed conditions call).lastStatus
      (outcome conditions call) := AlarmStateMachine.moves_compute ..
  have hnext : (advanced conditions call).lastStatus = (outcome conditions call).nextStatus := rfl
  rw [hnext] at hquiet
  simp only [Opcua.applyConditionState, withheld, Bool.and_eq_true, decide_eq_true_eq]
  generalize hout : outcome conditions call = out at *
  cases hmoves with
  | stays => exact hquiet id (Or.inl id)
  | idles hbefore hafter =>
    refine hquiet ?_ (Or.inl ?_)
    · rintro rfl
      cases hafter
    · intro hactive
      rw [hbefore] at hactive
      cases hactive
  | confirms hprev =>
    have hconfirm := h.confirm call.conditionId (advanced conditions call) hnext hpinned
    simpa [dispatch, onEventAlarm, delivery, hout, advanced_faultCode] using hconfirm
  | heals hprev =>
    have hheals := hquiet (nofun) (Or.inl fun _ => rfl)
    simp only [reduceCtorEq, ↓reduceIte, or_false, true_and]
    split
    · exact hheals
    · simpa [dispatch, onEventAlarm, delivery, hout] using hheals
  | clears hactive =>
    simp only [reduceCtorEq, ↓reduceIte, or_true, true_and]
    split
    · next helsewhere => exact hquiet nofun (Or.inr helsewhere)
    · rename_i hlast
      have hclear := h.clear call.conditionId (advanced conditions call)
        (by rw [hnext]; nofun) hpinned (by simpa [advanced_faultCode] using hlast)
      simpa [dispatch, onEventAlarm, delivery, hout, advanced_faultCode] using hclear

/-- The clears a reconcile collects are delivered after the loop, yet to the agreement it is
as if each had been delivered in its turn: the loop itself never reads the sink. -/
theorem Agrees.reconcileOne {acc : Conditions × List AlarmEventDelivery}
    {shouldClear : Str → ConditionRuntime → Bool} (h : Agrees acc.1 (dispatch sink acc.2))
    (cid : Str) : Agrees (reconcileOne shouldClear acc cid).1
      (dispatch sink (Opcua.reconcileOne shouldClear acc cid).2) := by
  unfold Opcua.reconcileOne
  cases hruntime : acc.1[cid]? with
  | none => exact h
  | some runtime =>
    dsimp only
    split
    · dsimp only
      split
      · next helsewhere =>
        exact h.quiet cid (retired runtime) (Or.inl hruntime) rfl nofun (Or.inr helsewhere)
      · rename_i hlast
        have hclear := h.clear cid (retired runtime) (by simp [retired])
          (by rintro r hr; rw [hruntime, Option.some.injEq] at hr; rw [← hr]; rfl)
          (by simpa [retired] using hlast)
        simpa [dispatch, List.foldl_append, onEventAlarm, clearDelivery, retired] using hclear
    · exact h

theorem Agrees.reconcile (h : Agrees conditions sink) (shouldClear : Str → ConditionRuntime → Bool)
    (order : List Str) : Agrees (reconcile shouldClear order conditions).1
      (dispatch sink (Opcua.reconcile shouldClear order conditions).2) := by
  unfold Opcua.reconcile
  apply List.foldlRecOn order (Opcua.reconcileOne shouldClear)
    (motive := fun acc : Conditions × List AlarmEventDelivery => Agrees acc.1 (dispatch sink acc.2))
  · exact h
  · intro acc hacc cid _
    exact hacc.reconcileOne cid

/-! ## Runs -/

/-- One call on the poller. The reconcile passes name the order in which the condition map is
iterated. -/
inductive ConditionOp
  | applyConditionState (call : Observation)
  | reconcileAfterRead (seen failedSources modeledSources : OSet Str) (order : List Str)
  | reconcileAfterRefresh (seen : OSet Str) (order : List Str)

/-- The critical section of a call and what it leaves for the callback. -/
def ConditionOp.locked (conditions : Conditions) :
    ConditionOp → Conditions × List AlarmEventDelivery
  | .applyConditionState call =>
      let (conditions, delivery) := Opcua.applyConditionState conditions call
      (conditions, delivery.toList)
  | .reconcileAfterRead seen failedSources modeledSources order =>
      Opcua.reconcileAfterRead seen failedSources modeledSources order conditions
  | .reconcileAfterRefresh seen order => Opcua.reconcileAfterRefresh seen order conditions

/-- Calls one after another: each delivers before the next begins. -/
def conditionMachine : Machine (Conditions × Sink) ConditionOp (List AlarmEventDelivery) where
  init := (∅, ∅)
  step state op :=
    let (conditions, deliveries) := op.locked state.1
    ((conditions, dispatch state.2 deliveries), deliveries)

theorem agrees_empty : Agrees (∅ : Conditions) (∅ : Sink) where
  raised := by
    rintro code ⟨cid, runtime, hruntime, -⟩
    simp at hruntime
  held := by
    intro code hmem
    simp at hmem

theorem Agrees.locked (h : Agrees conditions sink) (op : ConditionOp) :
    Agrees (op.locked conditions).1 (dispatch sink (op.locked conditions).2) := by
  cases op with
  | applyConditionState call => exact h.applyConditionState call
  | reconcileAfterRead seen failed modeled order => exact h.reconcile _ order
  | reconcileAfterRefresh seen order => exact h.reconcile _ order

/-- After any calls, a code with a confirmed instance is raised, and a raised code has an
instance that is confirmed or healed, in whatever order the reconcile passes met the
instances. -/
theorem sink_agrees_with_conditions (ops : List ConditionOp) :
    let state := conditionMachine.exec conditionMachine.init ops
    (∀ (cid : Str) (runtime : ConditionRuntime), state.1[cid]? = some runtime →
      runtime.lastStatus = .confirmed → runtime.faultCode ∈ state.2) ∧
    ∀ code, code ∈ state.2 → ∃ (cid : Str) (runtime : ConditionRuntime),
      state.1[cid]? = some runtime ∧ runtime.faultCode = code ∧
      (runtime.lastStatus = .confirmed ∨ runtime.lastStatus = .healed) := by
  have hagrees : Agrees (conditionMachine.exec conditionMachine.init ops).1
      (conditionMachine.exec conditionMachine.init ops).2 := by
    refine (conditionMachine.reachable_exec ops).invariant (fun s => Agrees s.1 s.2) agrees_empty ?_
    intro state op h
    exact h.locked op
  constructor
  · intro cid runtime hruntime hconfirmed
    exact hagrees.raised _ ⟨cid, runtime, hruntime, rfl, hconfirmed⟩
  · exact hagrees.held

end Medkit.Opcua
