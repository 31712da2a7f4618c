import Medkit.Gateway.UpdateManager

/-! The status of a registered package. Only a delete takes a state away, so a package
that was registered when no delete of it was in flight keeps its state until the next
delete is called. A delete that is past the backend when a package is registered again
takes the new state with the old one. -/
namespace Medkit.Gateway

open Lib UpdateManager UpdateTask

variable {m : UpdateManager} {task : UpdateTask} {id : Str} {a : UpdateAnswers}

def UpdateTask.removes : UpdateTask → Option Str
  | .deleteUpdate id | .deleteBackend id _ | .deleteErase id | .deleteRestore id _ _ => some id
  | _ => none

/-! ## The states that there are -/

namespace UpdateManager

section

variable (h : id ∈ m.states)

include h

theorem mem_addState (other : Str) (status : UpdateStatusInfo) :
    id ∈ (m.addState other status).states := Std.ExtTreeMap.mem_insert.mpr (.inr h)

theorem mem_modifyStatus (other : Str) (f : UpdateStatusInfo → UpdateStatusInfo) :
    id ∈ (m.modifyStatus other f).states :=
  Std.ExtTreeMap.mem_modify.mpr h

theorem mem_writeStatus (other : Str) (address : Nat) (f : UpdateStatusInfo → UpdateStatusInfo) :
    id ∈ (m.writeStatus other address f).states := by
  unfold writeStatus
  split
  · split
    · exact mem_modifyStatus h other f
    · exact h
  · exact h

theorem mem_erase {other : Str} (hne : other ≠ id) : id ∈ m.states.erase other := by
  apply Std.ExtTreeMap.mem_erase.mpr
  exact ⟨fun heq => hne (Std.LawfulEqCmp.eq_of_compare heq), h⟩

end

end UpdateManager

/-- Only the tasks of its own deletes can take the state of a package away, and only they leave
such tasks behind. -/
structure KeepsStates (m : UpdateManager) (task : UpdateTask) (outcome : UpdateOutcome) : Prop where
  states : ∀ id ∈ m.states, task.removes ≠ some id → id ∈ outcome.shared.states
  inherits : ∀ new ∈ outcome.next ++ outcome.later, new.removes = none ∨ new.removes = task.removes

namespace KeepsStates

section

variable {outcome : UpdateOutcome}

theorem ended (hnext : outcome.next = []) (hlater : outcome.later = [])
    (hstates : ∀ id ∈ m.states, task.removes ≠ some id → id ∈ outcome.shared.states) :
    KeepsStates m task outcome := by
  refine ⟨hstates, ?_⟩
  rw [hnext, hlater]
  exact fun _ hnew => absurd hnew List.not_mem_nil

theorem continued (new : UpdateTask) (hnew : new.removes = none ∨ new.removes = task.removes)
    (hnext : outcome.next = [new]) (hlater : outcome.later = [])
    (hstates : ∀ id ∈ m.states, task.removes ≠ some id → id ∈ outcome.shared.states) :
    KeepsStates m task outcome := by
  refine ⟨hstates, ?_⟩
  rw [hnext, hlater]
  exact List.forall_mem_singleton.mpr hnew

end

theorem startNew {next : Nat → UpdateTask} (hnext : ∀ future, (next future).removes = none)
    (other : Str) : KeepsStates m task (m.startNew other next) := by
  have hadded : ∀ id ∈ m.states, task.removes ≠ some id →
      id ∈ (if other ∈ m.states then m else m.addState other {}).states := by
    intro id h _
    split
    · exact h
    · exact mem_addState h other {}
  fun_cases UpdateManager.startNew m other next with
  | case1 => exact .ended rfl rfl fun _ h _ => h
  | case2 => exact .ended rfl rfl hadded
  | case3 =>
    exact .continued _ (.inl (hnext _)) rfl rfl fun id h hne =>
      Std.ExtTreeMap.mem_modify.mpr (hadded id h hne)

theorem enter {call : Nat → UpdateTask} (hcall : ∀ address, (call address).removes = none)
    (other : Str) : KeepsStates m task (m.enter other call) := by
  unfold UpdateManager.enter
  split
  · exact .ended rfl rfl fun _ h _ => h
  · exact .continued _ (.inl (hcall _)) rfl rfl fun _ h _ => mem_modifyStatus h other _

theorem backendCall {call : UpdateTask} (hcall : call.removes = none)
    {returned : BackendResult → UpdateTask} (hreturned : ∀ result, (returned result).removes = none)
    (other : Str) (address : Nat) :
    KeepsStates m task (m.backendCall a call other address returned) := by
  unfold UpdateManager.backendCall
  split
  · exact .continued call (.inl hcall) rfl rfl fun _ h _ => mem_writeStatus h other address _
  · exact .continued _ (.inl (hreturned _)) rfl rfl fun _ h _ => h

end KeepsStates

theorem keepsStates_runTask : KeepsStates m task (m.runTask task a) := by
  have hsame : ∀ id ∈ m.states, task.removes ≠ some id → id ∈ m.states := fun _ h _ => h
  cases task with
  | registerUpdate other =>
    simp only [runTask]
    fun_cases UpdateManager.registerUpdate m a other with
    | case2 => exact .continued (.registerSeed other) (.inl rfl) rfl rfl hsame
    | _ => exact .ended rfl rfl hsame
  | registerSeed other =>
    refine .ended rfl rfl fun id h _ => ?_
    simp only [runTask, UpdateManager.registerSeed]
    split
    · exact h
    · exact mem_addState h other {}
  | deleteUpdate other =>
    simp only [runTask]
    fun_cases UpdateManager.deleteUpdate m other with
    | case1 | case2 => exact .ended rfl rfl hsame
    | case3 =>
      exact .continued (.deleteBackend other true) (.inr rfl) rfl rfl fun _ h _ =>
        mem_modifyStatus h other _
    | case4 =>
      exact .continued (.deleteBackend other false) (.inr rfl) rfl rfl fun _ h _ =>
        mem_addState h other _
  | deleteBackend other hadState =>
    simp only [runTask]
    fun_cases UpdateManager.deleteBackend m a other hadState with
    | case1 => exact .continued (.deleteErase other) (.inr rfl) rfl rfl hsame
    | case2 error => exact .continued (.deleteRestore other hadState error) (.inr rfl) rfl rfl hsame
    | case3 => exact .ended rfl rfl hsame
  | deleteErase other =>
    exact .ended rfl rfl fun _ h hremoves => mem_erase h fun heq => hremoves (congrArg some heq)
  | deleteRestore other hadState error =>
    have hrestored (id : Str) (h : id ∈ m.states)
        (hremoves : (deleteRestore other hadState error).removes ≠ some id) :
        id ∈ (if hadState then m.modifyStatus other (setFailed error.message)
          else { m with states := m.states.erase other }).states := by
      split
      · exact mem_modifyStatus h other _
      · exact mem_erase h fun heq => hremoves (congrArg some heq)
    simp only [runTask, UpdateManager.deleteRestore]
    cases error.code <;> exact .ended rfl rfl hrestored
  | startPrepare other =>
    simp only [runTask]
    fun_cases UpdateManager.startPrepare m a other with
    | case5 => exact .startNew (fun _ => rfl) other
    | _ => exact .ended rfl rfl hsame
  | startExecute other =>
    simp only [runTask]
    fun_cases UpdateManager.startExecute m a other with
    | case7 =>
      exact .continued _ (.inl rfl) rfl rfl fun _ h _ => Std.ExtTreeMap.mem_modify.mpr h
    | _ => exact .ended rfl rfl hsame
  | startAutomated other =>
    simp only [runTask]
    fun_cases UpdateManager.startAutomated m a other with
    | case6 => exact .startNew (fun _ => rfl) other
    | _ => exact .ended rfl rfl hsame
  | runPrepare other future | runExecute other future | runAutomated other future =>
    simp only [runTask, UpdateManager.runPrepare, UpdateManager.runExecute,
      UpdateManager.runAutomated]
    exact .enter (fun _ => rfl) other
  | backendPrepare automated other address future =>
    simp only [runTask, UpdateManager.backendPrepare]
    refine .backendCall rfl (fun result => ?_) other address
    (repeat' split) <;> rfl
  | backendExecute automated other address future =>
    simp only [runTask, UpdateManager.backendExecute]
    exact .backendCall rfl (fun _ => rfl) other address
  | automatedNext other address future =>
    exact .continued (.backendExecute true other address future) (.inl rfl) rfl rfl fun _ h _ =>
      mem_writeStatus h other address _
  | finish operation result other address future =>
    refine .continued (.taskEnd other future) (.inl rfl) rfl rfl fun id h _ => ?_
    simp only [runTask, UpdateManager.finish]
    split
    iterate 2 exact mem_writeStatus h other address _
    iterate 2 exact mem_modifyStatus h other _
  | taskEnd | getStatus => exact .ended rfl rfl hsame
  | shutdown => exact .ended rfl rfl fun _ h _ => Std.ExtTreeMap.mem_map.mpr h

/-! ## Runs -/

structure Settled (st : Threads UpdateManager UpdateTask) (id : Str) : Prop where
  state : id ∈ st.shared.states
  quiet : ∀ task ∈ st.tasks, task.removes ≠ some id

def OpensCalls (_ : Threads UpdateManager UpdateTask) :
    ThreadOp UpdateTask UpdateAnswers Empty → Prop
  | .spawn task => task.opensCall = true
  | .run _ _ | .boot _ => True

instance decidableOpensCalls (st : Threads UpdateManager UpdateTask) :
    (op : ThreadOp UpdateTask UpdateAnswers Empty) → Decidable (OpensCalls st op)
  | .spawn task => inferInstanceAs (Decidable (task.opensCall = true))
  | .run _ _ | .boot _ => inferInstanceAs (Decidable True)

theorem eq_deleteUpdate (hopens : task.opensCall = true) (hremoves : task.removes = some id) :
    task = .deleteUpdate id := by
  cases task with
  | deleteUpdate other => rw [Option.some.inj hremoves]
  | _ => contradiction

theorem Settled.step {st : Threads UpdateManager UpdateTask} (h : Settled st id)
    {op : ThreadOp UpdateTask UpdateAnswers Empty} (hop : op ≠ .spawn (.deleteUpdate id))
    (hopens : OpensCalls st op) : Settled (program.step st op).1 id := by
  have hstep := program.step_steps st op
  generalize program.step st op = result at hstep ⊢
  obtain ⟨st', out⟩ := result
  cases hstep with
  | @spawned task st' hshared htasks =>
    refine ⟨hshared ▸ h.state, ?_⟩
    intro other hother
    rcases List.mem_cons.mp (htasks.mem_iff.mp hother) with rfl | hother
    · intro hremoves
      rw [eq_deleteUpdate hopens hremoves] at hop
      contradiction
    · exact h.quiet other hother
  | idle => exact h
  | @ran _ a task others st' hhead hbefore hshared hafter =>
    have htask := h.quiet task (hbefore.mem_iff.mpr List.mem_cons_self)
    refine ⟨hshared ▸ keepsStates_runTask.states id h.state htask, ?_⟩
    intro other hother hremoves
    rcases List.mem_append.mp (hafter.mem_iff.mp hother) with hnew | hother
    · rcases keepsStates_runTask.inherits other hnew with hnone | hsame
      · rw [hnone] at hremoves
        contradiction
      · exact htask (hsame.symm.trans hremoves)
    · exact h.quiet other (hbefore.mem_iff.mpr (List.mem_cons_of_mem _ hother)) hremoves
  | @booted settings => exact settings.elim

theorem Settled.seeded {st : Threads UpdateManager UpdateTask} {thread : Nat}
    (hhead : st.head thread = some (.registerSeed id))
    (hquiet : ∀ task ∈ st.tasks, task.removes ≠ some id) :
    Settled (program.step st (.run thread a)).1 id := by
  obtain ⟨others, hbefore, hafter⟩ := Program.tasks_run (p := program) hhead a
  constructor
  · rw [(Program.step_run (p := program) hhead a).1]
    show id ∈ (if id ∈ st.shared.states then st.shared else st.shared.addState id {}).states
    split
    · assumption
    · exact Std.ExtTreeMap.mem_insert_self
  · intro task htask
    exact hquiet task (hbefore.mem_iff.mpr (List.mem_cons_of_mem _ (hafter.mem_iff.mp htask)))

theorem getStatus_of_mem (h : id ∈ m.states) : ∃ info, m.getStatus id = .ok info := by
  obtain ⟨state, hstate⟩ := Option.isSome_iff_exists.mp (Std.ExtTreeMap.mem_iff_isSome_getElem?.mp h)
  exact ⟨state.status, by simp [UpdateManager.getStatus, hstate]⟩

theorem registered_package_has_status {hasBackend : Bool}
    {newer older : List (Event (Threads UpdateManager UpdateTask)
      (ThreadOp UpdateTask UpdateAnswers Empty) (Option UpdateReply))}
    {event : Event (Threads UpdateManager UpdateTask)
      (ThreadOp UpdateTask UpdateAnswers Empty) (Option UpdateReply)}
    {st : Threads UpdateManager UpdateTask}
    (hrun : (program.machine { hasBackend := hasBackend }).Runs OpensCalls
      (newer ++ event :: older) st)
    {thread : Nat} (hop : event.op = .run thread a)
    (hregistered : event.before.head thread = some (.registerSeed id))
    (hquiet : ∀ task ∈ event.before.tasks, task.removes ≠ some id)
    (hlater : ∀ later ∈ newer, later.op ≠ .spawn (.deleteUpdate id)) :
    ∃ info, st.shared.getStatus id = .ok info := by
  have hsettled : Settled st id := by
    apply hrun.since (fun st => Settled st id)
    · intro _
      rw [hop]
      exact .seeded hregistered hquiet
    · exact fun later hmem hopens hsettled => hsettled.step (hlater later hmem) hopens
  exact getStatus_of_mem hsettled.state

def package : Str := str "pkg"

def registeringOps : List (ThreadOp UpdateTask UpdateAnswers Empty) :=
  [.spawn (.registerUpdate package), .run 0 {}, .run 0 {}]

def updatesAfter (ops : List (ThreadOp UpdateTask UpdateAnswers Empty)) :
    Threads UpdateManager UpdateTask :=
  (program.machine {}).exec { shared := {} } ops

theorem registered_package_has_status_while_preparing :
    ∃ info, (updatesAfter (registeringOps.append
      [.spawn (.startPrepare package), .run 1 {}])).shared.getStatus package = .ok info := by
  have hseeds : (program.machine {}).Runs OpensCalls _
      (updatesAfter [.spawn (.registerUpdate package), .run 0 {}]) :=
    Machine.Runs.start.exec _ (by decide)
  have hseeded := hseeds.step (ThreadOp.run 0 ({} : UpdateAnswers)) trivial
  have hspawned := hseeded.step (ThreadOp.spawn (UpdateTask.startPrepare package)) rfl
  have hrun : (program.machine {}).Runs OpensCalls ([_, _] ++ _ :: _)
      (updatesAfter (registeringOps.append [.spawn (.startPrepare package), .run 1 {}])) :=
    hspawned.step (ThreadOp.run 1 ({} : UpdateAnswers)) trivial
  refine registered_package_has_status hrun rfl rfl (by decide) ?_
  intro later hlater
  rcases List.mem_cons.mp hlater with rfl | hlater
  · nofun
  · rw [List.mem_singleton.mp hlater]
    nofun

/-- A delete is done in the backend when the package is registered there again. -/
def reregisteringOps : List (ThreadOp UpdateTask UpdateAnswers Empty) :=
  registeringOps.append
    [.spawn (.deleteUpdate package), .run 1 {}, .run 1 {}, .spawn (.registerUpdate package),
      .run 2 {}]

/-- The second registration finds the state that the delete has marked, returns, and the
delete erases it. -/
theorem reregistered_package_loses_status :
    let before := updatesAfter reregisteringOps
    let st := updatesAfter (reregisteringOps.append [.run 2 {}, .run 1 {}])
    before.head 2 = some (.registerSeed package) ∧
      (program.step before (.run 2 {})).2 = some .done ∧
      st.Returned ∧ package ∈ st.shared.registered ∧
      st.shared.getStatus package =
        .error ⟨.notFound, str "No status available for package 'pkg'"⟩ := by
  refine ⟨rfl, rfl, ?_, ?_, rfl⟩
  · decide
  · decide

end Medkit.Gateway
