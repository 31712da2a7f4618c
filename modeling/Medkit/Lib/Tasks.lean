import Medkit.Lib.Machine

/-! Threads that run queues of atomic tasks. A call is cut at its locks into tasks;
the first task of a thread changes the shared state and may put further tasks before
or behind the rest of its queue. Any thread may run next, so a run is an interleaving
of the calls, and an invariant of all runs is one that every single task keeps. -/
namespace Lib

structure Outcome (σ τ ο : Type) where
  shared : σ
  next : List τ := []
  later : List τ := []
  out : Option ο := none

/-- The tasks in flight after a task, if the others are left alone. -/
abbrev Outcome.tasks {σ τ ο : Type} (outcome : Outcome σ τ ο) (others : List τ) : List τ :=
  outcome.next ++ outcome.later ++ others

/-- `κ` is what the environment answers to a task, `β` what a process starts with. -/
structure Program (σ τ κ ο β : Type) where
  run : σ → τ → κ → Outcome σ τ ο
  boot : σ → β → σ

structure Threads (σ τ : Type) where
  shared : σ
  queues : List (List τ) := []

inductive ThreadOp (τ κ β : Type) where
  | spawn (task : τ)
  | run (thread : Nat) (answers : κ)
  /-- the process ends with all its threads, and the next one starts -/
  | boot (settings : β)

namespace Threads

variable {σ τ : Type}

def tasks (st : Threads σ τ) : List τ := st.queues.flatten

def head (st : Threads σ τ) (thread : Nat) : Option τ := st.queues[thread]?.bind List.head?

def Returned (st : Threads σ τ) : Prop := st.tasks = []

instance decidableReturned (st : Threads σ τ) : Decidable st.Returned :=
  decidable_of_iff (st.tasks.isEmpty = true) List.isEmpty_iff

def ran {κ β : Type} (st : Threads σ τ) : ThreadOp τ κ β → Option τ
  | .run thread _ => st.head thread
  | .spawn _ | .boot _ => none

end Threads

namespace Program

variable {σ τ κ ο β : Type} (p : Program σ τ κ ο β)

def step (st : Threads σ τ) : ThreadOp τ κ β → Threads σ τ × Option ο
  | .spawn task => ({ st with queues := st.queues ++ [[task]] }, none)
  | .run thread answers =>
      match st.queues[thread]? with
      | some (task :: rest) =>
          let outcome := p.run st.shared task answers
          ({ shared := outcome.shared
             queues := st.queues.set thread (outcome.next ++ rest ++ outcome.later) }, outcome.out)
      | _ => (st, none)
  | .boot settings => ({ shared := p.boot st.shared settings }, none)

def machine (init : σ) : Machine (Threads σ τ) (ThreadOp τ κ β) (Option ο) where
  init := { shared := init }
  step := p.step

/-! ## What a step does to the tasks in flight -/

variable {p} {st : Threads σ τ} {thread : Nat} {answers : κ}

theorem tasks_spawn (p : Program σ τ κ ο β) (task : τ) :
    (p.step st (.spawn task)).1.tasks.Perm (task :: st.tasks) := by
  simp only [step, Threads.tasks, List.flatten_append]
  apply List.perm_append_comm.trans
  simp

theorem head_eq_some {task : τ} (hhead : st.head thread = some task) :
    ∃ rest, st.queues[thread]? = some (task :: rest) := by
  obtain ⟨queue, hqueue, htask⟩ := Option.bind_eq_some_iff.mp hhead
  obtain ⟨rest, rfl⟩ := List.head?_eq_some_iff.mp htask
  exact ⟨rest, hqueue⟩

theorem step_run_of_idle (hhead : st.head thread = none) :
    p.step st (.run thread answers) = (st, none) := by
  simp only [step]
  cases hqueue : st.queues[thread]? with
  | none => rfl
  | some queue =>
    cases queue with
    | nil => rfl
    | cons task rest => simp [Threads.head, hqueue] at hhead

theorem step_run {task : τ} (hhead : st.head thread = some task) (answers : κ) :
    (p.step st (.run thread answers)).1.shared = (p.run st.shared task answers).shared ∧
      (p.step st (.run thread answers)).2 = (p.run st.shared task answers).out := by
  obtain ⟨rest, hqueue⟩ := head_eq_some hhead
  simp [step, hqueue]

theorem tasks_run {task : τ} (hhead : st.head thread = some task) (answers : κ) :
    ∃ others, st.tasks.Perm (task :: others) ∧
      (p.step st (.run thread answers)).1.tasks.Perm
        ((p.run st.shared task answers).tasks others) := by
  obtain ⟨rest, hqueue⟩ := head_eq_some hhead
  obtain ⟨hlt, hget⟩ := List.getElem?_eq_some_iff.mp hqueue
  let outcome := p.run st.shared task answers
  obtain ⟨before, after, hqueues, -, hset⟩ : ∃ before after, _ ∧ _ ∧ st.queues.set thread
      (outcome.next ++ rest ++ outcome.later) = _ := List.exists_of_set hlt
  rw [hget] at hqueues
  refine ⟨before.flatten ++ rest ++ after.flatten, ?_, ?_⟩
  · rw [Threads.tasks, hqueues]
    simp only [List.flatten_append, List.flatten_cons, List.cons_append, List.append_assoc]
    exact List.perm_middle
  · simp only [step, hqueue, Threads.tasks]
    rw [hset]
    simp only [List.flatten_append, List.flatten_cons, ← Multiset.coe_eq_coe,
      ← Multiset.coe_add]
    abel

inductive Steps (p : Program σ τ κ ο β) (st : Threads σ τ) :
    ThreadOp τ κ β → Threads σ τ → Option ο → Prop
  | spawned {task : τ} {st' : Threads σ τ} : st'.shared = st.shared →
      st'.tasks.Perm (task :: st.tasks) → Steps p st (.spawn task) st' none
  | idle {thread : Nat} {answers : κ} : Steps p st (.run thread answers) st none
  | ran {thread : Nat} {answers : κ} {task : τ} {others : List τ} {st' : Threads σ τ} :
      st.head thread = some task → st.tasks.Perm (task :: others) →
      st'.shared = (p.run st.shared task answers).shared → st'.tasks.Perm
        ((p.run st.shared task answers).tasks others) →
      Steps p st (.run thread answers) st' (p.run st.shared task answers).out
  | booted {settings : β} : Steps p st (.boot settings) { shared := p.boot st.shared settings } none

theorem step_steps (p : Program σ τ κ ο β) (st : Threads σ τ) (op : ThreadOp τ κ β) :
    Steps p st op (p.step st op).1 (p.step st op).2 := by
  cases op with
  | spawn task => exact .spawned rfl (tasks_spawn p task)
  | boot settings => exact .booted
  | run thread answers =>
    cases hhead : st.head thread with
    | none =>
      rw [step_run_of_idle hhead]
      exact .idle
    | some task =>
      obtain ⟨others, hbefore, hafter⟩ := tasks_run (p := p) hhead answers
      obtain ⟨hshared, hout⟩ := step_run (p := p) hhead answers
      rw [hout]
      exact .ran hhead hbefore hshared hafter

theorem step_ran (p : Program σ τ κ ο β) {op : ThreadOp τ κ β} {task : τ}
    (hran : st.ran op = some task) :
    ∃ answers, (p.step st op).1.shared = (p.run st.shared task answers).shared := by
  cases op with
  | spawn task => contradiction
  | boot settings => contradiction
  | run thread answers => exact ⟨answers, (step_run (p := p) hran answers).1⟩

/-- A property of the shared state alone that the task run by the operation keeps. -/
theorem step_shared (P : σ → Prop) {op : ThreadOp τ κ β} (h : P st.shared)
    (hrun : ∀ task ∈ st.ran op, ∀ answers, P (p.run st.shared task answers).shared)
    (hboot : ∀ settings, op = .boot settings → P (p.boot st.shared settings)) :
    P (p.step st op).1.shared := by
  cases op with
  | spawn task => exact h
  | boot settings => exact hboot settings rfl
  | run thread answers =>
    cases hhead : st.head thread with
    | none =>
      rw [step_run_of_idle hhead]
      exact h
    | some task =>
      rw [(step_run (p := p) hhead answers).1]
      exact hrun task hhead answers

/-! ## Invariants -/

/-- An invariant of the shared state and the tasks in flight, in whatever order, that
survives every single task holds in every run. -/
theorem invariant {init : σ} {guard : Threads σ τ → ThreadOp τ κ β → Prop}
    (Inv : σ → List τ → Prop) (hperm : ∀ {s l l'}, l.Perm l' → Inv s l → Inv s l')
    (hstart : Inv init []) (hspawn : ∀ st task, guard st (.spawn task) → Inv st.shared st.tasks →
      Inv st.shared (task :: st.tasks))
    (hrun : ∀ st thread answers task others, guard st (.run thread answers) →
      st.head thread = some task → st.tasks.Perm (task :: others) →
      Inv st.shared (task :: others) →
      Inv (p.run st.shared task answers).shared ((p.run st.shared task answers).tasks others))
    (hboot : ∀ st settings, guard st (.boot settings) → Inv st.shared st.tasks →
      Inv (p.boot st.shared settings) [])
    {history : List (Event (Threads σ τ) (ThreadOp τ κ β) (Option ο))} {st : Threads σ τ}
    (hr : (p.machine init).Runs guard history st) : Inv st.shared st.tasks := by
  apply hr.invariant (fun _ st => Inv st.shared st.tasks) hstart
  intro _ st op _ hguard hinv
  show Inv (p.step st op).1.shared (p.step st op).1.tasks
  have hstep := step_steps p st op
  generalize p.step st op = result at hstep ⊢
  obtain ⟨st', out⟩ := result
  cases hstep with
  | spawned hshared htasks =>
    rw [hshared]
    exact hperm htasks.symm (hspawn st _ hguard hinv)
  | idle => exact hinv
  | ran hhead hbefore hshared hafter =>
    rw [hshared]
    exact hperm hafter.symm (hrun st _ _ _ _ hguard hhead hbefore (hperm hbefore hinv))
  | booted => exact hboot st _ hguard hinv

end Program

end Lib
