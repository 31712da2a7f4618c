import Mathlib

/-! Sequential machines and their runs. A call takes a state and an operation to
the next state and a returned value. A property of whole runs follows from what
one step preserves, and two machines agree on whole runs once one step keeps a
relation between their states. -/
namespace Lib

structure Machine (σ ι ο : Type) where
  init : σ
  step : σ → ι → σ × ο

/-- One call of a run: the state it found, the operation, the returned value. -/
structure Event (σ ι ο : Type) where
  before : σ
  op : ι
  out : ο

namespace Machine

variable {σ σ' ι ο ο' : Type}

/-- The runs whose steps all satisfy `guard`: the events, newest first, and the
state reached. -/
inductive Runs (m : Machine σ ι ο) (guard : σ → ι → Prop) : List (Event σ ι ο) → σ → Prop
  | start : Runs m guard [] m.init
  | step {h s} (op : ι) : Runs m guard h s → guard s op →
      Runs m guard (⟨s, op, (m.step s op).2⟩ :: h) (m.step s op).1

def Reachable (m : Machine σ ι ο) (s : σ) : Prop := ∃ h, m.Runs (fun _ _ => True) h s

theorem Runs.reachable {m : Machine σ ι ο} {guard : σ → ι → Prop} {h : List (Event σ ι ο)}
    {s : σ} (hr : m.Runs guard h s) : m.Reachable s := by
  induction hr with
  | start => exact ⟨[], .start⟩
  | step op _ _ ih =>
    obtain ⟨h, hr⟩ := ih
    exact ⟨_, hr.step op trivial⟩

/-- What holds at the start and survives every permitted step holds after every
run, of the history as well as of the state. -/
theorem Runs.invariant {m : Machine σ ι ο} {guard : σ → ι → Prop}
    (P : List (Event σ ι ο) → σ → Prop) (hstart : P [] m.init)
    (hstep : ∀ h s op, m.Reachable s → guard s op → P h s →
      P (⟨s, op, (m.step s op).2⟩ :: h) (m.step s op).1)
    {h : List (Event σ ι ο)} {s : σ} (hr : m.Runs guard h s) : P h s := by
  induction hr with
  | start => exact hstart
  | step op hr hg ih => exact hstep _ _ op hr.reachable hg ih

/-- What holds after one step of a run and survives the steps since then still holds. -/
theorem Runs.since {m : Machine σ ι ο} {guard : σ → ι → Prop} {newer older : List (Event σ ι ο)}
    {event : Event σ ι ο} {s : σ} (hr : m.Runs guard (newer ++ event :: older) s) (P : σ → Prop)
    (hafter : guard event.before event.op → P (m.step event.before event.op).1)
    (hstep : ∀ later ∈ newer, guard later.before later.op → P later.before →
      P (m.step later.before later.op).1) : P s := by
  induction newer generalizing s with
  | nil =>
    cases hr with
    | step op _ hg => exact hafter hg
  | cons later newer ih =>
    cases hr with
    | step op hr hg =>
      apply hstep _ List.mem_cons_self hg
      exact ih hr fun later hlater => hstep later (List.mem_cons_of_mem _ hlater)

theorem Runs.out_eq {m : Machine σ ι ο} {guard : σ → ι → Prop} {h : List (Event σ ι ο)} {s : σ}
    (hr : m.Runs guard h s) {event : Event σ ι ο} (hevent : event ∈ h) :
    event.out = (m.step event.before event.op).2 := by
  induction hr with
  | start => exact absurd hevent List.not_mem_nil
  | step op _ _ ih =>
    rcases List.mem_cons.mp hevent with rfl | hevent
    · rfl
    · exact ih hevent

theorem Reachable.invariant {m : Machine σ ι ο} (P : σ → Prop) (hstart : P m.init)
    (hstep : ∀ s op, P s → P (m.step s op).1) {s : σ} (hs : m.Reachable s) : P s := by
  obtain ⟨h, hr⟩ := hs
  exact hr.invariant (fun _ s => P s) hstart (fun _ s op _ _ hp => hstep s op hp)

theorem Reachable.step {m : Machine σ ι ο} {s : σ} (hs : m.Reachable s) (op : ι) :
    m.Reachable (m.step s op).1 := by
  obtain ⟨h, hr⟩ := hs
  exact ⟨_, hr.step op trivial⟩

theorem reachable_init (m : Machine σ ι ο) : m.Reachable m.init := ⟨[], .start⟩

/-! ## Executing a list of operations -/

def exec (m : Machine σ ι ο) : σ → List ι → σ
  | s, [] => s
  | s, op :: ops => exec m (m.step s op).1 ops

def outputs (m : Machine σ ι ο) : σ → List ι → List ο
  | _, [] => []
  | s, op :: ops => (m.step s op).2 :: outputs m (m.step s op).1 ops

theorem exec_append (m : Machine σ ι ο) (s : σ) (ops ops' : List ι) :
    m.exec s (ops ++ ops') = m.exec (m.exec s ops) ops' := by
  induction ops generalizing s with
  | nil => rfl
  | cons op ops ih => exact ih _

theorem exec_invariant (m : Machine σ ι ο) (P : σ → Prop) {ops : List ι}
    (hstep : ∀ op ∈ ops, ∀ s, P s → P (m.step s op).1) {s : σ} (h : P s) : P (m.exec s ops) := by
  induction ops generalizing s with
  | nil => exact h
  | cons op ops ih =>
    obtain ⟨hop, hops⟩ := List.forall_mem_cons.mp hstep
    exact ih hops (hop s h)

theorem outputs_append (m : Machine σ ι ο) (s : σ) (ops ops' : List ι) :
    m.outputs s (ops ++ ops') = m.outputs s ops ++ m.outputs (m.exec s ops) ops' := by
  induction ops generalizing s with
  | nil => rfl
  | cons op ops ih => exact congrArg _ (ih _)

/-- Every operation of the list meets `guard` in the state it is applied to. -/
def Guarded (m : Machine σ ι ο) (guard : σ → ι → Prop) : σ → List ι → Prop
  | _, [] => True
  | s, op :: ops => guard s op ∧ Guarded m guard (m.step s op).1 ops

instance decidableGuarded (m : Machine σ ι ο) (guard : σ → ι → Prop)
    [∀ s op, Decidable (guard s op)] : ∀ s ops, Decidable (m.Guarded guard s ops)
  | _, [] => isTrue trivial
  | s, op :: ops =>
      have := decidableGuarded m guard (m.step s op).1 ops
      inferInstanceAs (Decidable (guard s op ∧ m.Guarded guard (m.step s op).1 ops))

def history (m : Machine σ ι ο) : List (Event σ ι ο) → σ → List ι → List (Event σ ι ο)
  | h, _, [] => h
  | h, s, op :: ops => history m (⟨s, op, (m.step s op).2⟩ :: h) (m.step s op).1 ops

theorem Runs.exec {m : Machine σ ι ο} {guard : σ → ι → Prop} {h : List (Event σ ι ο)} {s : σ}
    (hr : m.Runs guard h s) (ops : List ι) (hg : m.Guarded guard s ops) :
    m.Runs guard (m.history h s ops) (m.exec s ops) := by
  induction ops generalizing h s with
  | nil => exact hr
  | cons op ops ih => exact ih (hr.step op hg.1) hg.2

theorem guarded_true (m : Machine σ ι ο) (s : σ) (ops : List ι) :
    m.Guarded (fun _ _ => True) s ops := by
  induction ops generalizing s with
  | nil => trivial
  | cons op ops ih => exact ⟨trivial, ih _⟩

theorem reachable_exec (m : Machine σ ι ο) (ops : List ι) : m.Reachable (m.exec m.init ops) :=
  ⟨_, Runs.start.exec ops (m.guarded_true m.init ops)⟩

/-- Lockstep simulation: related states stay related under the operations that
meet `guard`, and the two machines return related values for each of them. -/
theorem lockstep (m : Machine σ ι ο) (m' : Machine σ' ι ο') (guard : σ → ι → Prop)
    (R : σ → σ' → Prop) (O : ο → ο' → Prop) (hstep : ∀ s s' op, R s s' → guard s op →
      R (m.step s op).1 (m'.step s' op).1 ∧ O (m.step s op).2 (m'.step s' op).2)
    {s : σ} {s' : σ'} {ops : List ι} (hR : R s s') (hg : m.Guarded guard s ops) :
    R (m.exec s ops) (m'.exec s' ops) ∧ List.Forall₂ O (m.outputs s ops) (m'.outputs s' ops) := by
  induction ops generalizing s s' with
  | nil => exact ⟨hR, .nil⟩
  | cons op ops ih =>
    obtain ⟨hR', hO⟩ := hstep s s' op hR hg.1
    obtain ⟨hfinal, houts⟩ := ih hR' hg.2
    exact ⟨hfinal, .cons hO houts⟩

end Machine

end Lib
