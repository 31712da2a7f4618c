import Medkit.Lib.Bytes
import Medkit.Lib.Tasks

/-! The plugin's buffer of fault requests. A request is put into the buffer under its lock;
the same call, and every poll, then empties the buffer if the service is ready. The batch is
taken under the lock and dispatched after it, so two threads may be dispatching at once. -/
namespace Medkit.Opcua

open Lib

/-! ## Requests -/

inductive FaultRequest
  | report (faultCode description sourceId : Str) (severity : Nat)
  | clear (faultCode : Str)
  deriving DecidableEq

/-! ## The buffer -/

/-- A request with its place in the order in which requests were put into the buffer. -/
structure Ticket where
  number : Nat
  request : FaultRequest
  deriving DecidableEq

structure Outbox where
  pending : List Ticket := []
  /-- How many requests have been put into the buffer. -/
  enqueued : Nat := 0
  dropped : List Ticket := []
  /-- Oldest first. -/
  dispatched : List Ticket := []

def maxPendingReports : Nat := 256

def Outbox.put (outbox : Outbox) (request : FaultRequest) : Outbox :=
  let ticket := { number := outbox.enqueued, request := request }
  match outbox.pending with
  | oldest :: rest =>
      if maxPendingReports ≤ outbox.pending.length then
        { outbox with
          pending := rest ++ [ticket], enqueued := outbox.enqueued + 1
          dropped := outbox.dropped ++ [oldest] }
      else { outbox with pending := outbox.pending ++ [ticket], enqueued := outbox.enqueued + 1 }
  | [] => { outbox with pending := [ticket], enqueued := outbox.enqueued + 1 }

/-- The atomic pieces of `send_or_buffer` and, from `check` on, of `flush_pending_reports`. -/
inductive ReportTask
  | enqueue (request : FaultRequest)
  /-- Ask whether the service is ready. -/
  | check
  /-- Take the pending requests under the lock. -/
  | swap
  | dispatch (batch : List Ticket)
  deriving DecidableEq

/-- A thread asks the environment for one thing only, whether the service is ready. -/
def runReport (outbox : Outbox) (task : ReportTask) (ready : Bool) :
    Outcome Outbox ReportTask Empty :=
  match task with
  | .enqueue request => { shared := outbox.put request, next := [.check] }
  | .check => { shared := outbox, next := if ready then [.swap] else [] }
  | .swap =>
      if outbox.pending = [] then { shared := outbox }
      else { shared := { outbox with pending := [] }, next := [.dispatch outbox.pending] }
  | .dispatch [] => { shared := outbox }
  | .dispatch (ticket :: batch) =>
      { shared := { outbox with dispatched := outbox.dispatched ++ [ticket] }
        next := if batch = [] then [] else [.dispatch batch] }

/-- The plugin is not restarted within a run. -/
def reportProgram : Program Outbox ReportTask Bool Empty Empty where
  run := runReport
  boot outbox _ := outbox

abbrev ReportThreads := Threads Outbox ReportTask

abbrev ReportOp := ThreadOp ReportTask Bool Empty

def reportMachine : Machine ReportThreads ReportOp (Option Empty) := reportProgram.machine {}

/-- Threads begin with a call of `send_or_buffer` or of `flush_pending_reports`. -/
def IsCall (_ : ReportThreads) : ReportOp → Prop
  | .spawn (.enqueue _) | .spawn .check | .run .. => True
  | .spawn .swap | .spawn (.dispatch _) => False
  | .boot settings => settings.elim

def ReportTask.holding : ReportTask → Option (List Ticket)
  | .dispatch batch => some batch
  | _ => none

/-- No thread takes a batch while another one is dispatching; one that finds the buffer empty
takes none. -/
def OneAtATime (st : ReportThreads) (op : ReportOp) : Prop :=
  IsCall st op ∧ (st.ran op = some .swap → st.shared.pending ≠ [] →
    st.tasks.filterMap ReportTask.holding = [])

/-! ## Every request is in one place -/

def tickets (outbox : Outbox) (tasks : List ReportTask) : List Ticket :=
  outbox.pending ++ outbox.dropped ++ outbox.dispatched ++
    (tasks.filterMap ReportTask.holding).flatten

variable {outbox : Outbox} {tasks others : List ReportTask} {ticket : Ticket} {task : ReportTask}

theorem tickets_perm {tasks' : List ReportTask} (h : tasks.Perm tasks') :
    (tickets outbox tasks).Perm (tickets outbox tasks') :=
  ((h.filterMap _).flatten).append_left _

theorem mem_tickets_cons (h : ticket ∈ tickets outbox tasks) (task : ReportTask) :
    ticket ∈ tickets outbox (task :: tasks) := by
  rw [tickets, List.mem_append] at h ⊢
  refine h.imp_right ?_
  intro hheld
  rw [List.filterMap_cons]
  split
  · exact hheld
  · exact List.mem_append_right _ hheld

def ReportTask.added (outbox : Outbox) : ReportTask → List Ticket
  | .enqueue request => [{ number := outbox.enqueued, request := request }]
  | _ => []

theorem tickets_put (outbox : Outbox) (request : FaultRequest) (tasks : List ReportTask) :
    (tickets (outbox.put request) tasks).Perm
      ({ number := outbox.enqueued, request := request } :: tickets outbox tasks) := by
  unfold Outbox.put tickets
  cases hpending : outbox.pending with
  | nil => simp
  | cons oldest rest =>
    dsimp only
    split
    all_goals
      simp only [← Multiset.coe_eq_coe, ← Multiset.coe_add, ← Multiset.cons_coe, List.cons_append,
        ← Multiset.singleton_add, Multiset.coe_nil]
      abel

theorem tickets_run (outbox : Outbox) (task : ReportTask) (ready : Bool)
    (others : List ReportTask) : (tickets (runReport outbox task ready).shared
        ((runReport outbox task ready).tasks others)).Perm
      (task.added outbox ++ tickets outbox (task :: others)) := by
  cases task with
  | enqueue request => exact tickets_put outbox request _
  | check => cases ready <;> exact .refl _
  | swap =>
    unfold runReport
    dsimp only
    split
    · exact .refl _
    · simp [tickets, ReportTask.holding, ReportTask.added, ← Multiset.coe_eq_coe, ← Multiset.coe_add]
      abel
  | dispatch batch =>
    cases batch with
    | nil => exact .refl _
    | cons ticket batch =>
      unfold runReport
      dsimp only
      split
      · rename_i hnil
        subst hnil
        simp [tickets, ReportTask.holding, ReportTask.added]
      · simp [tickets, ReportTask.holding, ReportTask.added]

theorem enqueued_run (outbox : Outbox) (task : ReportTask) (ready : Bool) :
    (runReport outbox task ready).shared.enqueued =
      outbox.enqueued + (task.added outbox).length := by
  cases task with
  | enqueue request =>
    show (outbox.put request).enqueued = _
    unfold Outbox.put
    split
    · split <;> rfl
    · rfl
  | check => rfl
  | swap =>
    unfold runReport
    dsimp only
    split <;> rfl
  | dispatch batch => cases batch <;> rfl

theorem added_numbers (outbox : Outbox) (task : ReportTask) :
    (task.added outbox).map Ticket.number =
      (List.range (task.added outbox).length).map (outbox.enqueued + ·) := by
  cases task <;> rfl

def Numbered (outbox : Outbox) (tasks : List ReportTask) : Prop :=
  ((tickets outbox tasks).map Ticket.number).Perm (List.range outbox.enqueued)

theorem Numbered.run (h : Numbered outbox (task :: others)) (ready : Bool) :
    Numbered (runReport outbox task ready).shared
      ((runReport outbox task ready).tasks others) := by
  unfold Numbered
  rw [enqueued_run, List.range_add, ← added_numbers]
  have hrun := (tickets_run outbox task ready others).map Ticket.number
  rw [List.map_append] at hrun
  exact hrun.trans ((h.append_left _).trans List.perm_append_comm)

theorem numbered_spawn {st : ReportThreads} (hcall : IsCall st (.spawn task))
    (h : Numbered st.shared st.tasks) : Numbered st.shared (task :: st.tasks) := by
  cases task with
  | enqueue request => exact h
  | check => exact h
  | swap => exact hcall.elim
  | dispatch batch => exact hcall.elim

variable {history : List (Event ReportThreads ReportOp (Option Empty))} {st : ReportThreads}

theorem numbered_runs (hruns : reportMachine.Runs IsCall history st) :
    Numbered st.shared st.tasks := by
  apply Program.invariant Numbered _ _ _ _ _ hruns
  · intro outbox tasks tasks' hperm h
    exact ((tickets_perm hperm.symm).map _).trans h
  · exact .refl _
  · intro st task hcall h
    exact numbered_spawn hcall h
  · intro st thread ready task others _ _ _ h
    exact h.run ready
  · intro st settings
    exact settings.elim

/-! ## While the service stays ready -/

/-- The request is in its place, and while it is pending some thread is about to take the
batch. -/
def Promised (ticket : Ticket) (outbox : Outbox) (tasks : List ReportTask) : Prop :=
  ticket ∈ tickets outbox tasks ∧
    (ticket ∈ outbox.pending → .check ∈ tasks ∨ .swap ∈ tasks)

theorem Promised.perm {tasks' : List ReportTask} (h : Promised ticket outbox tasks)
    (hperm : tasks.Perm tasks') : Promised ticket outbox tasks' := by
  refine ⟨(tickets_perm hperm).mem_iff.mp h.1, ?_⟩
  rw [← hperm.mem_iff, ← hperm.mem_iff]
  exact h.2

theorem Promised.run (h : Promised ticket outbox (task :: others)) {ready : Bool}
    (hready : task = .check → ready = true) : Promised ticket (runReport outbox task ready).shared
      ((runReport outbox task ready).tasks others) := by
  refine ⟨(tickets_run outbox task ready others).mem_iff.mpr (List.mem_append_right _ h.1), ?_⟩
  intro hpending
  cases task with
  | enqueue request => exact Or.inl List.mem_cons_self
  | check =>
    rw [hready rfl]
    exact Or.inr List.mem_cons_self
  | swap =>
    unfold runReport at hpending
    dsimp only at hpending
    split at hpending
    · rename_i hnil
      rw [hnil] at hpending
      cases hpending
    · cases hpending
  | dispatch batch =>
    have hothers : .check ∈ others ∨ .swap ∈ others := by
      cases batch <;> simpa using h.2 hpending
    exact hothers.imp (List.mem_append_right _) (List.mem_append_right _)

theorem promised_enqueue (outbox : Outbox) (request : FaultRequest) (ready : Bool)
    (others : List ReportTask) :
    Promised ⟨outbox.enqueued, request⟩ (runReport outbox (.enqueue request) ready).shared
      ((runReport outbox (.enqueue request) ready).tasks others) := by
  constructor
  · rw [(tickets_run outbox (.enqueue request) ready others).mem_iff]
    exact List.mem_cons_self
  · intro _
    exact Or.inl List.mem_cons_self

/-- The run goes on from a moment at which `request` was put into the buffer, and every later
question for the service is answered with yes. -/
structure ReadySince (history : List (Event ReportThreads ReportOp (Option Empty)))
    (ticket : Ticket) : Prop where
  since : ∃ newer event older, history = newer ++ event :: older ∧
    event.before.ran event.op = some (.enqueue ticket.request) ∧
    ticket.number = event.before.shared.enqueued ∧
    ∀ later ∈ newer, ∀ thread, later.op = .run thread false → later.before.head thread ≠ some .check

theorem Promised.step {op : ReportOp} (h : Promised ticket st.shared st.tasks)
    (hready : ∀ thread, op = .run thread false → st.head thread ≠ some .check) :
    Promised ticket (reportProgram.step st op).1.shared (reportProgram.step st op).1.tasks := by
  have hstep := Program.step_steps reportProgram st op
  generalize reportProgram.step st op = result at hstep ⊢
  obtain ⟨st', out⟩ := result
  cases hstep with
  | spawned hshared htasks =>
    dsimp only
    rw [hshared]
    apply Promised.perm _ htasks.symm
    refine ⟨mem_tickets_cons h.1 _, ?_⟩
    intro hpending
    exact (h.2 hpending).imp (List.mem_cons_of_mem _) (List.mem_cons_of_mem _)
  | idle => exact h
  | @ran thread ready task others _ hhead hbefore hshared hafter =>
    dsimp only
    rw [hshared]
    apply Promised.perm _ hafter.symm
    apply (h.perm hbefore).run
    rintro rfl
    cases ready with
    | true => rfl
    | false => exact absurd hhead (hready thread rfl)
  | booted => exact (‹Empty›).elim

theorem promised_of_ready (hruns : reportMachine.Runs IsCall history st)
    (hready : ReadySince history ticket) : Promised ticket st.shared st.tasks := by
  obtain ⟨newer, event, older, rfl, hran, hnumber, hlater⟩ := hready.since
  refine hruns.since (fun st => Promised ticket st.shared st.tasks) ?_ ?_
  · intro _
    show Promised ticket (reportProgram.step event.before event.op).1.shared _
    cases hop : event.op with
    | spawn task => simp [hop, Threads.ran] at hran
    | boot settings => exact settings.elim
    | run thread ready =>
      rw [hop] at hran
      obtain ⟨others, -, hafter⟩ := Program.tasks_run (p := reportProgram) hran ready
      rw [(Program.step_run (p := reportProgram) hran ready).1]
      apply Promised.perm _ hafter.symm
      have h := promised_enqueue event.before.shared ticket.request ready others
      rw [← hnumber] at h
      exact h
  · intro later hmem _ h
    exact h.step fun thread hop => hlater later hmem thread hop

/-! ## One batch at a time -/

/-- At most one batch is being dispatched, and what was dispatched, that batch and what is
pending follow one another in the order of the buffer. -/
def Ordered (outbox : Outbox) (tasks : List ReportTask) : Prop :=
  (tasks.filterMap ReportTask.holding).length ≤ 1 ∧
    (((outbox.dispatched ++ (tasks.filterMap ReportTask.holding).flatten ++ outbox.pending).map
      Ticket.number).Pairwise (· < ·)) ∧
    ∀ ticket ∈ outbox.dispatched ++ (tasks.filterMap ReportTask.holding).flatten ++ outbox.pending,
      ticket.number < outbox.enqueued

theorem eq_of_perm_of_length_le_one {α : Type} {l l' : List α} (h : l.Perm l')
    (hlength : l.length ≤ 1) : l = l' := by
  match l, hlength with
  | [], _ => exact h.nil_eq
  | [a], _ => exact (List.singleton_perm.mp h)

theorem Ordered.perm {tasks' : List ReportTask} (h : Ordered outbox tasks)
    (hperm : tasks.Perm tasks') : Ordered outbox tasks' := by
  have heq := eq_of_perm_of_length_le_one (hperm.filterMap ReportTask.holding) h.1
  unfold Ordered
  rw [← heq]
  exact h

theorem put_cases (outbox : Outbox) (request : FaultRequest) :
    (outbox.put request).dispatched = outbox.dispatched ∧
      (outbox.put request).enqueued = outbox.enqueued + 1 ∧
      ∃ kept, kept.Sublist outbox.pending ∧
        (outbox.put request).pending = kept ++ [⟨outbox.enqueued, request⟩] := by
  unfold Outbox.put
  cases hpending : outbox.pending with
  | nil => exact ⟨rfl, rfl, [], List.nil_sublist _, rfl⟩
  | cons oldest rest =>
    dsimp only
    split
    · exact ⟨rfl, rfl, rest, List.sublist_cons_self oldest rest, rfl⟩
    · exact ⟨rfl, rfl, oldest :: rest, List.Sublist.refl _, rfl⟩

theorem Ordered.enqueue {request : FaultRequest} (h : Ordered outbox (.enqueue request :: others)) :
    Ordered (outbox.put request) (.check :: others) := by
  obtain ⟨hdispatched, henqueued, kept, hkept, hpending⟩ := put_cases outbox request
  obtain ⟨hlength, hsorted, hbound⟩ := h
  have hsub := (List.Sublist.refl (outbox.dispatched ++
    (others.filterMap ReportTask.holding).flatten)).append hkept
  refine ⟨hlength, ?_, ?_⟩
  · rw [hdispatched, hpending, ← List.append_assoc, List.map_append, List.pairwise_append]
    refine ⟨hsorted.sublist (hsub.map _), List.pairwise_singleton _ _, ?_⟩
    intro number hnumber new hnew
    obtain ⟨ticket, hticket, rfl⟩ := List.mem_map.mp hnumber
    rw [List.mem_singleton.mp hnew]
    exact hbound ticket (hsub.subset hticket)
  · intro ticket hticket
    rw [hdispatched, hpending, ← List.append_assoc, List.mem_append] at hticket
    rw [henqueued]
    rcases hticket with hticket | hticket
    · exact Nat.lt_succ_of_lt (hbound ticket (hsub.subset hticket))
    · rw [List.mem_singleton.mp hticket]
      exact Nat.lt_succ_self _

theorem Ordered.run (h : Ordered outbox (task :: others)) (ready : Bool)
    (halone : task = .swap → outbox.pending ≠ [] → others.filterMap ReportTask.holding = []) :
    Ordered (runReport outbox task ready).shared
      ((runReport outbox task ready).tasks others) := by
  cases task with
  | enqueue request => exact h.enqueue
  | check => cases ready <;> exact h
  | swap =>
    unfold runReport
    dsimp only
    split
    · exact h
    · rename_i hpending
      have hothers := halone rfl hpending
      obtain ⟨-, hsorted, hbound⟩ := h
      simp only [List.filterMap_cons, ReportTask.holding, hothers, List.flatten_nil,
        List.append_nil] at hsorted hbound
      refine ⟨?_, ?_, ?_⟩
      · simp [ReportTask.holding, hothers]
      · simpa [ReportTask.holding, hothers] using hsorted
      · simpa [ReportTask.holding, hothers] using hbound
  | dispatch batch =>
    obtain ⟨hlength, hsorted, hbound⟩ := h
    have hothers : others.filterMap ReportTask.holding = [] := by
      simpa [ReportTask.holding] using hlength
    simp only [List.filterMap_cons, ReportTask.holding, hothers, List.flatten_cons,
      List.flatten_nil, List.append_nil] at hsorted hbound
    cases batch with
    | nil =>
      simp only [runReport, Ordered, Outcome.tasks, List.append_nil, List.nil_append, hothers]
      exact ⟨Nat.zero_le 1, hsorted, hbound⟩
    | cons ticket batch =>
      have hmoved : outbox.dispatched ++ ticket :: batch = outbox.dispatched ++ [ticket] ++ batch :=
        (List.append_cons ..)
      rw [hmoved] at hsorted hbound
      unfold runReport Ordered Outcome.tasks
      by_cases hnil : batch = []
      · subst hnil
        simp only [if_true, List.append_nil, List.nil_append, hothers, List.flatten_nil] at *
        exact ⟨Nat.zero_le 1, hsorted, hbound⟩
      · simp only [if_neg hnil, List.append_nil, List.singleton_append, List.filterMap_cons,
          ReportTask.holding, hothers, List.flatten_cons, List.flatten_nil]
        exact ⟨le_rfl, hsorted, hbound⟩

theorem ordered_runs (hruns : reportMachine.Runs OneAtATime history st) :
    Ordered st.shared st.tasks := by
  apply Program.invariant Ordered _ _ _ _ _ hruns
  · intro outbox tasks tasks' hperm h
    exact h.perm hperm
  · exact ⟨Nat.zero_le 1, List.Pairwise.nil, nofun⟩
  · intro st task hcall h
    cases task with
    | enqueue request => exact h
    | check => exact h
    | swap => exact hcall.1.elim
    | dispatch batch => exact hcall.1.elim
  · intro st thread ready task others hguard hhead hperm h
    apply h.run
    rintro rfl hpending
    have hheld := hperm.filterMap ReportTask.holding
    rw [hguard.2 hhead hpending] at hheld
    exact hheld.nil_eq.symm
  · intro st settings
    exact settings.elim

theorem length_put_le (h : outbox.pending.length ≤ maxPendingReports) (request : FaultRequest) :
    (outbox.put request).pending.length ≤ maxPendingReports := by
  unfold Outbox.put
  cases hpending : outbox.pending with
  | nil => exact Nat.le_of_ble_eq_true rfl
  | cons oldest rest =>
    rw [hpending, List.length_cons] at h
    dsimp only
    split
    · simpa using h
    · simp only [List.length_append, List.length_cons, List.length_nil] at *
      omega

theorem length_run_le (h : outbox.pending.length ≤ maxPendingReports) (task : ReportTask)
    (ready : Bool) : (runReport outbox task ready).shared.pending.length ≤ maxPendingReports := by
  cases task with
  | enqueue request => exact length_put_le h request
  | check => exact h
  | swap =>
    unfold runReport
    dsimp only
    split
    · exact h
    · exact Nat.zero_le _
  | dispatch batch => cases batch <;> exact h

/-- In every interleaving the buffer keeps to its limit, and every request put into it is in one
place: pending, dropped, dispatched or in the batch of one thread. -/
theorem requests_accounted (history : List (Event ReportThreads ReportOp (Option Empty)))
    (st : ReportThreads) (hruns : reportMachine.Runs IsCall history st) :
    st.shared.pending.length ≤ maxPendingReports ∧ Numbered st.shared st.tasks := by
  refine ⟨?_, numbered_runs hruns⟩
  apply Program.invariant (fun outbox _ => outbox.pending.length ≤ maxPendingReports) _ _ _ _ _ hruns
  · exact fun _ h => h
  · exact Nat.zero_le _
  · exact fun _ _ _ h => h
  · exact fun _ _ ready task _ _ _ _ h => length_run_le h task ready
  · exact fun _ settings => settings.elim

/-! ## A report and a clear -/

instance (st : ReportThreads) : ∀ op, Decidable (IsCall st op)
  | .spawn (.enqueue _) | .spawn .check | .run .. => isTrue trivial
  | .spawn .swap | .spawn (.dispatch _) => isFalse id
  | .boot settings => settings.elim

instance (st : ReportThreads) (op : ReportOp) : Decidable (OneAtATime st op) :=
  inferInstanceAs (Decidable (_ ∧ (_ → _ → _)))

def overheatReport : FaultRequest := .report (str "OVERHEAT") [] (str "pump") 2

def overheatClear : FaultRequest := .clear (str "OVERHEAT")

def reportThenClear : List ReportOp :=
  [.spawn (.enqueue overheatReport), .run 0 true, .run 0 true, .run 0 true, .run 0 true,
    .spawn (.enqueue overheatClear), .run 1 true, .run 1 true, .run 1 true, .run 1 true]

theorem requests_accounted_of_overheat :
    Numbered (reportMachine.exec reportMachine.init reportThenClear).shared
      (reportMachine.exec reportMachine.init reportThenClear).tasks :=
  (requests_accounted _ _ (Machine.Runs.start.exec reportThenClear (by decide))).2

end Medkit.Opcua
