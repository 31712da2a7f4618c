import Medkit.Lib.Bytes
import Medkit.Lib.OrderedMap

/-! How the parameter beacon polls its targets: round robin within a budget of time, with a backoff
for targets that do not answer. -/
namespace Medkit.Introspection.ParamBeacon

open Lib

inductive Reply where
  | noService
  | exception
  | noParameters
  | noEntityId
  | rejected
  | stored

structure Answer where
  factoryThrows : Bool := false
  reply : Reply
  duration : Nat := 0

inductive Outcome where
  | failed
  /-- The poll returns before the hint is stored. -/
  | early
  | stored
deriving DecidableEq

structure Visit where
  target : Str
  result : Option Outcome
deriving DecidableEq

/-- The targets stay as they are, and time passes only while a node is polled. -/
structure Setup where
  targets : List Str
  introspected : Bool
  budget : Nat
  nonempty : targets ≠ []
  nodup : targets.Nodup
  positive : 0 < budget

/-- `poll_targets_` is empty if the targets come from the ROS graph. -/
def Setup.pollTargets (setup : Setup) : List Str := if setup.introspected then setup.targets else []

/-- The log, with the latest visit first, is no part of the plugin. -/
structure State where
  clients : OSet Str := ∅
  backoffCounts : OMap Str Nat := ∅
  skipRemaining : OMap Str Nat := ∅
  startOffset : Nat := 0
  log : List Visit := []

namespace State

variable (s : State) (fqn : Str)

def count : Nat := s.backoffCounts[fqn]?.getD 0

def remaining : Nat := s.skipRemaining[fqn]?.getD 0

def record (result : Option Outcome) : State := { s with log := ⟨fqn, result⟩ :: s.log }

def evict : State :=
  { s with
    clients := s.clients.erase fqn
    backoffCounts := s.backoffCounts.erase fqn
    skipRemaining := s.skipRemaining.erase fqn }

def backOff : State :=
  let count := if s.count fqn < 100 then s.count fqn + 1 else s.count fqn
  { s with
    backoffCounts := s.backoffCounts.insert fqn count
    skipRemaining := s.skipRemaining.insert fqn (min (2 ^ min (count - 1) 3) 8) }

def reset : State :=
  { s with
    backoffCounts := s.backoffCounts.erase fqn
    skipRemaining := s.skipRemaining.erase fqn }

def skip : State :=
  { s with skipRemaining := s.skipRemaining.insert fqn (s.remaining fqn - 1) }.record fqn none

/-- An existing client is used again, so that only a new one can fail to be made. -/
def outcome (answer : Answer) : Outcome :=
  if fqn ∉ s.clients ∧ answer.factoryThrows = true then .failed
  else
    match answer.reply with
    | .noService | .exception => .failed
    | .noParameters | .noEntityId | .rejected => .early
    | .stored => .stored

def connect (answer : Answer) : State :=
  if fqn ∉ s.clients ∧ answer.factoryThrows = true then s
  else { s with clients := s.clients.insert fqn }

def settle (outcome : Outcome) : State :=
  match outcome with
  | .failed => s.backOff fqn
  | .early => s
  | .stored => s.reset fqn

def pollNode (answer : Answer) : State :=
  ((s.connect fqn answer).settle fqn (s.outcome fqn answer)).record fqn (s.outcome fqn answer)

end State

section Cycle

variable (setup : Setup)

def evictStaleClients (s : State) : State :=
  (s.clients.toList.filter (· ∉ setup.pollTargets)).foldl State.evict s

def visitTargets (answers : Str → Answer) : List Str → Nat → State → State
  | [], _, s => s
  | fqn :: rest, elapsed, s =>
      if setup.budget ≤ elapsed then s
      else if 0 < s.remaining fqn then visitTargets answers rest elapsed (s.skip fqn)
      else visitTargets answers rest (elapsed + (answers fqn).duration)
        (s.pollNode fqn (answers fqn))

def pollCycle (s : State) (answers : Str → Answer) : State :=
  let s := visitTargets setup answers (setup.targets.rotate s.startOffset) 0
    (evictStaleClients setup s)
  { s with startOffset := (s.startOffset + 1) % setup.targets.length }

def run (s : State) (cycles : List (Str → Answer)) : State := cycles.foldl (pollCycle setup) s

end Cycle

/-! ## What the log says -/

def failuresInRow (fqn : Str) : List Visit → Nat
  | [] => 0
  | visit :: earlier =>
      if visit.target ≠ fqn then failuresInRow fqn earlier
      else
        match visit.result with
        | none => failuresInRow fqn earlier
        | some .failed => failuresInRow fqn earlier + 1
        | some _ => 0

def skipsSince (fqn : Str) : List Visit → Nat
  | [] => 0
  | visit :: earlier =>
      if visit.target ≠ fqn then skipsSince fqn earlier
      else
        match visit.result with
        | none => skipsSince fqn earlier + 1
        | some _ => 0

def allowance (failures : Nat) : Nat := if failures = 0 then 0 else min (2 ^ (failures - 1)) 8

/-- After its `j`-th failure in a row a target is skipped for exactly `min (2^(j-1)) 8` visits. -/
def BacksOff : List Visit → Prop
  | [] => True
  | visit :: earlier =>
      (visit.result = none ↔
        skipsSince visit.target earlier < allowance (failuresInRow visit.target earlier)) ∧
      BacksOff earlier

/-- No poll that follows a failed one of the same target returns early. -/
def NoEarlyReturn : List Visit → Prop
  | [] => True
  | visit :: earlier =>
      (visit.result = some .early → failuresInRow visit.target earlier = 0) ∧
      NoEarlyReturn earlier

def polls (fqn : Str) (log : List Visit) : Nat :=
  log.countP fun visit => visit.target = fqn && visit.result.isSome

/-! ## Backoff -/

def Agrees (s : State) : Prop :=
  ∀ fqn, s.count fqn = min (failuresInRow fqn s.log) 100 ∧
    s.remaining fqn + skipsSince fqn s.log = allowance (failuresInRow fqn s.log)

structure Tracks (setup : Setup) (s : State) : Prop where
  clients : ∀ client ∈ s.clients, client ∈ setup.targets
  agrees : NoEarlyReturn s.log → Agrees s ∧ BacksOff s.log

section Counters

variable {s : State} {fqn other : Str}

theorem getD_insert (m : OMap Str Nat) (value : Nat) :
    (m.insert fqn value)[other]?.getD 0 = if fqn = other then value else m[other]?.getD 0 := by
  split
  · rename_i heq
    rw [heq, Std.ExtTreeMap.getElem?_insert_self, Option.getD_some]
  · rename_i hne
    rw [OMap.getElem?_insert_of_ne hne]

theorem getD_erase (m : OMap Str Nat) :
    (m.erase fqn)[other]?.getD 0 = if fqn = other then 0 else m[other]?.getD 0 := by
  split
  · rename_i heq
    rw [heq, Std.ExtTreeMap.getElem?_erase_self, Option.getD_none]
  · rename_i hne
    rw [OMap.getElem?_erase_of_ne hne]

theorem remaining_skip : (s.skip fqn).remaining other =
    if fqn = other then s.remaining fqn - 1 else s.remaining other := getD_insert _ _

theorem count_backOff : (s.backOff fqn).count other = if fqn = other then
    (if s.count fqn < 100 then s.count fqn + 1 else s.count fqn) else s.count other :=
  getD_insert _ _

theorem remaining_backOff : (s.backOff fqn).remaining other = if fqn = other then
    min (2 ^ min ((if s.count fqn < 100 then s.count fqn + 1 else s.count fqn) - 1) 3) 8
    else s.remaining other := getD_insert _ _

theorem count_reset : (s.reset fqn).count other = if fqn = other then 0 else s.count other :=
  getD_erase _

theorem remaining_reset :
    (s.reset fqn).remaining other = if fqn = other then 0 else s.remaining other := getD_erase _

variable (s fqn) in
theorem connect_eq (answer : Answer) : ∃ clients, s.connect fqn answer = { s with clients } ∧
    ∀ client ∈ clients, client = fqn ∨ client ∈ s.clients := by
  unfold State.connect
  split
  · exact ⟨s.clients, rfl, fun _ h => .inr h⟩
  · exact ⟨_, rfl, fun _ h => OSet.mem_insert_iff.mp h⟩

theorem skip_eq_allowance (failures : Nat) :
    min (2 ^ min (min (failures + 1) 100 - 1) 3) 8 = allowance (failures + 1) := by
  rw [allowance, if_neg (Nat.succ_ne_zero _), Nat.add_sub_cancel]
  by_cases hsmall : failures < 3
  · interval_cases failures <;> rfl
  · have hpow : 2 ^ 3 ≤ 2 ^ failures := Nat.pow_le_pow_right (by decide) (by omega)
    have hmin : min (min (failures + 1) 100 - 1) 3 = 3 := by omega
    rw [hmin]
    omega

theorem agrees_skip (h : Agrees s) (hskip : 0 < s.remaining fqn) : Agrees (s.skip fqn) := by
  intro other
  obtain ⟨hcount, hremaining⟩ := h other
  refine ⟨?_, ?_⟩
  · change s.count other = min (failuresInRow other (⟨fqn, none⟩ :: s.log)) 100
    simpa [failuresInRow] using hcount
  · rw [remaining_skip]
    change _ + skipsSince other (⟨fqn, none⟩ :: s.log) =
      allowance (failuresInRow other (⟨fqn, none⟩ :: s.log))
    by_cases hother : fqn = other
    · subst hother
      simp only [skipsSince, failuresInRow, ne_eq, not_true_eq_false, if_false, if_true]
      omega
    · simpa [skipsSince, failuresInRow, hother] using hremaining

theorem agrees_poll (h : Agrees s) (hpoll : s.remaining fqn = 0) {outcome : Outcome}
    (hearly : outcome = .early → failuresInRow fqn s.log = 0) (clients : OSet Str) :
    Agrees (({ s with clients }.settle fqn outcome).record fqn outcome) := by
  have hbump : (if s.count fqn < 100 then s.count fqn + 1 else s.count fqn) =
      min (failuresInRow fqn s.log + 1) 100 := by
    rw [(h fqn).1]
    split <;> omega
  intro other
  obtain ⟨hcount, hremaining⟩ := h other
  suffices hafter : ({ s with clients }.settle fqn outcome).count other =
        min (failuresInRow other (⟨fqn, some outcome⟩ :: s.log)) 100 ∧
      ({ s with clients }.settle fqn outcome).remaining other +
          skipsSince other (⟨fqn, some outcome⟩ :: s.log) =
        allowance (failuresInRow other (⟨fqn, some outcome⟩ :: s.log)) by
    cases outcome <;> exact hafter
  by_cases hother : fqn = other
  · subst hother
    cases outcome with
    | failed =>
      rw [State.settle, count_backOff, remaining_backOff]
      simp only [failuresInRow, skipsSince, ne_eq, not_true_eq_false, if_false, if_true]
      rw [← skip_eq_allowance, ← hbump]
      exact ⟨rfl, rfl⟩
    | early =>
      rw [hearly rfl] at hcount
      simp only [failuresInRow, skipsSince, ne_eq, not_true_eq_false, if_false]
      exact ⟨hcount, hpoll⟩
    | stored =>
      rw [State.settle, count_reset, remaining_reset]
      simp [failuresInRow, skipsSince, allowance]
  · simp only [failuresInRow, skipsSince, ne_eq, hother, not_false_eq_true, if_true]
    cases outcome with
    | failed =>
      rw [State.settle, count_backOff, remaining_backOff, if_neg hother, if_neg hother]
      exact ⟨hcount, hremaining⟩
    | early => exact ⟨hcount, hremaining⟩
    | stored =>
      rw [State.settle, count_reset, remaining_reset, if_neg hother, if_neg hother]
      exact ⟨hcount, hremaining⟩

theorem settle_log (outcome : Outcome) : (s.settle fqn outcome).log = s.log := by
  cases outcome <;> rfl

theorem settle_clients (outcome : Outcome) : (s.settle fqn outcome).clients = s.clients := by
  cases outcome <;> rfl

variable (s fqn) in
theorem pollNode_eq (answer : Answer) : ∃ clients,
    s.pollNode fqn answer = ({ s with clients }.settle fqn (s.outcome fqn answer)).record fqn
      (s.outcome fqn answer) ∧
    ∀ client ∈ clients, client = fqn ∨ client ∈ s.clients := by
  obtain ⟨clients, heq, hmem⟩ := connect_eq s fqn answer
  exact ⟨clients, by rw [State.pollNode, heq], hmem⟩

end Counters

section Runs

variable {setup : Setup} {s : State} {fqn : Str}

theorem Tracks.skip (h : Tracks setup s) (hskip : 0 < s.remaining fqn) :
    Tracks setup (s.skip fqn) where
  clients := h.clients
  agrees hlog := by
    obtain ⟨hagrees, hbacks⟩ := h.agrees hlog.2
    refine ⟨agrees_skip hagrees hskip, ⟨fun _ => ?_, fun _ => rfl⟩, hbacks⟩
    have hsum := (hagrees fqn).2
    change skipsSince fqn s.log < allowance (failuresInRow fqn s.log)
    omega

theorem Tracks.pollNode (h : Tracks setup s) (hfqn : fqn ∈ setup.targets)
    (hpoll : s.remaining fqn = 0) (answer : Answer) : Tracks setup (s.pollNode fqn answer) := by
  obtain ⟨clients, heq, hclients⟩ := pollNode_eq s fqn answer
  rw [heq]
  generalize s.outcome fqn answer = outcome
  have hlog : (({ s with clients }.settle fqn outcome).record fqn outcome).log =
      ⟨fqn, some outcome⟩ :: s.log := congrArg (_ :: ·) (settle_log outcome)
  refine ⟨fun client hclient => ?_, fun hcalm => ?_⟩
  · change client ∈ ({ s with clients }.settle fqn outcome).clients at hclient
    rw [settle_clients] at hclient
    rcases hclients client hclient with rfl | hold
    · exact hfqn
    · exact h.clients client hold
  · rw [hlog] at hcalm ⊢
    obtain ⟨hagrees, hbacks⟩ := h.agrees hcalm.2
    refine ⟨agrees_poll hagrees hpoll (fun hearly => hcalm.1 (congrArg some hearly)) clients,
      ⟨fun hnone => (Option.some_ne_none _ hnone).elim, fun hlt => ?_⟩, hbacks⟩
    have hsum := (hagrees fqn).2
    change skipsSince fqn s.log < allowance (failuresInRow fqn s.log) at hlt
    omega

theorem visitTargets_induction {P : State → Prop} {order : List Str}
    (hskip : ∀ s, ∀ fqn ∈ order, P s → 0 < s.remaining fqn → P (s.skip fqn))
    (hpoll : ∀ s, ∀ fqn ∈ order, P s → s.remaining fqn = 0 →
      ∀ answer, P (s.pollNode fqn answer)) (answers : Str → Answer) (elapsed : Nat) (h : P s) :
    P (visitTargets setup answers order elapsed s) := by
  induction order generalizing elapsed s with
  | nil => exact h
  | cons fqn rest ih =>
    have ih {s : State} (elapsed : Nat) : P s → P (visitTargets setup answers rest elapsed s) :=
      ih (fun s other hmem => hskip s other (.tail _ hmem))
        (fun s other hmem => hpoll s other (.tail _ hmem)) elapsed
    rw [visitTargets]
    split
    · exact h
    · split
      · exact ih _ (hskip s fqn (.head _) h ‹_›)
      · exact ih _ (hpoll s fqn (.head _) h (by omega) _)

theorem evictStaleClients_of_introspected (hsetup : setup.introspected = true)
    (hclients : ∀ client ∈ s.clients, client ∈ setup.targets) : evictStaleClients setup s = s := by
  have hnone : s.clients.toList.filter (· ∉ setup.pollTargets) = [] := by
    rw [List.filter_eq_nil_iff]
    intro client hclient
    simpa [Setup.pollTargets, hsetup] using hclients client (Std.ExtTreeSet.mem_toList.mp hclient)
  rw [evictStaleClients, hnone, List.foldl_nil]

theorem Tracks.pollCycle (hsetup : setup.introspected = true) (h : Tracks setup s)
    (answers : Str → Answer) : Tracks setup (pollCycle setup s answers) := by
  have hvisited : Tracks setup (visitTargets setup answers (setup.targets.rotate s.startOffset) 0
      s) := visitTargets_induction (fun _ _ _ => Tracks.skip)
    (fun _ _ hfqn h => h.pollNode (List.mem_rotate.mp hfqn)) answers 0 h
  rw [ParamBeacon.pollCycle, evictStaleClients_of_introspected hsetup h.clients]
  exact ⟨hvisited.clients, hvisited.agrees⟩

theorem tracks_run (hsetup : setup.introspected = true) (cycles : List (Str → Answer)) :
    Tracks setup (run setup {} cycles) := by
  refine List.foldlRecOn _ _ ?_ fun s h answers _ => Tracks.pollCycle hsetup h answers
  exact ⟨by simp, fun _ => ⟨fun fqn => by simp [State.count, State.remaining, failuresInRow,
    skipsSince, allowance], trivial⟩⟩

end Runs

/-! ## Fairness -/

/-- On the way from `s` to `t` the target is polled, or it has `drop` skips less to wait for. -/
def Nears (fqn : Str) (drop : Nat) (s t : State) : Prop :=
  polls fqn s.log < polls fqn t.log ∨
    polls fqn s.log ≤ polls fqn t.log ∧ t.remaining fqn + drop ≤ s.remaining fqn

section Fairness

variable {setup : Setup} {s t u : State} {fqn other : Str}

theorem Nears.polls_le {drop : Nat} (h : Nears fqn drop s t) :
    polls fqn s.log ≤ polls fqn t.log := h.elim Nat.le_of_lt And.left

theorem Nears.refl : Nears fqn 0 s s := .inr ⟨le_rfl, le_rfl⟩

theorem Nears.trans {first second : Nat} (h : Nears fqn first s t) (h' : Nears fqn second t u) :
    Nears fqn (first + second) s u := by
  rcases h with hpolled | ⟨hle, hfirst⟩
  · exact .inl (hpolled.trans_le h'.polls_le)
  · rcases h' with hpolled | ⟨hle', hsecond⟩
    · exact .inl (hle.trans_lt hpolled)
    · exact .inr ⟨hle.trans hle', by omega⟩

theorem nears_skip (hskip : 0 < s.remaining other) :
    Nears fqn (if other = fqn then 1 else 0) s (s.skip other) := by
  refine .inr ⟨List.Sublist.countP_le (List.sublist_cons_self _ _), ?_⟩
  rw [remaining_skip]
  split
  · subst other
    omega
  · exact le_rfl

theorem remaining_settle_of_ne (hother : other ≠ fqn) (outcome : Outcome) :
    (s.settle other outcome).remaining fqn = s.remaining fqn := by
  cases outcome with
  | failed => rw [State.settle, remaining_backOff, if_neg hother]
  | early => rfl
  | stored => rw [State.settle, remaining_reset, if_neg hother]

theorem nears_pollNode (answer : Answer) :
    Nears fqn (if other = fqn then 1 else 0) s (s.pollNode other answer) := by
  obtain ⟨clients, heq, -⟩ := pollNode_eq s other answer
  rw [heq]
  generalize s.outcome other answer = outcome
  have hlog : (({ s with clients }.settle other outcome).record other outcome).log =
      ⟨other, some outcome⟩ :: s.log := congrArg (_ :: ·) (settle_log outcome)
  by_cases hother : other = fqn
  · refine .inl ?_
    rw [hlog, polls, polls, List.countP_cons_of_pos (by simp [hother])]
    exact Nat.lt_succ_self _
  · refine .inr ⟨?_, ?_⟩
    · rw [hlog]
      exact List.Sublist.countP_le (List.sublist_cons_self _ _)
    · rw [if_neg hother]
      exact (remaining_settle_of_ne hother outcome).le

theorem Nears.weaken {drop : Nat} (h : Nears fqn drop s t) : Nears fqn 0 s t :=
  h.imp_right fun h => ⟨h.1, (Nat.le_add_right _ _).trans h.2⟩

variable (answers : Str → Answer)

theorem nears_visitTargets (order : List Str) (elapsed : Nat) :
    Nears fqn 0 s (visitTargets setup answers order elapsed s) :=
  visitTargets_induction (fun _ _ _ h hskip => h.trans (nears_skip hskip).weaken)
    (fun _ _ _ h _ answer => h.trans (nears_pollNode answer).weaken) answers elapsed .refl

theorem nears_visitTargets_first (rest : List Str) :
    Nears fqn 1 s (visitTargets setup answers (fqn :: rest) 0 s) := by
  have hpositive := setup.positive
  rw [visitTargets, if_neg (by omega)]
  split
  · have hskip : Nears fqn _ s (s.skip fqn) := nears_skip ‹_›
    rw [if_pos rfl] at hskip
    exact hskip.trans (nears_visitTargets ..)
  · have hpoll : Nears fqn _ s (s.pollNode fqn (answers fqn)) := nears_pollNode _
    rw [if_pos rfl] at hpoll
    exact hpoll.trans (nears_visitTargets ..)

theorem startOffset_visitTargets (order : List Str) (elapsed : Nat) :
    (visitTargets setup answers order elapsed s).startOffset = s.startOffset := by
  refine visitTargets_induction (P := fun t => t.startOffset = s.startOffset)
    (fun _ _ _ h _ => h) (fun t fqn _ h _ answer => ?_) answers elapsed rfl
  obtain ⟨clients, heq, -⟩ := pollNode_eq t fqn answer
  rw [heq, ← h]
  cases t.outcome fqn answer <;> rfl

theorem evictStaleClients_induction {P : State → Prop} (hevict : ∀ s fqn, P s → P (s.evict fqn))
    (h : P s) : P (evictStaleClients setup s) :=
  List.foldlRecOn _ _ h fun s h fqn _ => hevict s fqn h

theorem remaining_evict_le : (s.evict other).remaining fqn ≤ s.remaining fqn := by
  change (s.skipRemaining.erase other)[fqn]?.getD 0 ≤ s.skipRemaining[fqn]?.getD 0
  rw [getD_erase]
  split
  · exact Nat.zero_le _
  · exact le_rfl

theorem nears_evict : Nears fqn 0 s (s.evict other) := .inr ⟨le_rfl, remaining_evict_le⟩

theorem nears_evictStaleClients : Nears fqn 0 s (evictStaleClients setup s) :=
  evictStaleClients_induction (fun _ _ h => h.trans nears_evict) .refl

theorem startOffset_pollCycle :
    (pollCycle setup s answers).startOffset = (s.startOffset + 1) % setup.targets.length := by
  have hevict : (evictStaleClients setup s).startOffset = s.startOffset :=
    evictStaleClients_induction (P := fun t => t.startOffset = s.startOffset) (fun _ _ h => h) rfl
  rw [pollCycle]
  simp only [startOffset_visitTargets, hevict]

theorem nears_pollCycle : Nears fqn 0 s (pollCycle setup s answers) :=
  nears_evictStaleClients.trans (nears_visitTargets answers _ 0)

theorem nears_pollCycle_first
    (hfirst : setup.targets[s.startOffset % setup.targets.length]? = some fqn) :
    Nears fqn 1 s (pollCycle setup s answers) := by
  obtain ⟨rest, hrest⟩ : ∃ rest, setup.targets.rotate s.startOffset = fqn :: rest := by
    rw [← List.head?_eq_some_iff, ← List.rotate_mod, List.head?_rotate]
    · exact hfirst
    · exact Nat.mod_lt _ (List.length_pos_of_ne_nil setup.nonempty)
  have hvisited : Nears fqn 1 _ (visitTargets setup answers (fqn :: rest) 0
      (evictStaleClients setup s)) := nears_visitTargets_first answers rest
  rw [← hrest] at hvisited
  have hcycle := nears_evictStaleClients.trans hvisited
  rw [Nat.zero_add] at hcycle
  exact hcycle

theorem nears_run (cycles : List (Str → Answer)) : Nears fqn 0 s (run setup s cycles) :=
  List.foldlRecOn _ _ .refl fun _ h answers _ => h.trans (nears_pollCycle answers)

theorem run_append (before cycles : List (Str → Answer)) :
    run setup s (before ++ cycles) = run setup (run setup s before) cycles := List.foldl_append

theorem startOffset_run (cycles : List (Str → Answer)) :
    (run setup s cycles).startOffset % setup.targets.length =
      (s.startOffset + cycles.length) % setup.targets.length := by
  induction cycles generalizing s with
  | nil => rfl
  | cons answers rest ih =>
    rw [run, List.foldl_cons, ← run, ih, startOffset_pollCycle, List.length_cons,
      Nat.mod_add_mod, Nat.add_right_comm, Nat.add_assoc s.startOffset]

theorem exists_turn (offset : Nat) {index length : Nat} (hindex : index < length) :
    ∃ turn < length, (offset + turn) % length = index := by
  refine ⟨(index + (length - offset % length)) % length, Nat.mod_lt _ (by omega), ?_⟩
  have hlt : offset % length < length := Nat.mod_lt _ (by omega)
  rw [Nat.add_mod_mod, ← Nat.mod_add_mod, ← Nat.add_left_comm, Nat.add_sub_of_le hlt.le,
    Nat.add_mod_right, Nat.mod_eq_of_lt hindex]

theorem nears_run_turn (hfqn : fqn ∈ setup.targets) {cycles : List (Str → Answer)}
    (hlength : cycles.length = setup.targets.length) : Nears fqn 1 s (run setup s cycles) := by
  obtain ⟨index, hindex, hget⟩ := List.mem_iff_getElem.mp hfqn
  obtain ⟨turn, hturn, hmod⟩ := exists_turn s.startOffset hindex
  have hsplit : cycles = cycles.take turn ++ cycles[turn] :: cycles.drop (turn + 1) := by
    rw [List.getElem_cons_drop, List.take_append_drop]
  have hrun : run setup s cycles = run setup (pollCycle setup (run setup s (cycles.take turn))
      cycles[turn]) (cycles.drop (turn + 1)) := by
    conv_lhs => rw [hsplit, run_append]
    rfl
  have hfirst : setup.targets[(run setup s (cycles.take turn)).startOffset %
      setup.targets.length]? = some fqn := by
    rw [startOffset_run, List.length_take_of_le (by omega), hmod, List.getElem?_eq_getElem hindex,
      hget]
  rw [hrun]
  exact ((nears_run _).trans (nears_pollCycle_first _ hfirst)).trans (nears_run _)

theorem nears_run_turns (hfqn : fqn ∈ setup.targets) (turns : Nat) (cycles : List (Str → Answer))
    (hlength : cycles.length = turns * setup.targets.length) :
    Nears fqn turns s (run setup s cycles) := by
  induction turns generalizing s cycles with
  | zero => exact nears_run cycles
  | succ turns ih =>
    rw [Nat.succ_mul, Nat.add_comm] at hlength
    have hfirst : Nears fqn 1 s (run setup s (cycles.take setup.targets.length)) :=
      nears_run_turn hfqn (List.length_take_of_le (by omega))
    have hrest := @ih (run setup s (cycles.take setup.targets.length))
      (cycles.drop setup.targets.length) (by rw [List.length_drop]; omega)
    have hrun := hfirst.trans hrest
    rw [← run_append, List.take_append_drop, Nat.add_comm] at hrun
    exact hrun

theorem remaining_settle_le (h : s.remaining fqn ≤ 8) (outcome : Outcome) :
    (s.settle other outcome).remaining fqn ≤ 8 := by
  cases outcome with
  | failed =>
    rw [State.settle, remaining_backOff]
    split
    · exact Nat.min_le_right _ _
    · exact h
  | early => exact h
  | stored =>
    rw [State.settle, remaining_reset]
    split
    · exact Nat.zero_le _
    · exact h

theorem remaining_run_le (cycles : List (Str → Answer)) :
    (run setup {} cycles).remaining fqn ≤ 8 := by
  refine List.foldlRecOn (motive := fun s : State => s.remaining fqn ≤ 8) _ _
    (by simp [State.remaining]) fun s h answers _ => ?_
  have hevicted : (evictStaleClients setup s).remaining fqn ≤ 8 :=
    evictStaleClients_induction (P := fun t => t.remaining fqn ≤ 8)
      (fun _ _ h => remaining_evict_le.trans h) h
  refine visitTargets_induction (P := fun t => t.remaining fqn ≤ 8)
    (fun t other _ h _ => ?_) (fun t other _ h _ answer => ?_) answers 0 hevicted
  · rw [remaining_skip]
    split
    · subst other
      omega
    · exact h
  · obtain ⟨clients, heq, -⟩ := pollNode_eq t other answer
    rw [heq]
    exact remaining_settle_le (s := { t with clients }) h _

end Fairness

section

variable (setup : Setup) (cycles : List (Str → Answer))

/-- Every target is polled again and again. The backoff is as long as it should be if the targets
are given by introspection and no target returns early after a failure. -/
theorem targets_polled_and_backed_off :
    (∀ window, window.length = 9 * setup.targets.length → ∀ fqn ∈ setup.targets,
        polls fqn (run setup {} cycles).log < polls fqn (run setup {} (cycles ++ window)).log) ∧
      (setup.introspected = true → NoEarlyReturn (run setup {} cycles).log →
        BacksOff (run setup {} cycles).log) := by
  refine ⟨fun window hlength fqn hfqn => ?_, fun hsetup hcalm => ?_⟩
  · have hbound : (run setup {} cycles).remaining fqn ≤ 8 := remaining_run_le cycles
    have hnears : Nears fqn 9 (run setup {} cycles) (run setup {} (cycles ++ window)) := by
      rw [run_append]
      exact nears_run_turns hfqn 9 window hlength
    -- Nine skips less than at most eight are not possible.
    rcases hnears with hpolled | ⟨-, hdrop⟩
    · exact hpolled
    · omega
  · exact ((tracks_run hsetup cycles).agrees hcalm).2

end

def oneTarget (introspected : Bool) : Setup where
  targets := [str "/a"]
  introspected := introspected
  budget := 1
  nonempty := by simp
  nodup := by simp
  positive := Nat.one_pos

def always (reply : Reply) : Str → Answer := fun _ => { reply }

theorem targets_polled_and_backed_off_of_noService :
    BacksOff (run (oneTarget true) {} [always .noService, always .noService]).log :=
  (targets_polled_and_backed_off (oneTarget true) [always .noService, always .noService]).2 rfl
    (by
      have hlog : (run (oneTarget true) {} [always .noService, always .noService]).log =
          [⟨str "/a", none⟩, ⟨str "/a", some .failed⟩] := by decide
      rw [hlog]
      exact ⟨by decide, by decide, trivial⟩)

/-- A target of the ROS graph is not skipped after a failure, since its client is evicted. A target
that is given, and that fails once more after a poll without parameters, is skipped twice. -/
theorem failed_target_not_backed_off :
    ¬ BacksOff (run (oneTarget false) {} [always .noService, always .noService]).log ∧
      ¬ BacksOff (run (oneTarget true) {} ([.noService, .stored, .noParameters, .noService,
        .stored, .stored].map always)).log := by
  have hgraph : (run (oneTarget false) {} [always .noService, always .noService]).log =
      [⟨str "/a", some .failed⟩, ⟨str "/a", some .failed⟩] := by decide
  have hgiven : (run (oneTarget true) {} ([.noService, .stored, .noParameters, .noService,
      .stored, .stored].map always)).log = [⟨str "/a", none⟩, ⟨str "/a", none⟩,
      ⟨str "/a", some .failed⟩, ⟨str "/a", some .early⟩, ⟨str "/a", none⟩,
      ⟨str "/a", some .failed⟩] := by decide
  rw [hgraph, hgiven]
  exact ⟨fun h => absurd (h.1.mpr (by decide)) (by decide),
    fun h => absurd (h.1.mp rfl) (by decide)⟩

end Medkit.Introspection.ParamBeacon
