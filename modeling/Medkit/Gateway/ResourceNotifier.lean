import Medkit.Lib.Bytes
import Medkit.Lib.Machine
import Medkit.Lib.OrderedMap

/-! The hub that hands resource changes to subscribers. Producers append to a bounded queue, a
worker thread takes the whole queue at a time and calls the subscribers it finds then, and
shutdown waits for the producers under way and for the worker. A step is what one thread does
between two moments at which another can act. -/
namespace Medkit.Gateway.Notifier

open Lib Std

inductive ChangeType
  | created
  | updated
  | deleted
  deriving DecidableEq

structure ResourceChange where
  collection : Str
  entityId : Str
  resourcePath : Str
  value : Str := []
  changeType : ChangeType := .updated
  timestamp : Int := 0
  deriving DecidableEq

structure NotifierFilter where
  collection : Str := []
  entityId : Str := []
  resourcePath : Str := []
  deriving DecidableEq

/-- An empty field of a filter matches everything. -/
def matchesFilter (filter : NotifierFilter) (change : ResourceChange) : Bool :=
  (filter.collection = [] || filter.collection = change.collection) &&
    (filter.entityId = [] || filter.entityId = change.entityId) &&
    (filter.resourcePath = [] || filter.resourcePath = change.resourcePath)

/-- A change in the queue. The place it took in the order of acceptance and the subscriptions
of that moment are kept for the record only. -/
structure Accepted where
  change : ResourceChange
  ticket : Nat
  registered : OMap Nat NotifierFilter

structure Delivery where
  ticket : Nat
  change : ResourceChange
  subscription : Nat
  filter : NotifierFilter

/-- A change the worker is through with, with the subscribers it used and the subscriptions at
the moment it was through. -/
structure Handled where
  accepted : Accepted
  snapshot : List (Nat × NotifierFilter)
  registered : OMap Nat NotifierFilter

inductive NotifyCall
  | entered (change : ResourceChange)
  /-- Past the check of the shutdown flag. -/
  | passed (change : ResourceChange)
  | leaving

inductive Worker
  | waiting
  | drained (batch : List Accepted)
  /-- The first change of the batch goes to the subscriber at `next`. -/
  | delivering (batch : List Accepted) (snapshot : List (Nat × NotifierFilter)) (next : Nat)
  | exited

inductive Shutdown
  | notCalled
  | draining
  | joining
  | returned
  deriving DecidableEq

structure State where
  subscriptions : OMap Nat NotifierFilter := ∅
  nextId : Nat := 1
  queue : List Accepted := []
  overflowDropCount : Nat := 0
  shutdownFlag : Bool := false
  activeNotifyCount : Nat := 0
  notifying : List NotifyCall := []
  worker : Worker := .waiting
  shutdown : Shutdown := .notCalled
  /-- How many changes have been accepted, and what became of them. -/
  accepted : Nat := 0
  dropped : List Accepted := []
  handled : List Handled := []
  delivered : List Delivery := []

def State.subscribe (s : State) (filter : NotifierFilter) : State :=
  { s with subscriptions := s.subscriptions.insert s.nextId filter, nextId := s.nextId + 1 }

def State.unsubscribe (s : State) (id : Nat) : State :=
  { s with subscriptions := s.subscriptions.erase id }

/-- A call of `notify` counts itself before it looks at the flag. -/
def State.enter (s : State) (change : ResourceChange) : State :=
  { s with
    activeNotifyCount := s.activeNotifyCount + 1
    notifying := s.notifying ++ [.entered change] }

/-- Append under the queue lock; the oldest entries beyond the limit go. -/
def State.push (maxQueueSize : Nat) (s : State) (change : ResourceChange) : State :=
  let queue := s.queue ++ [⟨change, s.accepted, s.subscriptions⟩]
  let dropCount := queue.length - maxQueueSize
  { s with
    queue := queue.drop dropCount
    overflowDropCount := s.overflowDropCount + dropCount
    accepted := s.accepted + 1
    dropped := s.dropped ++ queue.take dropCount }

/-- The next step of the call of `notify` at the given place. -/
def State.notify (maxQueueSize : Nat) (s : State) (place : Nat) : State :=
  match s.notifying[place]? with
  | some (.entered change) =>
      { s with
        notifying := s.notifying.set place (if s.shutdownFlag then .leaving else .passed change) }
  | some (.passed change) =>
      { s.push maxQueueSize change with notifying := s.notifying.set place .leaving }
  | some .leaving =>
      { s with
        notifying := s.notifying.eraseIdx place
        activeNotifyCount := s.activeNotifyCount - 1 }
  | none => s

/-- The wait of the worker ends with changes in the queue or the flag set. -/
def State.drain (s : State) : State :=
  if s.queue = [] then
    if s.shutdownFlag then { s with worker := .exited } else s
  else { s with worker := .drained s.queue, queue := [] }

/-- The callback of one subscriber, which may throw: the worker goes on. -/
def State.deliver (s : State) (current : Accepted) (batch : List Accepted)
    (snapshot : List (Nat × NotifierFilter)) (next : Nat) : State :=
  match snapshot[next]? with
  | some (id, filter) =>
      { s with
        worker := .delivering (current :: batch) snapshot (next + 1)
        delivered :=
          if matchesFilter filter current.change then
            s.delivered ++ [⟨current.ticket, current.change, id, filter⟩]
          else s.delivered }
  | none =>
      { s with
        worker := .delivering batch snapshot 0
        handled := s.handled ++ [⟨current, snapshot, s.subscriptions⟩] }

def State.workerLoop (s : State) : State :=
  match s.worker with
  | .waiting => s.drain
  | .drained batch => { s with worker := .delivering batch s.subscriptions.toList 0 }
  | .delivering [] _ _ => { s with worker := .waiting }
  | .delivering (current :: batch) snapshot next => s.deliver current batch snapshot next
  | .exited => s

/-- The call of `shutdown` that sets the flag. Any other call returns at once. -/
def State.stop (s : State) : State :=
  match s.shutdown with
  | .notCalled => { s with shutdownFlag := true, shutdown := .draining }
  | .draining => if s.activeNotifyCount = 0 then { s with shutdown := .joining } else s
  | .joining =>
      match s.worker with
      | .exited => { s with shutdown := .returned }
      | _ => s
  | .returned => s

inductive Op
  | subscribe (filter : NotifierFilter)
  | unsubscribe (id : Nat)
  | enter (change : ResourceChange)
  | notify (place : Nat)
  | worker
  | shutdown

def State.next (maxQueueSize : Nat) (s : State) : Op → State
  | .subscribe filter => s.subscribe filter
  | .unsubscribe id => s.unsubscribe id
  | .enter change => s.enter change
  | .notify place => s.notify maxQueueSize place
  | .worker => s.workerLoop
  | .shutdown => s.stop

def notifierMachine (maxQueueSize : Nat) : Machine State Op Unit where
  init := {}
  step s op := (s.next maxQueueSize op, ())

/-! ## Where the accepted changes are -/

def Worker.batch : Worker → List Accepted
  | .drained batch => batch
  | .delivering batch _ _ => batch
  | _ => []

def deliveries (a : Accepted) (snapshot : List (Nat × NotifierFilter)) : List Delivery :=
  (snapshot.filter fun entry => matchesFilter entry.2 a.change).map fun entry =>
    ⟨a.ticket, a.change, entry.1, entry.2⟩

def Worker.begun : Worker → List Delivery
  | .delivering (current :: _) snapshot next => deliveries current (snapshot.take next)
  | _ => []

structure Inv (maxQueueSize : Nat) (s : State) : Prop where
  bound : s.queue.length ≤ maxQueueSize
  counted : s.dropped.length = s.overflowDropCount
  placed : ((s.dropped ++ s.handled.map Handled.accepted ++ s.worker.batch ++ s.queue).map
    Accepted.ticket).Perm (List.range s.accepted)
  ordered : ((s.handled.map Handled.accepted ++ s.worker.batch ++ s.queue).map
    Accepted.ticket).Pairwise (· < ·)
  ids : ∀ id ∈ s.subscriptions, id < s.nextId
  pastIds : ∀ a ∈ s.worker.batch ++ s.queue, ∀ id ∈ a.registered, id < s.nextId
  log : s.delivered = s.handled.flatMap (fun h => deliveries h.accepted h.snapshot) ++ s.worker.begun
  distinct : ∀ h ∈ s.handled, (h.snapshot.map Prod.fst).Nodup
  covered : ∀ h ∈ s.handled, ∀ id filter, h.accepted.registered[id]? = some filter →
    h.registered[id]? = some filter → (id, filter) ∈ h.snapshot
  current : ∀ batch snapshot next, s.worker = .delivering batch snapshot next →
    (snapshot.map Prod.fst).Nodup ∧ ∀ a ∈ batch, ∀ id filter, a.registered[id]? = some filter →
      s.subscriptions[id]? = some filter → (id, filter) ∈ snapshot

section Steps

variable {maxQueueSize : Nat} {s : State}

theorem inv_start : Inv maxQueueSize {} where
  bound := Nat.zero_le _
  counted := rfl
  placed := List.Perm.refl _
  ordered := List.Pairwise.nil
  ids := fun _ hid => absurd hid ExtTreeMap.not_mem_empty
  pastIds := fun _ ha => absurd ha List.not_mem_nil
  log := rfl
  distinct := fun _ hh => absurd hh List.not_mem_nil
  covered := fun _ hh => absurd hh List.not_mem_nil
  current := nofun

theorem lt_nextId_of_getElem? {m : OMap Nat NotifierFilter} {bound id : Nat} {filter : NotifierFilter}
    (h : ∀ id ∈ m, id < bound) (hid : m[id]? = some filter) : id < bound := by
  apply h
  rw [ExtTreeMap.mem_iff_isSome_getElem?, hid]
  rfl

section

variable (h : Inv maxQueueSize s)

include h

theorem Inv.subscribe (filter : NotifierFilter) : Inv maxQueueSize (s.subscribe filter) :=
  { h with
    ids := by
      intro id hid
      rcases ExtTreeMap.mem_insert.mp hid with heq | hid
      · rw [← LawfulEqCmp.eq_of_compare heq]
        exact Nat.lt_succ_self _
      · exact Nat.lt_succ_of_lt (h.ids id hid)
    pastIds := fun a ha id hid => Nat.lt_succ_of_lt (h.pastIds a ha id hid)
    current := by
      intro batch snapshot next hworker
      obtain ⟨hdistinct, hcover⟩ := h.current batch snapshot next hworker
      refine ⟨hdistinct, fun a ha id filter' hpast hnow => hcover a ha id filter' hpast ?_⟩
      have hbatch : a ∈ s.worker.batch := by
        rw [show s.worker = _ from hworker]
        exact ha
      have hlt := lt_nextId_of_getElem?
        (h.pastIds a (List.mem_append_left _ hbatch)) hpast
      rw [← hnow]
      exact (OMap.getElem?_insert_of_ne (Nat.ne_of_gt hlt) filter).symm }

theorem Inv.unsubscribe (gone : Nat) : Inv maxQueueSize (s.unsubscribe gone) :=
  { h with
    ids := fun id hid => h.ids id (ExtTreeMap.mem_erase.mp hid).2
    current := by
      intro batch snapshot next hworker
      obtain ⟨hdistinct, hcover⟩ := h.current batch snapshot next hworker
      refine ⟨hdistinct, fun a ha id filter hpast hnow => hcover a ha id filter hpast ?_⟩
      have herased : (s.subscriptions.erase gone)[id]? = some filter := hnow
      rw [ExtTreeMap.getElem?_erase] at herased
      split at herased
      · exact absurd herased nofun
      · exact herased }

theorem Inv.lt_accepted {a : Accepted}
    (ha : a ∈ s.dropped ++ s.handled.map Handled.accepted ++ s.worker.batch ++ s.queue) :
    a.ticket < s.accepted :=
  List.mem_range.mp (h.placed.mem_iff.mp (List.mem_map_of_mem ha))

theorem Inv.push (change : ResourceChange) : Inv maxQueueSize (s.push maxQueueSize change) := by
  unfold State.push
  set newest : Accepted := ⟨change, s.accepted, s.subscriptions⟩
  set dropCount := (s.queue ++ [newest]).length - maxQueueSize
  exact
    { h with
      bound := by
        rw [List.length_drop]
        omega
      counted := by
        show _ = s.overflowDropCount + dropCount
        rw [List.length_append, List.length_take, h.counted]
        omega
      placed := by
        have hsplit : (s.dropped ++ (s.queue ++ [newest]).take dropCount ++
            s.handled.map Handled.accepted ++ s.worker.batch ++
              (s.queue ++ [newest]).drop dropCount).Perm
            (s.dropped ++ s.handled.map Handled.accepted ++ s.worker.batch ++ s.queue ++ [newest]) := by
          have hswap : ((s.queue ++ [newest]).take dropCount ++
              (s.handled.map Handled.accepted ++ s.worker.batch)).Perm
              (s.handled.map Handled.accepted ++ s.worker.batch ++
                (s.queue ++ [newest]).take dropCount) := List.perm_append_comm
          have hmoved := (hswap.append_left s.dropped).append_right
            ((s.queue ++ [newest]).drop dropCount)
          simp only [List.append_assoc, List.take_append_drop] at hmoved ⊢
          exact hmoved
        refine (hsplit.map _).trans ?_
        rw [List.map_append, List.range_succ]
        exact h.placed.append_right _
      ordered := by
        have hall : ((s.handled.map Handled.accepted ++ s.worker.batch ++
            (s.queue ++ [newest])).map Accepted.ticket).Pairwise (· < ·) := by
          rw [← List.append_assoc, List.map_append, List.pairwise_append]
          refine ⟨h.ordered, List.pairwise_singleton _ _, ?_⟩
          intro ticket hticket newestTicket hnewest
          obtain ⟨a, ha, rfl⟩ := List.mem_map.mp hticket
          rw [List.mem_singleton.mp hnewest]
          apply h.lt_accepted
          simp only [List.mem_append] at ha ⊢
          tauto
        exact hall.sublist (((List.drop_sublist _ _).append_left _).map _)
      pastIds := by
        intro a ha
        rcases List.mem_append.mp ha with ha | ha
        · exact h.pastIds a (List.mem_append_left _ ha)
        · rcases List.mem_append.mp (List.mem_of_mem_drop ha) with ha | ha
          · exact h.pastIds a (List.mem_append_right _ ha)
          · rw [List.mem_singleton.mp ha]
            exact h.ids }

theorem Inv.notify (place : Nat) : Inv maxQueueSize (s.notify maxQueueSize place) := by
  unfold State.notify
  split
  · exact { h with }
  · next change _ => exact { h.push change with }
  · exact { h with }
  · exact h

theorem Inv.turn {worker : Worker} (hbatch : worker.batch = s.worker.batch)
    (hbegun : worker.begun = s.worker.begun)
    (hcurrent : ∀ batch snapshot next, worker = .delivering batch snapshot next →
      (snapshot.map Prod.fst).Nodup ∧ ∀ a ∈ batch, ∀ id filter, a.registered[id]? = some filter →
        s.subscriptions[id]? = some filter → (id, filter) ∈ snapshot) :
    Inv maxQueueSize { s with worker := worker } :=
  { h with
    placed := by
      rw [hbatch]
      exact h.placed
    ordered := by
      rw [hbatch]
      exact h.ordered
    pastIds := by
      rw [hbatch]
      exact h.pastIds
    log := by
      rw [hbegun]
      exact h.log
    current := hcurrent }

theorem Inv.drain (hworker : s.worker = .waiting) : Inv maxQueueSize s.drain := by
  have hbatch : s.worker.batch = [] := by rw [hworker]; rfl
  have hbegun : s.worker.begun = [] := by rw [hworker]; rfl
  unfold State.drain
  split
  · split
    · exact h.turn hbatch.symm hbegun.symm nofun
    · exact h
  · have hplaced := h.placed
    have hordered := h.ordered
    have hpast := h.pastIds
    have hlog := h.log
    rw [hbatch, List.append_nil] at hplaced hordered
    rw [hbatch, List.nil_append] at hpast
    rw [hbegun] at hlog
    exact
      { h with
        bound := Nat.zero_le _
        placed := by
          rw [List.append_nil]
          exact hplaced
        ordered := by
          rw [List.append_nil]
          exact hordered
        pastIds := by
          rw [List.append_nil]
          exact hpast
        log := hlog
        current := nofun }

end

theorem deliveries_append (a : Accepted) (snapshot more : List (Nat × NotifierFilter)) :
    deliveries a (snapshot ++ more) = deliveries a snapshot ++ deliveries a more := by
  simp [deliveries]

theorem Inv.deliver (h : Inv maxQueueSize s) {current : Accepted} {batch : List Accepted}
    {snapshot : List (Nat × NotifierFilter)} {next : Nat}
    (hworker : s.worker = .delivering (current :: batch) snapshot next) :
    Inv maxQueueSize (s.deliver current batch snapshot next) := by
  obtain ⟨hdistinct, hcover⟩ := h.current _ _ _ hworker
  have hplaced := h.placed
  have hordered := h.ordered
  have hpast := h.pastIds
  have hlog := h.log
  rw [hworker] at hplaced hordered hpast hlog
  unfold State.deliver
  split
  · rename_i id filter hentry
    have htake : snapshot.take (next + 1) = snapshot.take next ++ [(id, filter)] := by
      rw [List.take_add_one, hentry]
      rfl
    exact
      { h with
        placed := hplaced
        ordered := hordered
        pastIds := hpast
        log := by
          simp only [Worker.begun, htake, deliveries_append, ← List.append_assoc]
          simp only [Worker.begun] at hlog
          rw [← hlog]
          split
          · next hmatch => simp [deliveries, hmatch]
          · next hmatch => simp [deliveries, hmatch]
        current := by
          rintro _ _ _ ⟨⟩
          exact ⟨hdistinct, hcover⟩ }
  · rename_i hend
    have htake : snapshot.take next = snapshot :=
      List.take_of_length_le (List.getElem?_eq_none_iff.mp hend)
    exact
      { h with
        placed := by
          simp only [List.map_append, List.append_assoc] at hplaced ⊢
          exact hplaced
        ordered := by
          simp only [List.map_append, List.append_assoc] at hordered ⊢
          exact hordered
        pastIds := fun a ha => hpast a (List.mem_cons_of_mem _ ha)
        log := by
          have hbegun : (Worker.delivering batch snapshot 0).begun = [] := by
            cases batch <;> rfl
          simp only [Worker.begun, htake] at hlog
          rw [hbegun, hlog]
          simp
        distinct := List.forall_mem_append.mpr
          ⟨h.distinct, List.forall_mem_singleton.mpr hdistinct⟩
        covered := List.forall_mem_append.mpr
          ⟨h.covered, List.forall_mem_singleton.mpr (hcover current List.mem_cons_self)⟩
        current := by
          rintro _ _ _ ⟨⟩
          exact ⟨hdistinct, fun a ha => hcover a (List.mem_cons_of_mem _ ha)⟩ }

theorem Inv.workerLoop (h : Inv maxQueueSize s) : Inv maxQueueSize s.workerLoop := by
  unfold State.workerLoop
  split
  · next hworker => exact h.drain hworker
  · rename_i batch hworker
    refine h.turn (by rw [hworker]; rfl) (by rw [hworker]; cases batch <;> rfl) ?_
    rintro _ _ _ ⟨⟩
    exact ⟨OMap.nodup_keys_toList _, fun a ha id filter _ hnow =>
      ExtTreeMap.mem_toList_iff_getElem?_eq_some.mpr hnow⟩
  · next hworker => exact h.turn (by rw [hworker]; rfl) (by rw [hworker]; rfl) nofun
  · next hworker => exact h.deliver hworker
  · exact h

theorem Inv.stop (h : Inv maxQueueSize s) : Inv maxQueueSize s.stop := by
  unfold State.stop
  split
  · exact { h with }
  · split
    · exact { h with }
    · exact h
  · split
    · exact { h with }
    · exact h
  · exact h

theorem Inv.next (h : Inv maxQueueSize s) (op : Op) : Inv maxQueueSize (s.next maxQueueSize op) := by
  cases op with
  | subscribe filter => exact h.subscribe filter
  | unsubscribe id => exact h.unsubscribe id
  | enter change => exact { h with }
  | notify place => exact h.notify place
  | worker => exact h.workerLoop
  | shutdown => exact h.stop

theorem inv_reachable (hs : (notifierMachine maxQueueSize).Reachable s) : Inv maxQueueSize s :=
  hs.invariant (Inv maxQueueSize) inv_start fun _ op h => h.next op

end Steps

/-! ## Stopping -/

def Worker.isWaiting : Worker → Bool
  | .waiting => true
  | _ => false

def NotifyCall.isPassed : NotifyCall → Bool
  | .passed _ => true
  | _ => false

/-- The worker does not leave its loop while a call of `notify` that has passed the check of the
flag has yet to append its change. -/
def Patient (s : State) : Op → Prop
  | .worker => s.worker.isWaiting = true → s.queue = [] → s.shutdownFlag = true →
      ∀ call ∈ s.notifying, call.isPassed = false
  | _ => True

instance decidablePatient (s : State) : ∀ op, Decidable (Patient s op)
  | .worker => decidable_of_iff (s.worker.isWaiting = true → s.queue.isEmpty = true →
      s.shutdownFlag = true → ∀ call ∈ s.notifying, call.isPassed = false)
      (by rw [List.isEmpty_iff]; rfl)
  | .subscribe _ => isTrue trivial
  | .unsubscribe _ => isTrue trivial
  | .enter _ => isTrue trivial
  | .notify _ => isTrue trivial
  | .shutdown => isTrue trivial

structure Stopped (s : State) : Prop where
  exited : s.worker = .exited → s.shutdownFlag = true ∧ s.queue = [] ∧
    ∀ call ∈ s.notifying, call.isPassed = false
  returned : s.shutdown = .returned → s.worker = .exited

section Stopping

variable {maxQueueSize : Nat} {s : State}

theorem Stopped.notify (h : Stopped s) (place : Nat) : Stopped (s.notify maxQueueSize place) := by
  unfold State.notify
  split
  · refine ⟨fun hexited => ?_, h.returned⟩
    obtain ⟨hflag, hempty, hcalls⟩ := h.exited hexited
    refine ⟨hflag, hempty, fun call hcall => ?_⟩
    rcases List.mem_or_eq_of_mem_set hcall with hcall | rfl
    · exact hcalls call hcall
    · rw [hflag]
      rfl
  · rename_i change hcall
    refine ⟨fun hexited => ?_, h.returned⟩
    obtain ⟨_, _, hcalls⟩ := h.exited hexited
    exact absurd (hcalls _ (List.mem_of_getElem? hcall)) (by simp [NotifyCall.isPassed])
  · refine ⟨fun hexited => ?_, h.returned⟩
    obtain ⟨hflag, hempty, hcalls⟩ := h.exited hexited
    exact ⟨hflag, hempty, fun call hcall => hcalls call (List.mem_of_mem_eraseIdx hcall)⟩
  · exact h

theorem Stopped.enter (h : Stopped s) (change : ResourceChange) : Stopped (s.enter change) := by
  refine ⟨fun hexited => ?_, h.returned⟩
  obtain ⟨hflag, hempty, hcalls⟩ := h.exited hexited
  exact ⟨hflag, hempty, List.forall_mem_append.mpr ⟨hcalls, List.forall_mem_singleton.mpr rfl⟩⟩

theorem Stopped.workerLoop (h : Stopped s) (hop : Patient s .worker) : Stopped s.workerLoop := by
  have hturn {s' : State} (hworker : s.worker ≠ .exited) (hworker' : s'.worker ≠ .exited)
      (hshutdown : s'.shutdown = s.shutdown) : Stopped s' :=
    ⟨fun heq => absurd heq hworker', fun heq =>
      absurd (h.returned (hshutdown.symm.trans heq)) hworker⟩
  unfold State.workerLoop
  split
  · rename_i hworker
    unfold State.drain
    split
    · rename_i hempty
      split
      · rename_i hflag
        refine ⟨fun _ => ⟨hflag, hempty, hop ?_ hempty hflag⟩, fun _ => rfl⟩
        rw [hworker]
        rfl
      · exact h
    · exact hturn (by simp [hworker]) nofun rfl
  iterate 2 next hworker => exact hturn (by simp [hworker]) nofun rfl
  · rename_i hworker
    unfold State.deliver
    split <;> exact hturn (by simp [hworker]) nofun rfl
  · exact h

theorem Stopped.stop (h : Stopped s) : Stopped s.stop := by
  unfold State.stop
  split
  · refine ⟨fun hexited => ?_, nofun⟩
    exact ⟨rfl, (h.exited hexited).2⟩
  · split
    · exact ⟨h.exited, nofun⟩
    · exact h
  · split
    · next hworker => exact ⟨h.exited, fun _ => hworker⟩
    · exact h
  · exact h

theorem Stopped.next (h : Stopped s) (op : Op) (hop : Patient s op) :
    Stopped (s.next maxQueueSize op) := by
  cases op with
  | subscribe filter => exact { h with }
  | unsubscribe id => exact { h with }
  | enter change => exact h.enter change
  | notify place => exact h.notify place
  | worker => exact h.workerLoop hop
  | shutdown => exact h.stop

theorem stopped_start : Stopped {} := ⟨nofun, nofun⟩

theorem stopped_runs {history : List (Event State Op Unit)}
    (hruns : (notifierMachine maxQueueSize).Runs Patient history s) : Stopped s :=
  hruns.invariant (fun _ s => Stopped s) stopped_start fun _ _ op _ hop h => h.next op hop

end Stopping

/-! ## What was delivered -/

section Delivered

variable {maxQueueSize : Nat} {s : State}

def InOrder (delivered : List Delivery) : Prop :=
  delivered.Pairwise fun d d' => d.subscription = d'.subscription → d.ticket < d'.ticket

theorem ticket_of_mem_deliveries {a : Accepted} {snapshot : List (Nat × NotifierFilter)}
    {d : Delivery} (h : d ∈ deliveries a snapshot) : d.ticket = a.ticket := by
  obtain ⟨entry, _, rfl⟩ := List.mem_map.mp h
  rfl

theorem inOrder_deliveries (a : Accepted) {snapshot : List (Nat × NotifierFilter)}
    (hdistinct : (snapshot.map Prod.fst).Nodup) : InOrder (deliveries a snapshot) := by
  unfold InOrder deliveries
  rw [List.pairwise_map]
  have hne : snapshot.Pairwise fun entry entry' => entry.1 ≠ entry'.1 :=
    List.pairwise_map.mp hdistinct
  exact (hne.sublist List.filter_sublist).imp fun hne heq => absurd heq hne

theorem Inv.inOrder_handled (h : Inv maxQueueSize s) :
    InOrder (s.handled.flatMap fun h => deliveries h.accepted h.snapshot) := by
  refine List.pairwise_flatMap.mpr ⟨fun handled hhandled =>
    inOrder_deliveries _ (h.distinct handled hhandled), ?_⟩
  have hordered := h.ordered
  rw [List.append_assoc, List.map_append, List.map_map, List.pairwise_append,
    List.pairwise_map] at hordered
  refine hordered.1.imp fun hlt d hd d' hd' _ => ?_
  rw [ticket_of_mem_deliveries hd, ticket_of_mem_deliveries hd']
  exact hlt

theorem Inv.inOrder (h : Inv maxQueueSize s) : InOrder s.delivered := by
  rw [h.log]
  refine List.pairwise_append.mpr ⟨h.inOrder_handled, ?_, ?_⟩
  · unfold Worker.begun
    split
    · rename_i current batch snapshot next hworker
      apply inOrder_deliveries
      exact (h.current _ _ _ hworker).1.sublist ((List.take_sublist _ _).map _)
    · exact List.Pairwise.nil
  · intro d hd d' hd' _
    obtain ⟨handled, hhandled, hd⟩ := List.mem_flatMap.mp hd
    unfold Worker.begun at hd'
    split at hd'
    · rename_i current batch snapshot next hworker
      rw [ticket_of_mem_deliveries hd, ticket_of_mem_deliveries hd']
      have hordered := h.ordered
      rw [hworker, List.append_assoc, List.map_append, List.pairwise_append] at hordered
      apply hordered.2.2
      · exact List.mem_map_of_mem (List.mem_map_of_mem hhandled)
      · exact List.mem_map_of_mem List.mem_cons_self
    · exact absurd hd' List.not_mem_nil

theorem Inv.delivered_of_snapshot (h : Inv maxQueueSize s) {handled : Handled}
    (hhandled : handled ∈ s.handled) {id : Nat} {filter : NotifierFilter}
    (hentry : (id, filter) ∈ handled.snapshot)
    (hmatch : matchesFilter filter handled.accepted.change = true) :
    ⟨handled.accepted.ticket, handled.accepted.change, id, filter⟩ ∈ s.delivered := by
  rw [h.log]
  refine List.mem_append_left _ (List.mem_flatMap.mpr ⟨handled, hhandled, ?_⟩)
  exact List.mem_map.mpr ⟨(id, filter), List.mem_filter.mpr ⟨hentry, hmatch⟩, rfl⟩

end Delivered

/-- Over every interleaving in which the worker does not leave too early: the queue is bounded;
every accepted change is dropped and counted, or still with the queue or the worker, or handled,
and just one of these; a subscription is called at most once for a change and in the order of
acceptance; the worker goes through every subscription that was there when the change was accepted
and is still there at any moment of its delivery, and has called all that match once the change is
handled; and once shutdown has returned every accepted change has been dropped or handled. -/
theorem accepted_changes_delivered (maxQueueSize : Nat) (history : List (Event State Op Unit))
    (s : State) (hruns : (notifierMachine maxQueueSize).Runs Patient history s) :
    s.queue.length ≤ maxQueueSize ∧
    s.dropped.length = s.overflowDropCount ∧
    ((s.dropped ++ s.handled.map Handled.accepted ++ s.worker.batch ++ s.queue).map
      Accepted.ticket).Perm (List.range s.accepted) ∧
    InOrder s.delivered ∧
    (∀ current batch snapshot next, s.worker = .delivering (current :: batch) snapshot next →
      ∀ id filter, current.registered[id]? = some filter →
        s.subscriptions[id]? = some filter → (id, filter) ∈ snapshot) ∧
    (∀ handled ∈ s.handled, ∀ id filter,
      (id, filter) ∈ handled.snapshot ∨ handled.accepted.registered[id]? = some filter ∧
        handled.registered[id]? = some filter →
      matchesFilter filter handled.accepted.change = true →
      ⟨handled.accepted.ticket, handled.accepted.change, id, filter⟩ ∈ s.delivered) ∧
    (s.shutdown = .returned →
      ((s.dropped ++ s.handled.map Handled.accepted).map Accepted.ticket).Perm
        (List.range s.accepted)) := by
  have hinv := inv_reachable hruns.reachable
  have hstopped := stopped_runs hruns
  refine ⟨hinv.bound, hinv.counted, hinv.placed, hinv.inOrder, ?_, ?_, ?_⟩
  · intro current batch snapshot next hworker
    exact (hinv.current _ _ _ hworker).2 current List.mem_cons_self
  · intro handled hhandled id filter hregistered hmatch
    apply hinv.delivered_of_snapshot hhandled _ hmatch
    rcases hregistered with hentry | ⟨hbefore, hafter⟩
    · exact hentry
    · exact hinv.covered handled hhandled id filter hbefore hafter
  · intro hreturned
    have hexited := hstopped.returned hreturned
    have hplaced := hinv.placed
    rw [(hstopped.exited hexited).2.1, hexited] at hplaced
    simpa [Worker.batch] using hplaced

/-- Two changes to a queue of one place: the first is dropped, the second delivered before
shutdown returns. -/
def overflowOps : List Op :=
  [.subscribe {}, .enter ⟨str "faults", str "pump", str "f1", [], .created, 0⟩,
    .enter ⟨str "faults", str "pump", str "f2", [], .created, 0⟩, .notify 0, .notify 1, .notify 0,
    .notify 1, .shutdown, .notify 0, .notify 0, .shutdown, .worker, .worker, .worker, .worker,
    .worker, .worker, .shutdown]

theorem accepted_changes_delivered_of_overflow :
    let s := (notifierMachine 1).exec {} overflowOps
    s.shutdown = .returned ∧ s.overflowDropCount = 1 ∧ s.delivered.map Delivery.ticket = [1] ∧
      ((s.dropped ++ s.handled.map Handled.accepted).map Accepted.ticket).Perm
        (List.range s.accepted) := by
  have hruns : (notifierMachine 1).Runs Patient
      ((notifierMachine 1).history [] {} overflowOps) ((notifierMachine 1).exec {} overflowOps) :=
    Machine.Runs.start.exec overflowOps (by decide)
  have hreturned : ((notifierMachine 1).exec {} overflowOps).shutdown = .returned := by
    decide
  exact ⟨hreturned, by decide, by decide,
    (accepted_changes_delivered 1 _ _ hruns).2.2.2.2.2.2 hreturned⟩

/-- A call of `notify` passes the check, shutdown sets the flag, the worker finds the queue empty
and leaves; then the change is appended. -/
def lateOps : List Op :=
  [.subscribe {}, .enter ⟨str "faults", str "pump", str "f1", [], .created, 0⟩, .notify 0,
    .shutdown, .worker, .notify 0, .notify 0, .shutdown, .shutdown]

/-- The change is in the queue for good when shutdown returns. -/
theorem late_change_never_delivered :
    let s := (notifierMachine 10000).exec {} lateOps
    s.shutdown = .returned ∧ s.accepted = 1 ∧ s.overflowDropCount = 0 ∧ s.queue.length = 1 ∧
      s.delivered = [] ∧
      s.queue.map (fun a => (a.registered.toList.filter fun entry =>
        matchesFilter entry.2 a.change).map Prod.fst) = [[1]] := by
  decide

end Medkit.Gateway.Notifier
