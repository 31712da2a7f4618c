import Medkit.Lib.Machine
import Medkit.Gateway.Aggregation

/-! What the aggregation manager replays for a peer that it could not read. The memory of the
declarations is kept by name and apart from the list of the peers, and a cycle goes on with the
peers of its snapshot whatever happens to the list. -/
namespace Medkit.Gateway.Retention

open Lib

/-- A peer client, which the list and a running cycle share; each `add` makes a new one. -/
structure Peer where
  id : Nat
  name : Str
  url : Str
deriving DecidableEq

structure UnreadPeer where
  peer : Peer
  reachable : Bool

structure Cycle where
  /-- the fetches whose results are still to be collected -/
  snapshot : List Peer
  unreadPeers : List UnreadPeer

structure Config where
  /-- names and urls -/
  staticPeers : List (Str × Str)
  maxDiscoveredPeers : Nat
  maxEntitiesPerPeer : Nat

structure Manager where
  peers : List Peer
  nextId : Nat
  healthy : Nat → Bool := fun _ => false
  retainedPeerEntities : OMap Str PeerEntities := ∅
  cycle : Option Cycle := none

/-! ## Declarations -/

def isDeclared (declaredSource : Str) : Bool := declaredSource = str "manifest"

def declaredOnly (entities : PeerEntities) : PeerEntities where
  areas := entities.areas.filter fun e => isDeclared e.declaredSource
  components := entities.components.filter fun e => isDeclared e.declaredSource
  apps := entities.apps.filter fun e => isDeclared e.declaredSource
  functions := entities.functions.filter fun e => isDeclared e.declaredSource

/-- Areas and functions have no availability of their own. -/
def markAllUnreachable (entities : PeerEntities) : PeerEntities :=
  { entities with
    components := entities.components.map fun e => { e with available := false }
    apps := entities.apps.map fun e => { e with available := false, isOnline := false } }

def entityCount (entities : PeerEntities) : Nat :=
  entities.areas.length + entities.components.length + entities.apps.length +
    entities.functions.length

/-! ## Calls -/

/-- The calls of the manager, and the critical sections of a cycle. What a call learns from
outside is its argument: whether the url was accepted, what a fetch returned, and what the
health check after a failed fetch said. -/
inductive PeerCall where
  | addDiscoveredPeer (url name : Str) (accepted : Bool)
  | removeDiscoveredPeer (name : Str)
  | checkHealth (id : Nat) (healthy : Bool)
  | beginCycle
  | collect (result : Option PeerEntities) (healthyAfter : Bool)
  | replay

inductive PeerReply where
  | none
  | began
  | fetched (peer : Peer) (entities : PeerEntities)
  | failed (peer : Peer) (reachable : Bool)
  /-- merged unless empty -/
  | replayed (peer : Peer) (entities : PeerEntities)
deriving DecidableEq

namespace Manager

def adds (config : Config) (s : Manager) (name : Str) : Bool :=
  !s.peers.any (·.name = name) &&
    s.peers.length - config.staticPeers.length < config.maxDiscoveredPeers

def addDiscoveredPeer (config : Config) (s : Manager) (url name : Str) : Manager :=
  if s.adds config name then
    { s with peers := s.peers ++ [⟨s.nextId, name, url⟩], nextId := s.nextId + 1 }
  else s

/-- Static peers stay. -/
def removeDiscoveredPeer (config : Config) (s : Manager) (name : Str) : Manager :=
  { s with
    peers := s.peers.take config.staticPeers.length ++
      (s.peers.drop config.staticPeers.length).filter (·.name ≠ name) }

def checkHealth (s : Manager) (id : Nat) (healthy : Bool) : Manager :=
  { s with healthy := fun other => if other = id then healthy else s.healthy other }

def beginCycle (s : Manager) : Manager :=
  { s with
    cycle := some
      { snapshot := s.peers.filter (s.healthy ·.id)
        unreadPeers := (s.peers.filter (!s.healthy ·.id)).map (⟨·, false⟩) } }

def rememberDeclaration (s : Manager) (peerName : Str) (entities : PeerEntities) : Manager :=
  { s with retainedPeerEntities := s.retainedPeerEntities.insert peerName (declaredOnly entities) }

def replayDeclaration (s : Manager) (peerName : Str) (reachable : Bool) : PeerEntities :=
  match s.retainedPeerEntities[peerName]? with
  | none => {}
  | some replayed => if reachable then replayed else markAllUnreachable replayed

/-- The result of the next fetch; too many entities are a failure. -/
def collect (config : Config) (s : Manager) (result : Option PeerEntities) (healthyAfter : Bool) :
    Manager × PeerReply :=
  match s.cycle with
  | some ⟨peer :: snapshot, unreadPeers⟩ =>
      match result.filter (entityCount · ≤ config.maxEntitiesPerPeer) with
      | some entities =>
          ({ s.rememberDeclaration peer.name entities with cycle := some ⟨snapshot, unreadPeers⟩ },
            .fetched peer entities)
      | none =>
          ({ s.checkHealth peer.id healthyAfter with
              cycle := some ⟨snapshot, unreadPeers ++ [⟨peer, healthyAfter⟩]⟩ },
            .failed peer healthyAfter)
  | _ => (s, .none)

/-- One round of the loop over the unread peers, which ends the cycle after the last. -/
def replay (s : Manager) : Manager × PeerReply :=
  match s.cycle with
  | some ⟨[], unread :: unreadPeers⟩ =>
      ({ s with cycle := some ⟨[], unreadPeers⟩ },
        .replayed unread.peer (s.replayDeclaration unread.peer.name unread.reachable))
  | some ⟨[], []⟩ => ({ s with cycle := none }, .none)
  | _ => (s, .none)

def step (config : Config) (s : Manager) : PeerCall → Manager × PeerReply
  | .addDiscoveredPeer url name accepted =>
      (if accepted then s.addDiscoveredPeer config url name else s, .none)
  | .removeDiscoveredPeer name => (s.removeDiscoveredPeer config name, .none)
  | .checkHealth id healthy => (s.checkHealth id healthy, .none)
  | .beginCycle => if s.cycle.isNone then (s.beginCycle, .began) else (s, .none)
  | .collect result healthyAfter => s.collect config result healthyAfter
  | .replay => s.replay

def start (config : Config) : Manager where
  peers := config.staticPeers.zipIdx.map fun entry => ⟨entry.2, entry.1.1, entry.1.2⟩
  nextId := config.staticPeers.length

end Manager

def managerMachine (config : Config) : Machine Manager PeerCall PeerReply where
  init := .start config
  step := Manager.step config

abbrev PeerEvent := Event Manager PeerCall PeerReply

/-! ## What a replay should say -/

def fetchedFrom (id : Nat) : PeerReply → Option PeerEntities
  | .fetched peer entities => if peer.id = id then some entities else none
  | _ => none

def lastFetched (history : List PeerEvent) (id : Nat) : Option PeerEntities :=
  history.findSome? fun event => fetchedFrom id event.out

/-- What a cycle learns about the health of the peer: from its snapshot, or from the check
after a failed fetch. -/
def looksAt (id : Nat) (event : PeerEvent) : Option Bool :=
  match event.out with
  | .began => some (event.before.healthy id)
  | .failed peer reachable => if peer.id = id then some reachable else none
  | _ => none

def lastLook (history : List PeerEvent) (id : Nat) : Option Bool := history.findSome? (looksAt id)

def lastDeclaration (history : List PeerEvent) (peer : Peer) : PeerEntities :=
  let declared := ((lastFetched history peer.id).map declaredOnly).getD {}
  if lastLook history peer.id = some false then markAllUnreachable declared else declared

def Manager.cyclePeers (s : Manager) : List Peer :=
  match s.cycle with
  | none => []
  | some cycle => cycle.snapshot ++ cycle.unreadPeers.map (·.peer)

/-- No peer is added under a name that the memory or the running cycle still has. -/
def AddsNewName (config : Config) (s : Manager) : PeerCall → Prop
  | .addDiscoveredPeer _ name accepted =>
      accepted = true → s.adds config name = true →
        s.retainedPeerEntities[name]? = none ∧ ∀ peer ∈ s.cyclePeers, peer.name ≠ name
  | _ => True

/-! ## The memory follows the peers -/

def Manager.known (s : Manager) : List Peer := s.peers ++ s.cyclePeers

structure Retains (history : List PeerEvent) (s : Manager) : Prop where
  below : ∀ peer ∈ s.known, peer.id < s.nextId
  unseen : ∀ id, s.nextId ≤ id → lastFetched history id = none
  numbered : ∀ a ∈ s.known, ∀ b ∈ s.known, a.id = b.id → a = b
  named : ∀ a ∈ s.known, ∀ b ∈ s.known, a.name = b.name → a = b
  peers_nodup : s.peers.Nodup
  cycle_nodup : s.cyclePeers.Nodup
  retained : ∀ peer ∈ s.known,
    s.retainedPeerEntities[peer.name]? = (lastFetched history peer.id).map declaredOnly
  looked : ∀ cycle, s.cycle = some cycle → ∀ unread ∈ cycle.unreadPeers,
    lastLook history unread.peer.id = some unread.reachable

variable {config : Config} {history : List PeerEvent} {s s' : Manager} {event : PeerEvent}

theorem lastFetched_cons_of_none (h : ∀ id, fetchedFrom id event.out = none) (id : Nat) :
    lastFetched (event :: history) id = lastFetched history id := by
  unfold lastFetched
  rw [List.findSome?_cons, h id]

theorem lastLook_cons_of_none {id : Nat} (h : looksAt id event = none) :
    lastLook (event :: history) id = lastLook history id := by
  unfold lastLook
  rw [List.findSome?_cons, h]

/-- A call that meets no new peer. -/
theorem Retains.move (h : Retains history s) (hpeers : s'.peers.Sublist s.peers)
    (hcycle : ∀ peer ∈ s'.cyclePeers, peer ∈ s.known) (hnodup : s'.cyclePeers.Nodup)
    (hnext : s'.nextId = s.nextId)
    (hunseen : ∀ id, s.nextId ≤ id → lastFetched (event :: history) id = lastFetched history id)
    (hretained : ∀ peer ∈ s.known, s'.retainedPeerEntities[peer.name]? =
      (lastFetched (event :: history) peer.id).map declaredOnly)
    (hlooked : ∀ cycle, s'.cycle = some cycle → ∀ unread ∈ cycle.unreadPeers,
      lastLook (event :: history) unread.peer.id = some unread.reachable) :
    Retains (event :: history) s' := by
  have hknown : ∀ peer ∈ s'.known, peer ∈ s.known := List.forall_mem_append.mpr
    ⟨fun _ hpeer => List.mem_append_left _ (hpeers.subset hpeer), hcycle⟩
  exact
    { below := fun peer hpeer => hnext ▸ h.below peer (hknown peer hpeer)
      unseen := fun id hid => (hunseen id (hnext ▸ hid)).trans (h.unseen id (hnext ▸ hid))
      numbered := fun a ha b hb => h.numbered a (hknown a ha) b (hknown b hb)
      named := fun a ha b hb => h.named a (hknown a ha) b (hknown b hb)
      peers_nodup := h.peers_nodup.sublist hpeers
      cycle_nodup := hnodup
      retained := fun peer hpeer => hretained peer (hknown peer hpeer)
      looked := hlooked }

theorem Retains.keep (h : Retains history s) (hfetch : ∀ id, fetchedFrom id event.out = none)
    (hpeers : s'.peers.Sublist s.peers) (hcycle : ∀ peer ∈ s'.cyclePeers, peer ∈ s.known)
    (hnodup : s'.cyclePeers.Nodup) (hnext : s'.nextId = s.nextId)
    (hretained : s'.retainedPeerEntities = s.retainedPeerEntities)
    (hlooked : ∀ cycle, s'.cycle = some cycle → ∀ unread ∈ cycle.unreadPeers,
      lastLook (event :: history) unread.peer.id = some unread.reachable) :
    Retains (event :: history) s' := by
  refine h.move hpeers hcycle hnodup hnext (fun id _ => lastFetched_cons_of_none hfetch id) ?_
    hlooked
  intro peer hpeer
  rw [lastFetched_cons_of_none hfetch, hretained]
  exact h.retained peer hpeer

theorem Retains.same_cycle (h : Retains history s) (hout : event.out = .none)
    (hpeers : s'.peers.Sublist s.peers) (hcycle : s'.cycle = s.cycle) (hnext : s'.nextId = s.nextId)
    (hretained : s'.retainedPeerEntities = s.retainedPeerEntities) :
    Retains (event :: history) s' := by
  have hcyclePeers : s'.cyclePeers = s.cyclePeers := by
    unfold Manager.cyclePeers
    rw [hcycle]
  refine h.keep (fun id => by rw [hout]; rfl) hpeers
    (fun peer hpeer => List.mem_append_right _ (hcyclePeers ▸ hpeer))
    (hcyclePeers ▸ h.cycle_nodup) hnext hretained ?_
  intro cycle hc unread hunread
  rw [lastLook_cons_of_none (by simp [looksAt, hout])]
  exact h.looked cycle (hcycle ▸ hc) unread hunread

theorem addDiscoveredPeer_of_adds {url name : Str} (hadds : s.adds config name = true) :
    s.addDiscoveredPeer config url name =
      { s with peers := s.peers ++ [⟨s.nextId, name, url⟩], nextId := s.nextId + 1 } :=
  if_pos hadds

theorem mem_known_addDiscoveredPeer {url name : Str} (hadds : s.adds config name = true)
    {peer : Peer} (hpeer : peer ∈ (s.addDiscoveredPeer config url name).known) :
    peer ∈ s.known ∨ peer = ⟨s.nextId, name, url⟩ := by
  rw [addDiscoveredPeer_of_adds hadds] at hpeer
  rcases List.mem_append.mp hpeer with hpeer | hpeer
  · rcases List.mem_append.mp hpeer with hpeer | hpeer
    · exact .inl (List.mem_append_left _ hpeer)
    · exact .inr (List.mem_singleton.mp hpeer)
  · exact .inl (List.mem_append_right _ hpeer)

theorem Retains.add (h : Retains history s) {url name : Str} (hout : event.out = .none)
    (hadds : s.adds config name = true)
    (hnew : s.retainedPeerEntities[name]? = none ∧ ∀ peer ∈ s.cyclePeers, peer.name ≠ name) :
    Retains (event :: history) (s.addDiscoveredPeer config url name) := by
  have hfetch : ∀ id, fetchedFrom id event.out = none := fun id => by rw [hout]; rfl
  have hfree : ∀ peer ∈ s.known, peer.name ≠ name := by
    intro peer hpeer
    rcases List.mem_append.mp hpeer with hpeer | hpeer
    · unfold Manager.adds at hadds
      simp only [Bool.and_eq_true, Bool.not_eq_true', List.any_eq_false, decide_eq_true_eq] at hadds
      exact hadds.1 peer hpeer
    · exact hnew.2 peer hpeer
  have hold := fun peer => @mem_known_addDiscoveredPeer config s url name hadds peer
  have hadd := @addDiscoveredPeer_of_adds config s url name hadds
  have hbelow : ∀ peer ∈ s.known, peer.id ≠ s.nextId :=
    fun peer hpeer => (h.below peer hpeer).ne
  constructor
  · intro peer hpeer
    rw [hadd]
    rcases hold peer hpeer with hpeer | rfl
    · exact Nat.lt_succ_of_lt (h.below peer hpeer)
    · exact Nat.lt_succ_self _
  · intro id hid
    rw [hadd] at hid
    rw [lastFetched_cons_of_none hfetch]
    exact h.unseen id (Nat.le_of_succ_le hid)
  · intro a ha b hb hid
    rcases hold a ha with ha | rfl <;> rcases hold b hb with hb | rfl
    · exact h.numbered a ha b hb hid
    · exact absurd hid (hbelow a ha)
    · exact absurd hid.symm (hbelow b hb)
    · rfl
  · intro a ha b hb hname
    rcases hold a ha with ha | rfl <;> rcases hold b hb with hb | rfl
    · exact h.named a ha b hb hname
    · exact absurd hname (hfree a ha)
    · exact absurd hname.symm (hfree b hb)
    · rfl
  · rw [hadd]
    refine List.nodup_append.mpr ⟨h.peers_nodup, List.nodup_singleton _, ?_⟩
    rintro a ha b hb rfl
    cases List.mem_singleton.mp hb
    exact hbelow _ (List.mem_append_left _ ha) rfl
  · rw [hadd]
    exact h.cycle_nodup
  · intro peer hpeer
    rw [lastFetched_cons_of_none hfetch, hadd]
    rcases hold peer hpeer with hpeer | rfl
    · exact h.retained peer hpeer
    · rw [h.unseen _ (Nat.le_refl _)]
      exact hnew.1
  · intro cycle hcycle unread hunread
    rw [hadd] at hcycle
    rw [lastLook_cons_of_none (by simp [looksAt, hout])]
    exact h.looked cycle hcycle unread hunread

theorem cyclePeers_beginCycle (s : Manager) : s.beginCycle.cyclePeers.Perm s.peers := by
  have hunread : ((s.peers.filter (!s.healthy ·.id)).map (UnreadPeer.mk · false)).map (·.peer) =
      s.peers.filter (!s.healthy ·.id) := by
    rw [List.map_map]
    exact List.map_id _
  unfold Manager.cyclePeers Manager.beginCycle
  dsimp only
  rw [hunread]
  exact List.filter_append_perm _ _

theorem Retains.begin (h : Retains history s) :
    Retains (⟨s, .beginCycle, .began⟩ :: history) s.beginCycle := by
  have hperm := cyclePeers_beginCycle s
  refine h.keep (fun _ => rfl) (List.Sublist.refl _)
    (fun peer hpeer => List.mem_append_left _ (hperm.mem_iff.mp hpeer))
    (hperm.nodup_iff.mpr h.peers_nodup) rfl rfl ?_
  rintro cycle hcycle unread hunread
  cases hcycle
  obtain ⟨peer, hpeer, rfl⟩ := List.mem_map.mp hunread
  have hdown := (List.mem_filter.mp hpeer).2
  rw [Bool.not_eq_true'] at hdown
  exact congrArg some hdown

section Collect

variable {peer : Peer} {snapshot : List Peer} {unreadPeers : List UnreadPeer}
  (h : Retains history s) (hcycle : s.cycle = some ⟨peer :: snapshot, unreadPeers⟩)

include hcycle in
theorem cyclePeers_of_pending :
    s.cyclePeers = peer :: (snapshot ++ unreadPeers.map (·.peer)) := by
  unfold Manager.cyclePeers
  rw [hcycle]
  rfl

include h hcycle

theorem Retains.pending_other {other : Peer} (hother : other ∈ s.known) (hne : other ≠ peer) :
    other.name ≠ peer.name ∧ other.id ≠ peer.id := by
  have hpeer : peer ∈ s.known := by
    apply List.mem_append_right
    rw [cyclePeers_of_pending hcycle]
    exact List.mem_cons_self
  exact ⟨fun hname => hne (h.named other hother peer hpeer hname),
    fun hid => hne (h.numbered other hother peer hpeer hid)⟩

theorem Retains.fetch (entities : PeerEntities) (hout : event.out = .fetched peer entities) :
    Retains (event :: history)
      { s.rememberDeclaration peer.name entities with cycle := some ⟨snapshot, unreadPeers⟩ } := by
  have hpending := cyclePeers_of_pending hcycle
  have hnodup := h.cycle_nodup
  rw [hpending] at hnodup
  have hself : lastFetched (event :: history) peer.id = some entities := by
    unfold lastFetched
    rw [List.findSome?_cons, hout, fetchedFrom, if_pos rfl]
  have hothers {id : Nat} (hid : id ≠ peer.id) :
      lastFetched (event :: history) id = lastFetched history id := by
    unfold lastFetched
    rw [List.findSome?_cons, hout, fetchedFrom, if_neg (Ne.symm hid)]
  have hpeer : peer ∈ s.known :=
    List.mem_append_right _ (hpending ▸ List.mem_cons_self)
  refine h.move (List.Sublist.refl _)
    (fun _ hother => List.mem_append_right _ (hpending ▸ List.mem_cons_of_mem _ hother))
    (List.nodup_cons.mp hnodup).2 rfl
    (fun id hid => hothers (Nat.ne_of_gt (Nat.lt_of_lt_of_le (h.below peer hpeer) hid))) ?_ ?_
  · intro other hother
    by_cases hsame : other = peer
    · subst hsame
      rw [hself]
      exact Std.ExtTreeMap.getElem?_insert_self
    · obtain ⟨hname, hid⟩ := h.pending_other hcycle hother hsame
      rw [hothers hid, ← h.retained other hother]
      exact OMap.getElem?_insert_of_ne (Ne.symm hname) _
  · rintro cycle hc unread hunread
    cases hc
    rw [lastLook_cons_of_none (by simp [looksAt, hout])]
    exact h.looked _ hcycle unread hunread

theorem Retains.fail (healthyAfter : Bool) (hout : event.out = .failed peer healthyAfter) :
    Retains (event :: history)
      { s.checkHealth peer.id healthyAfter with
        cycle := some ⟨snapshot, unreadPeers ++ [⟨peer, healthyAfter⟩]⟩ } := by
  have hpending := cyclePeers_of_pending hcycle
  have hnodup := h.cycle_nodup
  rw [hpending] at hnodup
  have hperm : (snapshot ++ (unreadPeers ++ [UnreadPeer.mk peer healthyAfter]).map (·.peer)).Perm
      s.cyclePeers := by
    rw [hpending, List.map_append, ← List.append_assoc]
    exact List.perm_append_singleton _ _
  refine h.keep (fun id => by rw [hout]; rfl) (List.Sublist.refl _)
    (fun other hother => List.mem_append_right _ (hperm.mem_iff.mp hother))
    (hperm.nodup_iff.mpr h.cycle_nodup) rfl rfl ?_
  rintro cycle hc unread hunread
  cases hc
  rcases List.mem_append.mp hunread with hunread | hunread
  · have hmem : unread.peer ∈ snapshot ++ unreadPeers.map (·.peer) :=
      List.mem_append_right _ (List.mem_map_of_mem hunread)
    have hne : unread.peer ≠ peer := by
      intro heq
      exact (List.nodup_cons.mp hnodup).1 (heq ▸ hmem)
    have hother : unread.peer ∈ s.known :=
      List.mem_append_right _ (hpending ▸ List.mem_cons_of_mem _ hmem)
    have hid := (h.pending_other hcycle hother hne).2
    rw [lastLook_cons_of_none (by simp [looksAt, hout, Ne.symm hid])]
    exact h.looked _ hcycle unread hunread
  · cases List.mem_singleton.mp hunread
    unfold lastLook
    simp [looksAt, hout]

end Collect

theorem Retains.collect (h : Retains history s) (result : Option PeerEntities)
    (healthyAfter : Bool) :
    Retains (⟨s, .collect result healthyAfter, (s.collect config result healthyAfter).2⟩ :: history)
      (s.collect config result healthyAfter).1 := by
  unfold Manager.collect
  split
  · rename_i peer snapshot unreadPeers hcycle
    split
    · exact h.fetch hcycle _ rfl
    · exact h.fail hcycle _ rfl
  · exact h.same_cycle rfl (List.Sublist.refl _) rfl rfl rfl

theorem Retains.replay (h : Retains history s) :
    Retains (⟨s, .replay, s.replay.2⟩ :: history) s.replay.1 := by
  unfold Manager.replay
  split
  · rename_i unread unreadPeers hcycle
    have hpeers : s.cyclePeers = unread.peer :: unreadPeers.map (·.peer) := by
      unfold Manager.cyclePeers
      rw [hcycle]
      rfl
    have hnodup := h.cycle_nodup
    rw [hpeers] at hnodup
    refine h.keep (fun _ => rfl) (List.Sublist.refl _)
      (fun _ hother => List.mem_append_right _ (hpeers ▸ List.mem_cons_of_mem _ hother))
      (List.nodup_cons.mp hnodup).2 rfl rfl ?_
    rintro cycle hc other hother
    cases hc
    rw [lastLook_cons_of_none rfl]
    exact h.looked _ hcycle other (List.mem_cons_of_mem _ hother)
  · exact h.keep (fun _ => rfl) (List.Sublist.refl _) nofun List.nodup_nil rfl rfl nofun
  · exact h.same_cycle rfl (List.Sublist.refl _) rfl rfl rfl

theorem Retains.step (h : Retains history s) (call : PeerCall) (hcall : AddsNewName config s call) :
    Retains (⟨s, call, (s.step config call).2⟩ :: history) (s.step config call).1 := by
  have hsame {call : PeerCall} : Retains (⟨s, call, .none⟩ :: history) s :=
    h.same_cycle rfl (List.Sublist.refl _) rfl rfl rfl
  cases call with
  | addDiscoveredPeer url name accepted =>
    unfold Manager.step
    dsimp only
    split_ifs with haccepted
    · by_cases hadds : s.adds config name = true
      · exact h.add rfl hadds (hcall haccepted hadds)
      · have hstays : s.addDiscoveredPeer config url name = s := if_neg hadds
        rw [hstays]
        exact hsame
    · exact hsame
  | removeDiscoveredPeer name =>
    refine h.same_cycle rfl ?_ rfl rfl rfl
    conv_rhs => rw [← List.take_append_drop config.staticPeers.length s.peers]
    exact List.Sublist.append (List.Sublist.refl _) List.filter_sublist
  | checkHealth id healthy => exact h.same_cycle rfl (List.Sublist.refl _) rfl rfl rfl
  | beginCycle =>
    unfold Manager.step
    dsimp only
    split_ifs
    · exact h.begin
    · exact hsame
  | collect result healthyAfter => exact h.collect result healthyAfter
  | replay => exact h.replay

theorem retains_start (hstatic : (config.staticPeers.map (·.1)).Nodup) :
    Retains [] (Manager.start config) := by
  have hknown : (Manager.start config).known = (Manager.start config).peers := List.append_nil _
  have hnames : ((Manager.start config).peers.map (·.name)) = config.staticPeers.map (·.1) := by
    conv_rhs => rw [← List.zipIdx_map_fst 0 config.staticPeers, List.map_map]
    unfold Manager.start
    rw [List.map_map]
    rfl
  have hids : ((Manager.start config).peers.map (·.id)) =
      List.range' 0 config.staticPeers.length := by
    rw [← List.zipIdx_map_snd 0 config.staticPeers]
    unfold Manager.start
    rw [List.map_map]
    rfl
  have hbelow : ∀ peer ∈ (Manager.start config).peers, peer.id < config.staticPeers.length := by
    intro peer hpeer
    have hid := List.mem_map_of_mem (f := (·.id)) hpeer
    rw [hids, List.mem_range'_1] at hid
    omega
  rw [← hnames] at hstatic
  have hnumbers : ((Manager.start config).peers.map (·.id)).Nodup := hids ▸ List.nodup_range'
  exact
    { below := fun peer hpeer => hbelow peer (hknown ▸ hpeer)
      unseen := fun _ _ => rfl
      numbered := fun a ha b hb => List.inj_on_of_nodup_map hnumbers (hknown ▸ ha) (hknown ▸ hb)
      named := fun a ha b hb => List.inj_on_of_nodup_map hstatic (hknown ▸ ha) (hknown ▸ hb)
      peers_nodup := hstatic.of_map
      cycle_nodup := List.nodup_nil
      retained := fun _ _ => Std.ExtTreeMap.getElem?_empty
      looked := nofun }

theorem replay_of_step {call : PeerCall} {peer : Peer} {entities : PeerEntities}
    (h : (s.step config call).2 = .replayed peer entities) :
    s.replay.2 = .replayed peer entities := by
  cases call with
  | addDiscoveredPeer => cases h
  | removeDiscoveredPeer => cases h
  | checkHealth => cases h
  | beginCycle =>
    unfold Manager.step at h
    dsimp only at h
    split_ifs at h
  | collect =>
    unfold Manager.step Manager.collect at h
    dsimp only at h
    split at h
    · split at h <;> cases h
    · cases h
  | replay => exact h

theorem Retains.replayed (h : Retains history s) {peer : Peer} {entities : PeerEntities}
    (hout : s.replay.2 = .replayed peer entities) : entities = lastDeclaration history peer := by
  unfold Manager.replay at hout
  split at hout
  · rename_i unread unreadPeers hcycle
    cases hout
    have hmem : unread.peer ∈ s.known := by
      apply List.mem_append_right
      unfold Manager.cyclePeers
      rw [hcycle]
      exact List.mem_cons_self
    have hlook := h.looked _ hcycle unread List.mem_cons_self
    unfold Manager.replayDeclaration lastDeclaration
    rw [h.retained _ hmem, hlook]
    cases lastFetched history unread.peer.id with
    | none => cases unread.reachable <;> rfl
    | some fetched => cases unread.reachable <;> rfl
  · cases hout
  · cases hout

/-- In every run in which peers are added under new names, whatever the fetches and the health
checks say and however the calls interleave with a cycle: what a cycle replays for a peer is the
declaration of the last successful fetch of that peer, marked if the peer was unreachable. -/
theorem replays_last_declaration (config : Config)
    (hstatic : (config.staticPeers.map (·.1)).Nodup) {history : List PeerEvent} {s : Manager}
    (hrun : (managerMachine config).Runs (AddsNewName config) history s) :
    ∀ event earlier, event :: earlier <:+ history →
      ∀ peer entities, event.out = .replayed peer entities →
        entities = lastDeclaration earlier peer := by
  have hinv := hrun.invariant
    (fun history s => Retains history s ∧ ∀ event earlier, event :: earlier <:+ history →
      ∀ peer entities, event.out = .replayed peer entities →
        entities = lastDeclaration earlier peer)
    ⟨retains_start hstatic, by simp⟩ (by
      intro history s call _ hcall ⟨hretains, hearlier⟩
      refine ⟨hretains.step call hcall, ?_⟩
      intro event earlier hsuffix peer entities hout
      rcases List.suffix_cons_iff.mp hsuffix with heq | hsuffix
      · cases heq
        exact hretains.replayed (replay_of_step hout)
      · exact hearlier event earlier hsuffix peer entities hout)
  exact hinv.2

def fieldConfig : Config where
  staticPeers := []
  maxDiscoveredPeers := 4
  maxEntitiesPerPeer := 100

def armEntities : PeerEntities where
  apps := [{ id := str "arm", declaredSource := str "manifest", isOnline := true }]

def firstCycle : List PeerCall :=
  [.addDiscoveredPeer (str "http://cell-1") (str "cell") true, .checkHealth 0 true, .beginCycle,
    .collect (some armEntities) true, .replay]

theorem replays_last_declaration_of_cell :
    let m := managerMachine fieldConfig
    let calls := firstCycle ++ [.checkHealth 0 false, .beginCycle]
    let peer : Peer := ⟨0, str "cell", str "http://cell-1"⟩
    ∃ entities, (m.step (m.exec m.init calls) .replay).2 = .replayed peer entities ∧
      entities.apps.map (·.available) = [false] ∧
      entities = lastDeclaration (m.history [] m.init calls) peer := by
  intro m calls peer
  have hguard : m.Guarded (AddsNewName fieldConfig) m.init calls :=
    ⟨fun _ _ => ⟨rfl, nofun⟩, trivial, trivial, trivial, trivial, trivial, trivial, trivial⟩
  have hreplay : AddsNewName fieldConfig (m.exec m.init calls) .replay := trivial
  have hrun := (Machine.Runs.start.exec calls hguard).step .replay hreplay
  have hout : (m.step (m.exec m.init calls) .replay).2 =
      .replayed peer (markAllUnreachable armEntities) := by decide
  refine ⟨_, hout, by decide, ?_⟩
  exact replays_last_declaration fieldConfig List.nodup_nil hrun _ _ List.suffix_rfl peer _ hout

/-- Another machine takes the name over and never answers: the cycle replays the declaration of
the machine that is gone for it. -/
theorem replays_declaration_of_removed_peer :
    let m := managerMachine fieldConfig
    let calls := firstCycle ++ [.removeDiscoveredPeer (str "cell"),
      .addDiscoveredPeer (str "http://cell-2") (str "cell") true, .beginCycle]
    let peer : Peer := ⟨1, str "cell", str "http://cell-2"⟩
    (m.step (m.exec m.init calls) .replay).2 = .replayed peer (markAllUnreachable armEntities) ∧
      lastDeclaration (m.history [] m.init calls) peer = {} := by
  decide

end Medkit.Gateway.Retention
