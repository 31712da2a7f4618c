import Medkit.Gateway.PeerMerge

/-! Where requests for merged entities go: the routing table is keyed by the bare id, so
the route of an entity is shared with the entities of every other kind that use the id. -/
namespace Medkit.Gateway.Aggregation

open Lib EntityMerger

/-! ## Ids by kind -/

def entityIds (merged : MergedPeerResult) : SovdEntityType → List Str
  | .area => merged.areas.map (·.id)
  | .component => merged.components.map (·.id)
  | .app => merged.apps.map (·.id)
  | .function => merged.functions.map (·.id)
  | _ => []

def contributedIds (merged : MergedPeerResult) (pfr : PeerFetchResult) : SovdEntityType → List Str
  | .area => pfr.entities.areas.map (·.id)
  | .component => pfr.entities.components.map (·.id)
  | .app => pfr.entities.apps.map fun app =>
      mergedAppId pfr.peerName (merged.apps.map (·.id)) app.id
  | .function => pfr.entities.functions.map (·.id)
  | _ => []

/-- The peers that contribute an entity of the kind under the id, in the order they are
merged. -/
def contributors (order : VisitOrder) (kind : SovdEntityType) (id : Str) :
    MergedPeerResult → List PeerFetchResult → List Str
  | _, [] => []
  | merged, pfr :: rest =>
      if id ∈ contributedIds merged pfr kind then
        pfr.peerName :: contributors order kind id (mergePeer order merged pfr) rest
      else contributors order kind id (mergePeer order merged pfr) rest

theorem MergesKind.mem_ids {α : Type} {rule : MergeRule α} {pfr : PeerFetchResult}
    {known remote result : List α} (h : MergesKind rule pfr known remote result) {x : Str} :
    x ∈ result.map rule.id ↔ x ∈ known.map rule.id ∨ x ∈ remote.map rule.id := by
  rw [h.ids]
  simp only [List.mem_append, List.mem_filter, decide_eq_true_eq]
  tauto

variable (order : VisitOrder)

theorem mem_entityIds_mergePeer (merged : MergedPeerResult) (pfr : PeerFetchResult)
    (kind : SovdEntityType) (id : Str) : id ∈ entityIds (mergePeer order merged pfr) kind ↔
      id ∈ entityIds merged kind ∨ id ∈ contributedIds merged pfr kind := by
  have h := mergesPeer_mergePeer order merged pfr
  cases kind with
  | area => exact h.areas.mem_ids
  | component => exact h.components.mem_ids
  | app =>
    change id ∈ (mergePeer order merged pfr).apps.map (·.id) ↔ _
    rw [h.appIds, List.mem_append, List.map_map]
    rfl
  | function =>
    obtain ⟨remote, hremote, hfunctions⟩ := h.functions
    change _ ↔ _ ∨ id ∈ pfr.entities.functions.map (·.id)
    rw [← hremote]
    exact hfunctions.mem_ids
  | server => simp [entityIds, contributedIds]
  | unknown => simp [entityIds, contributedIds]

theorem mem_entityIds_foldl (kind : SovdEntityType) (id : Str) (toMerge : List PeerFetchResult)
    (merged : MergedPeerResult) : id ∈ entityIds (toMerge.foldl (mergePeer order) merged) kind ↔
      id ∈ entityIds merged kind ∨ contributors order kind id merged toMerge ≠ [] := by
  induction toMerge generalizing merged with
  | nil => simp [contributors]
  | cons pfr rest ih =>
    rw [List.foldl_cons, ih, mem_entityIds_mergePeer]
    by_cases h : id ∈ contributedIds merged pfr kind
    · simp [contributors, h]
    · simp [contributors, h]

/-! ## The route of an id -/

/-- The peers that enter a route for the id, in the order they are merged: those with a
component or an app of that id, or with an area or a function that is not there yet. -/
def routers (order : VisitOrder) (id : Str) : MergedPeerResult → List PeerFetchResult → List Str
  | _, [] => []
  | merged, pfr :: rest =>
      if Routes merged pfr id then
        pfr.peerName :: routers order id (mergePeer order merged pfr) rest
      else routers order id (mergePeer order merged pfr) rest

theorem routingTable_foldl (id : Str) (toMerge : List PeerFetchResult) (merged : MergedPeerResult) :
    (toMerge.foldl (mergePeer order) merged).routingTable[id]? =
      ((routers order id merged toMerge).getLast?).or merged.routingTable[id]? := by
  induction toMerge generalizing merged with
  | nil => rfl
  | cons pfr rest ih =>
    rw [List.foldl_cons, ih, (mergesPeer_mergePeer order merged pfr).routes id, routers]
    split
    · rw [List.getLast?_cons]
      cases (routers order id (mergePeer order merged pfr) rest).getLast? <;> rfl
    · rfl

def IsComponent (known : PeerEntities) (toMerge : List PeerFetchResult) (id : Str) : Prop :=
  id ∈ known.components.map (·.id) ∨ ∃ pfr ∈ toMerge, id ∈ pfr.entities.components.map (·.id)

theorem isComponent_iff {known : PeerEntities} {toMerge : List PeerFetchResult} {id : Str} :
    id ∈ (mergePeers order known toMerge).components.map (·.id) ↔ IsComponent known toMerge id := by
  have hpeers (merged : MergedPeerResult) : contributors order .component id merged toMerge ≠ [] ↔
      ∃ pfr ∈ toMerge, id ∈ pfr.entities.components.map (·.id) := by
    induction toMerge generalizing merged with
    | nil => simp [contributors]
    | cons pfr rest ih =>
      rw [contributors, List.exists_mem_cons_iff]
      split
      · rename_i h
        exact iff_of_true (List.cons_ne_nil _ _) (.inl h)
      · rename_i h
        rw [ih]
        exact (or_iff_right h).symm
  have hseed : (seedLocal known).components.map (·.id) = known.components.map (·.id) := by
    simp only [seedLocal, List.map_map]
    rfl
  rw [IsComponent, ← hseed, ← hpeers (seedLocal known)]
  exact mem_entityIds_foldl order .component id toMerge (seedLocal known)

def HasChild (order : VisitOrder) (known : PeerEntities) (toMerge : List PeerFetchResult)
    (id : Str) : Prop :=
  ∃ x, ComponentRouting.Parent (ComponentRouting.resolveValidParents order
    (mergePeers order known toMerge).components).1 x id

section Route

variable {order : VisitOrder} {known : PeerEntities} {toMerge : List PeerFetchResult} {id : Str}

theorem getElem?_routingTable : (fetchAndMergePeerEntities order known toMerge).routingTable[id]? =
      ((ComponentRouting.classifyComponentRouting order (mergePeers order known toMerge).components
        (toMerge.map claimOf)).routingTable[id]?).or
      (if id ∈ (mergePeers order known toMerge).components.map (·.id) then none
        else (routers order id (seedLocal known) toMerge).getLast?) := by
  let merged := mergePeers order known toMerge
  change ((merged.routingTable.eraseAll (merged.components.map (·.id))).insertMany _)[id]? = _
  have hroute : merged.routingTable[id]? = (routers order id (seedLocal known) toMerge).getLast? := by
    rw [show merged.routingTable[id]? = _ from routingTable_foldl order id toMerge (seedLocal known)]
    simp [seedLocal]
  rw [OMap.getElem?_insertMany_toList, OMap.getElem?_eraseAll, hroute]
  congr 1
  split <;> rfl

theorem route_of_component (h : IsComponent known toMerge id) (peer : Str) :
    (fetchAndMergePeerEntities order known toMerge).routingTable[id]? = some peer ↔
      ¬ HasChild order known toMerge id ∧
        (ComponentRouting.claimants (toMerge.map claimOf) id).getLast? = some peer := by
  rw [getElem?_routingTable, if_pos ((isComponent_iff order).mpr h), Option.or_none,
    ComponentRouting.routingTable_classify, HasChild, not_exists]

theorem route_of_not_component (h : ¬ IsComponent known toMerge id) :
    (fetchAndMergePeerEntities order known toMerge).routingTable[id]? =
      (routers order id (seedLocal known) toMerge).getLast? := by
  have hnone : (ComponentRouting.classifyComponentRouting order
      (mergePeers order known toMerge).components (toMerge.map claimOf)).routingTable[id]? = none := by
    rw [Option.eq_none_iff_forall_ne_some]
    intro peer hpeer
    have hlast := (ComponentRouting.routingTable_classify order _ _ id peer).mp hpeer |>.2
    obtain ⟨pc, hpc, -⟩ := List.mem_map.mp (List.mem_of_getLast? hlast)
    obtain ⟨hpc, hclaims⟩ := List.mem_filter.mp hpc
    obtain ⟨pfr, hpfr, rfl⟩ := List.mem_map.mp hpc
    exact h (.inr ⟨pfr, hpfr, by simpa [claimOf] using hclaims⟩)
  rw [getElem?_routingTable, hnone, if_neg fun hmem => h ((isComponent_iff order).mp hmem)]
  rfl

end Route

/-! ## Requests -/

def requestContext (merged : MergedPeerResult) (peerUrl : Str → Str) (owner : Str → Option Str) :
    HandlerContext :=
  { contextOf merged with getPeerUrl := peerUrl, getEntityOwner := owner }

def SentTo (ctx : HandlerContext) (kind : SovdEntityType) (id peer : Str) : Prop :=
  (getEntityInfo ctx id kind).isRemote = true ∧ (getEntityInfo ctx id kind).peerName = peer
deriving Decidable

theorem applyRouting_sent (ctx : HandlerContext) (info : EntityInfo) (peer : Str)
    (hlocal : info.isRemote = false) :
    ((applyRouting ctx info).isRemote = true ∧ (applyRouting ctx info).peerName = peer) ↔
      ctx.findPeerForEntity info.id = some peer := by
  unfold applyRouting
  split
  · next p hp => simp [hp]
  · rename_i hp
    rw [hp]
    split <;> simp [hlocal]

theorem getD_sent {α : Type} {ctx : HandlerContext} {found : Option α} {info : α → EntityInfo}
    {id peer : Str} (hinfo : ∀ a, (info a).isRemote = false ∧ (info a).id = id) :
    ((((found.map fun a => applyRouting ctx (info a)).getD (notFound id)).isRemote = true) ∧
      ((found.map fun a => applyRouting ctx (info a)).getD (notFound id)).peerName = peer) ↔
    found.isSome ∧ ctx.findPeerForEntity id = some peer := by
  cases found with
  | none => simp [notFound]
  | some a =>
    rw [Option.map_some, Option.getD_some, applyRouting_sent _ _ _ (hinfo a).1, (hinfo a).2]
    simp

theorem isSome_find?_reverse {α : Type} (l : List α) (f : α → Str) (id : Str) :
    (l.reverse.find? fun e => f e = id).isSome ↔ id ∈ l.map f := by
  simp [List.find?_isSome]

theorem sentTo_iff {merged : MergedPeerResult} {peerUrl : Str → Str} {owner : Str → Option Str}
    {kind : SovdEntityType} (hkind : kind ∈ [.area, .function, .app]) (id peer : Str) :
    SentTo (requestContext merged peerUrl owner) kind id peer ↔
      id ∈ entityIds merged kind ∧ merged.routingTable[id]? = some peer := by
  unfold SentTo
  simp only [List.mem_cons, List.not_mem_nil, or_false] at hkind
  rcases hkind with rfl | rfl | rfl
  all_goals
    rw [entityIds, ← isSome_find?_reverse]
    exact getD_sent fun _ => ⟨rfl, rfl⟩

/-- The route of the id is that of its owner: nobody enters one for a local entity, and
otherwise every contributor is the peer whose route stands. The route of a component id is the
last claim on a component without children. -/
structure RoutedToOwner (order : VisitOrder) (known : PeerEntities)
    (toMerge : List PeerFetchResult) (kind : SovdEntityType) (id : Str) : Prop where
  localPlain : id ∈ entityIds (seedLocal known) kind → ¬ IsComponent known toMerge id →
    routers order id (seedLocal known) toMerge = []
  localComponent : id ∈ entityIds (seedLocal known) kind → IsComponent known toMerge id →
    HasChild order known toMerge id ∨ ComponentRouting.claimants (toMerge.map claimOf) id = []
  peerPlain : id ∉ entityIds (seedLocal known) kind → ¬ IsComponent known toMerge id →
    ∀ peer ∈ contributors order kind id (seedLocal known) toMerge,
      (routers order id (seedLocal known) toMerge).getLast? = some peer
  peerComponent : id ∉ entityIds (seedLocal known) kind → IsComponent known toMerge id →
    ∀ peer ∈ contributors order kind id (seedLocal known) toMerge,
      ¬ HasChild order known toMerge id ∧
        (ComponentRouting.claimants (toMerge.map claimOf) id).getLast? = some peer

theorem right_route_iff {isLocal isThere : Prop} {route : Option Str} {peers : List Str}
    (hthere : isThere ↔ isLocal ∨ peers ≠ []) :
    (∀ peer, (isThere ∧ route = some peer) ↔ (peer ∈ peers ∧ ¬ isLocal)) ↔
      (isLocal → ∀ peer, route ≠ some peer) ∧
      (¬ isLocal → ∀ peer ∈ peers, route = some peer) := by
  by_cases hlocal : isLocal
  · simp [hthere, hlocal]
  · simp only [hthere, hlocal, false_or, not_false_eq_true, and_true, false_imp_iff, true_imp_iff,
      true_and]
    constructor
    · exact fun h peer hpeer => ((h peer).mpr hpeer).2
    · intro h peer
      constructor
      · rintro ⟨hne, hroute⟩
        obtain ⟨other, hother⟩ := List.exists_mem_of_ne_nil _ hne
        rw [h other hother, Option.some.injEq] at hroute
        exact hroute ▸ hother
      · exact fun hpeer => ⟨List.ne_nil_of_mem hpeer, h peer hpeer⟩

def lidarArea : Area := { id := str "lidar" }

end Medkit.Gateway.Aggregation
