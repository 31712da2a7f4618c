import Medkit.Lib.Substring
import Medkit.Gateway.EntityMerger
import Medkit.Gateway.ComponentRouting

/-! The aggregation manager: the entities of the peers are folded into the local ones one
peer after the other, and requests for entities of a peer are forwarded to it. What the
peers answered this cycle, live or retained, comes from outside. -/
namespace Medkit.Gateway

open Lib

structure PeerEntities where
  areas : List Area := []
  components : List Component := []
  apps : List App := []
  functions : List SovdFunction := []
deriving DecidableEq

structure PeerFetchResult where
  peerName : Str
  entities : PeerEntities

structure MergedPeerResult where
  areas : List Area
  components : List Component
  apps : List App
  functions : List SovdFunction
  routingTable : OMap Str Str := ∅
  leafWarnings : List LeafCollisionWarning := []

namespace Aggregation

def seedContributors (contributors : List Str) : List Str :=
  if contributors = [] then [str "local"] else contributors

def seedLocal (entities : PeerEntities) : MergedPeerResult where
  areas := entities.areas.map fun e => { e with contributors := seedContributors e.contributors }
  components :=
    entities.components.map fun e => { e with contributors := seedContributors e.contributors }
  apps := entities.apps.map fun e => { e with contributors := seedContributors e.contributors }
  functions :=
    entities.functions.map fun e => { e with contributors := seedContributors e.contributors }

/-! ## Merging the peers -/

/-- The ids of the peer's apps before they were renamed, read off the routed ids: what
follows the first separator. -/
def appIdRemap (order : VisitOrder) (routingTable : OMap Str Str) : OMap Str Str :=
  (order.keys routingTable).foldl (fun remap routedId =>
    match findSub separator routedId with
    | some pos => remap.insert (routedId.drop (pos + separator.length)) routedId
    | none => remap) ∅

def remapHosts (remap : OMap Str Str) (func : SovdFunction) : SovdFunction :=
  { func with hosts := func.hosts.map fun host => (remap[host]?).getD host }

def mergePeer (order : VisitOrder) (merged : MergedPeerResult) (pfr : PeerFetchResult) :
    MergedPeerResult :=
  let merger : EntityMerger := { peerName := pfr.peerName }
  let (areas, merger) := merger.mergeAreas merged.areas pfr.entities.areas
  let (components, merger) := merger.mergeComponents merged.components pfr.entities.components
  let (apps, merger) := merger.mergeApps merged.apps pfr.entities.apps
  let remap := appIdRemap order merger.routingTable
  let (functions, merger) :=
    merger.mergeFunctions merged.functions (pfr.entities.functions.map (remapHosts remap))
  { merged with
    areas := areas
    components := components
    apps := apps
    functions := functions
    routingTable := merged.routingTable.insertMany merger.routingTable.toList }

def claimOf (pfr : PeerFetchResult) : PeerClaim where
  peerName := pfr.peerName
  claimedEntityIds := Std.ExtTreeSet.ofList (pfr.entities.components.map (·.id)) compare

def mergePeers (order : VisitOrder) (known : PeerEntities) (toMerge : List PeerFetchResult) :
    MergedPeerResult :=
  toMerge.foldl (mergePeer order) (seedLocal known)

def fetchAndMergePeerEntities (order : VisitOrder) (known : PeerEntities)
    (toMerge : List PeerFetchResult) : MergedPeerResult :=
  let merged := mergePeers order known toMerge
  let classified :=
    ComponentRouting.classifyComponentRouting order merged.components (toMerge.map claimOf)
  { merged with
    routingTable := (merged.routingTable.eraseAll (merged.components.map (·.id))).insertMany
      classified.routingTable.toList
    leafWarnings := classified.leafWarnings }

/-! ## Requests -/

structure EntityInfo where
  type : SovdEntityType := .unknown
  id : Str
  namespacePath : Str := []
  fqn : Str := []
  idField : Str := []
  errorName : Str := []
  isRemote : Bool := false
  peerName : Str := []
  peerUrl : Str := []
  isPlugin : Bool := false
  pluginName : Str := []

structure HandlerContext where
  getArea : Str → Option Area
  getComponent : Str → Option Component
  getApp : Str → Option App
  getFunction : Str → Option SovdFunction
  findPeerForEntity : Str → Option Str
  getPeerUrl : Str → Str := fun _ => []
  getEntityOwner : Str → Option Str := fun _ => none

def applyRouting (ctx : HandlerContext) (info : EntityInfo) : EntityInfo :=
  match ctx.findPeerForEntity info.id with
  | some peer => { info with isRemote := true, peerName := peer, peerUrl := ctx.getPeerUrl peer }
  | none =>
      match ctx.getEntityOwner info.id with
      | some owner => { info with isPlugin := true, pluginName := owner }
      | none => info

def componentInfo (ctx : HandlerContext) (id : Str) : Option EntityInfo :=
  (ctx.getComponent id).map fun component => applyRouting ctx
    { type := .component, id := id, namespacePath := component.namespacePath, fqn := component.fqn,
      idField := str "component_id", errorName := str "Component" }

def appInfo (ctx : HandlerContext) (id : Str) : Option EntityInfo :=
  (ctx.getApp id).map fun app => applyRouting ctx
    { type := .app, id := id, namespacePath := app.effectiveFqn, fqn := app.effectiveFqn,
      idField := str "app_id", errorName := str "App" }

def areaInfo (ctx : HandlerContext) (id : Str) : Option EntityInfo :=
  (ctx.getArea id).map fun area => applyRouting ctx
    { type := .area, id := id, namespacePath := area.namespacePath, fqn := area.namespacePath,
      idField := str "area_id", errorName := str "Area" }

def functionInfo (ctx : HandlerContext) (id : Str) : Option EntityInfo :=
  (ctx.getFunction id).map fun _ => applyRouting ctx
    { type := .function, id := id, idField := str "function_id", errorName := str "Function" }

def notFound (id : Str) : EntityInfo := { id := id, errorName := str "Entity" }

/-- With an expected type only that collection is searched. -/
def getEntityInfo (ctx : HandlerContext) (id : Str) (expectedType : SovdEntityType) : EntityInfo :=
  match expectedType with
  | .component => (componentInfo ctx id).getD (notFound id)
  | .app => (appInfo ctx id).getD (notFound id)
  | .area => (areaInfo ctx id).getD (notFound id)
  | .function => (functionInfo ctx id).getD (notFound id)
  | .server => notFound id
  | .unknown =>
      (((componentInfo ctx id).or (appInfo ctx id)).or
        ((areaInfo ctx id).or (functionInfo ctx id))).getD (notFound id)

/-- The handlers work on the merged entities, of which the cache keeps the last with an
id, and on the merged routing table. -/
def contextOf (merged : MergedPeerResult) : HandlerContext where
  getArea id := merged.areas.reverse.find? (·.id = id)
  getComponent id := merged.components.reverse.find? (·.id = id)
  getApp id := merged.apps.reverse.find? (·.id = id)
  getFunction id := merged.functions.reverse.find? (·.id = id)
  findPeerForEntity id := merged.routingTable[id]?

inductive Forwarded where
  | peerUnavailable (status : Nat) (vendorCode message : Str)
  | invalidRequest (status : Nat) (message : Str)
  | sent (peerName path : Str)
deriving DecidableEq

/-- Cut the first occurrence of the peer's prefix if it starts a path segment. -/
def forwardedPath (peerName targetPath : Str) : Str :=
  let pfx := peerName ++ separator
  match findSub pfx targetPath with
  | some pos =>
      if 0 < pos ∧ (targetPath.take pos).getLast? = (str "/").getLast? then
        targetPath.take pos ++ targetPath.drop (pos + pfx.length)
      else targetPath
  | none => targetPath

def forwardRequest (peers : List Str) (peerName targetPath : Str) : Forwarded :=
  if peerName ∉ peers then
    .peerUnavailable 502 (str "x-medkit-peer-unavailable")
      (str "Peer '" ++ peerName ++ str "' is not known to this gateway")
  else if ¬ str "/api/v1/" <+: targetPath then
    .invalidRequest 400 (str "Forwarded request path must start with /api/v1/")
  else .sent peerName (forwardedPath peerName targetPath)

end Aggregation

end Medkit.Gateway
