import Medkit.Lib.Ensures
import Medkit.Lib.Substring
import Medkit.Gateway.Aggregation

/-! How the entities of a peer are fetched: the four collections, the nested collections and the
details of components and functions, one request after the other. The peer may answer each request
as it likes, depending on all requests before it. -/
namespace Medkit.Gateway.PeerClient

open Lib

/-! ## JSON -/

inductive Json
  | null
  | bool (value : Bool)
  | number (text : Str)
  | string (value : Str)
  | array (items : List Json)
  | object (fields : List (Str × Json))

inductive JsonError
  | notAnObject
  | wrongType

namespace Json

def find? (key : Str) : Json → Option Json
  | .object fields => (fields.find? fun field => field.1 = key).map Prod.snd
  | _ => none

def isObject : Json → Bool
  | .object _ => true
  | _ => false

def objectAt (j : Json) (key : Str) : Option Json := (j.find? key).filter isObject

def getString : Json → Except JsonError Str
  | .string value => .ok value
  | _ => .error .wrongType

def getBool : Json → Except JsonError Bool
  | .bool value => .ok value
  | _ => .error .wrongType

/-- The value of a key or else the default; a value of another type throws. -/
def value {α : Type} (get : Json → Except JsonError α) (j : Json) (key : Str) (default : α) :
    Except JsonError α :=
  match j with
  | .object _ =>
      match j.find? key with
      | some found => get found
      | none => .ok default
  | _ => .error .notAnObject

def valueString (j : Json) (key : Str) : Except JsonError Str := value getString j key []

def stringsAt (j : Json) (key : Str) : Except JsonError (List Str) :=
  match j.find? key with
  | some (.array items) => items.mapM getString
  | _ => .ok []

def stringAt (j : Json) (key : Str) : Except JsonError Str :=
  match j.find? key with
  | some found => found.getString
  | none => .ok []

end Json

/-! ## Entities -/

def isValidEntityId (id : Str) : Bool :=
  id ≠ [] && id.length ≤ 256 && id.all fun b => isAlnumByte b || b = 95 || b = 45

def parseCollection {α : Type} (response : Json) (parser : Json → Except JsonError α) :
    Except JsonError (List α) :=
  match response.find? (str "items") with
  | some (.array items) => items.mapM parser
  | _ => .ok []

def parseArea (j : Json) : Except JsonError Area := do
  let mut area : Area := { id := ← j.valueString (str "id"), name := ← j.valueString (str "name") }
  if let some xm := j.objectAt (str "x-medkit") then
    area := { area with
      namespacePath := ← xm.valueString (str "namespace")
      description := ← xm.valueString (str "description")
      source := ← xm.valueString (str "source") }
  return { area with
    translationId := ← j.stringAt (str "translationId")
    tags := ← j.stringsAt (str "tags") }

def assetIdentityFromJson (j : Json) : AssetIdentity :=
  let text (key : Str) : Str :=
    match j.find? key with
    | some (.string value) => value
    | _ => []
  let entries (key : Str) : OMap Str Str :=
    match j.find? key with
    | some (.object fields) => fields.foldl (fun map field =>
        match field.2 with
        | .string value => map.insert field.1 value
        | _ => map) ∅
    | _ => ∅
  { manufacturer := text (str "manufacturer")
    model := text (str "model")
    orderCode := text (str "orderCode")
    serialNumber := text (str "serialNumber")
    hardwareRevision := text (str "hardwareRevision")
    firmwareVersion := text (str "firmwareVersion")
    softwareVersion := text (str "softwareVersion")
    networkEndpoint := text (str "networkEndpoint")
    role := text (str "role")
    extra := entries (str "extra")
    provenance := entries (str "_provenance") }

def parseComponent (j : Json) : Except JsonError Component := do
  let mut comp : Component :=
    { id := ← j.valueString (str "id"), name := ← j.valueString (str "name") }
  if let some xm := j.objectAt (str "x-medkit") then
    comp := { comp with
      namespacePath := ← xm.valueString (str "namespace")
      fqn := ← xm.valueString (str "fqn")
      area := ← xm.valueString (str "area")
      source := ← xm.valueString (str "source")
      description := ← xm.valueString (str "description")
      variant := ← xm.valueString (str "variant")
      parentComponentId := ← xm.valueString (str "parentComponentId")
      dependsOn := ← xm.stringsAt (str "dependsOn")
      identity := ((xm.objectAt (str "identity")).map assetIdentityFromJson).getD {}
      -- emitted only to say false
      available := ← Json.value Json.getBool xm (str "available") true }
  return { comp with
    translationId := ← j.stringAt (str "translationId")
    tags := ← j.stringsAt (str "tags") }

def afterLast (marker : Str) : Str → Option Str
  | [] => none
  | b :: rest =>
      match afterLast marker rest with
      | some found => some found
      | none => if marker <+: b :: rest then some ((b :: rest).drop marker.length) else none

def componentIdFromLocatedOn (uri : Str) : Str :=
  match afterLast (str "/components/") uri with
  | none => []
  | some rest =>
      let candidate := rest.takeWhile fun b => b ∉ str "/?#"
      if isValidEntityId candidate then candidate else []

/-- The component of an app from the relationship of the standard, in its three spellings. -/
def locatedOn (j : Json) : Except JsonError Str := do
  let direct : Str :=
    match j.find? (str "is-located-on") with
    | some (.string uri) => componentIdFromLocatedOn uri
    | _ => []
  if direct ≠ [] then return direct
  match (j.objectAt (str "_links")).bind (Json.find? (str "is-located-on")) with
  | some (.string uri) => return componentIdFromLocatedOn uri
  | some (.object fields) =>
      let href ← (Json.object fields).valueString (str "href")
      return if href = [] then direct else componentIdFromLocatedOn href
  | _ => return direct

def parseApp (j : Json) : Except JsonError App := do
  let mut app : App :=
    { id := ← j.valueString (str "id")
      name := ← j.valueString (str "name")
      description := ← j.valueString (str "description")
      componentId := ← locatedOn j }
  if let some xm := j.objectAt (str "x-medkit") then
    if app.componentId = [] then
      let candidate ← xm.valueString (str "component_id")
      if isValidEntityId candidate then app := { app with componentId := candidate }
    app := { app with
      source := ← xm.valueString (str "source")
      isOnline := ← Json.value Json.getBool xm (str "is_online") false
      available := ← Json.value Json.getBool xm (str "available") true }
    if app.description = [] then
      app := { app with description := ← xm.valueString (str "description") }
  return { app with
    translationId := ← j.stringAt (str "translationId")
    tags := ← j.stringsAt (str "tags") }

def parseFunction (j : Json) : Except JsonError SovdFunction := do
  let mut func : SovdFunction :=
    { id := ← j.valueString (str "id"), name := ← j.valueString (str "name") }
  if let some xm := j.objectAt (str "x-medkit") then
    func := { func with
      source := ← xm.valueString (str "source")
      description := ← xm.valueString (str "description")
      hosts := ← xm.stringsAt (str "hosts") }
  return { func with
    translationId := ← j.stringAt (str "translationId")
    tags := ← j.stringsAt (str "tags") }

def items (j : Json) : List Json :=
  match j.find? (str "items") with
  | some (.array items) => items
  | _ => []

structure Operation where
  isAction : Bool
  name : Str
  fullPath : Str
  type : Str

def parseOperation (item : Json) : Except JsonError (Option Operation) := do
  if !item.isObject then return none
  let name ← item.valueString (str "name")
  if name = [] then return none
  let mut fullPath : Str := []
  let mut type : Str := []
  let mut isAction ← Json.value Json.getBool item (str "asynchronous_execution") false
  if let some ros2 := (item.objectAt (str "x-medkit")).bind (·.objectAt (str "ros2")) then
    type ← ros2.valueString (str "type")
    fullPath ← ros2.valueString (str "service")
    if fullPath = [] then
      fullPath ← ros2.valueString (str "action")
      isAction := isAction || fullPath ≠ []
    let kind ← ros2.valueString (str "kind")
    if kind ≠ [] then isAction := kind = str "action"
  if fullPath = [] then return none
  return some { isAction, name, fullPath, type }

def addOperation (app : App) : Option Operation → App
  | none => app
  | some op =>
      if op.isAction then
        { app with actions := app.actions ++ [⟨op.name, op.fullPath, op.type, none⟩] }
      else { app with services := app.services ++ [⟨op.name, op.fullPath, op.type, none⟩] }

def parseOperationsInto (j : Json) (app : App) : Except JsonError App :=
  (items j).foldlM (fun app item => (parseOperation item).map (addOperation app)) app

def parseDataItem (item : Json) : Except JsonError (Option (Str × Str)) := do
  let some ros2 := (item.objectAt (str "x-medkit")).bind (·.objectAt (str "ros2")) | return none
  let topic ← ros2.valueString (str "topic")
  let direction ← ros2.valueString (str "direction")
  if topic = [] then return none
  return some (topic, direction)

/-- A topic is recorded by its direction; any direction but the three is passed over. -/
def addTopic (app : App) : Option (Str × Str) → App
  | none => app
  | some (topic, direction) =>
      let publishes := direction = str "publish" || direction = str "both"
      let subscribes := direction = str "subscribe" || direction = str "both"
      { app with
        topics :=
          { publishes := app.topics.publishes ++ if publishes then [topic] else []
            subscribes := app.topics.subscribes ++ if subscribes then [topic] else [] } }

def parseDataItemsInto (j : Json) (app : App) : Except JsonError App :=
  (items j).foldlM (fun app item => (parseDataItem item).map (addTopic app)) app

/-! ## Requests -/

inductive Request
  | areas
  | subareas (id : Str)
  | components
  | component (id : Str)
  | subcomponents (id : Str)
  | apps
  | operations (id : Str)
  | data (id : Str)
  | functions
  | function (id : Str)

inductive RouteKind
  | collection
  | nestedCollection
  | addressableDetail
  | groupingDetail
  deriving DecidableEq

namespace Request

def route : Request → Str
  | .areas => str "/areas"
  | .subareas id => str "/areas/" ++ id ++ str "/subareas"
  | .components => str "/components"
  | .component id => str "/components/" ++ id
  | .subcomponents id => str "/components/" ++ id ++ str "/subcomponents"
  | .apps => str "/apps"
  | .operations id => str "/apps/" ++ id ++ str "/operations"
  | .data id => str "/apps/" ++ id ++ str "/data"
  | .functions => str "/functions"
  | .function id => str "/functions/" ++ id

def path (request : Request) : Str := str "/api/v1" ++ request.route

def inserted : Request → Option Str
  | .subareas id | .component id | .subcomponents id | .operations id | .data id | .function id =>
      some id
  | _ => none

def kind : Request → RouteKind
  | .areas | .components | .apps | .functions => .collection
  | .subareas _ | .subcomponents _ | .operations _ | .data _ => .nestedCollection
  | .component _ => .addressableDetail
  | .function _ => .groupingDetail

end Request

structure Response where
  status : Nat
  json : Option Json
  size : Nat := 0

inductive SubResponse
  | body (json : Json)
  | routeAbsent
  | entityUnreachable
  | incomplete (error : Str)

def SubResponse.error : SubResponse → Str
  | .incomplete error => error
  | _ => []

def maxPeerResponseSize : Nat := 10 * 1024 * 1024

def maxEntitiesPerCollection : Nat := 1000

def saysNotResponding (response : Response) : Except JsonError Bool :=
  if maxPeerResponseSize < response.size then .ok false
  else
    match response.json with
    | some (.object fields) => do
        return (← (Json.object fields).valueString (str "error_code")) = str "not-responding"
    | _ => .ok false

def readBody (peerName : Str) (request : Request) (response : Response) : SubResponse :=
  if response.status ≠ 200 then
    .incomplete (str "Peer '" ++ peerName ++ str "' returned status " ++
      decimal response.status ++ str " for " ++ request.route)
  else if maxPeerResponseSize < response.size then
    .incomplete (str "Response from peer '" ++ peerName ++ str "' for " ++ request.route ++
      str " exceeds size limit")
  else
    match response.json with
    | some json => .body json
    | none =>
        .incomplete (str "Invalid JSON from peer '" ++ peerName ++ str "' for " ++ request.route)

def readSubResponse (peerName : Str) (request : Request) :
    Option Response → Except JsonError SubResponse
  | none =>
      .ok (.incomplete (str "Failed to connect to peer '" ++ peerName ++ str "' for " ++
        request.route))
  | some response =>
      if response.status = 404 ∧ request.kind = .nestedCollection then .ok .routeAbsent
      else
        (if response.status = 504 then saysNotResponding response else .ok false).map
          fun silent : Bool =>
          if silent ∧ (request.kind = .addressableDetail ∨ request.kind = .nestedCollection) then
            .entityUnreachable
          else readBody peerName request response

/-! ## The fetch -/

/-- What the peer answers to a request after the given requests; nothing if it does not connect. -/
abbrev Peer := List Request → Request → Option Response

inductive FetchError
  | returned (message : Str)
  | thrown (error : JsonError)

structure Progress where
  requests : List Request := []
  absentRoutes : List Str := []

abbrev Fetch (α : Type) := ExceptT FetchError (StateM Progress) α

structure FetchResult where
  entities : PeerEntities
  absentRoutes : List Str

section Fetch

variable (peerName : Str) (peer : Peer)

/-- A parser's exception ends the fetch. -/
def parsed {α : Type} : Except JsonError α → Fetch α
  | .ok a => pure a
  | .error e => throw (.thrown e)

def send (request : Request) : Fetch (Option Response) := do
  let progress ← get
  set { progress with requests := progress.requests ++ [request] }
  return peer progress.requests request

def ask (request : Request) : Fetch SubResponse := do
  let result ← send peer request
  parsed (readSubResponse peerName request result)

def askBody (request : Request) : Fetch Json := do
  match ← ask peerName peer request with
  | .body json => return json
  | other => throw (.returned other.error)

def noteAbsentRoute (route : Str) : Fetch Unit :=
  modify fun progress =>
    if route ∈ progress.absentRoutes then progress
    else { progress with absentRoutes := progress.absentRoutes ++ [route] }

def peerSource : Str := str "peer:" ++ peerName

def ownArea (area : Area) : Area :=
  { area with declaredSource := area.source, source := peerSource peerName }

def ownComponent (comp : Component) : Component :=
  { comp with declaredSource := comp.source, source := peerSource peerName }

def ownApp (app : App) : App :=
  { app with declaredSource := app.source, source := peerSource peerName }

def ownFunction (func : SovdFunction) : SovdFunction :=
  { func with declaredSource := func.source, source := peerSource peerName }

def fetchCollection {α : Type} (request : Request) (parser : Json → Except JsonError α)
    (id : α → Str) (what : Str) : Fetch (List α) := do
  let body ← askBody peerName peer request
  let all ← parsed (parseCollection body parser)
  let valid := all.filter fun entity => isValidEntityId (id entity)
  if maxEntitiesPerCollection < valid.length then
    throw (.returned (str "Peer '" ++ peerName ++ str "' returned " ++ decimal valid.length ++ what ++
      str " (max " ++ decimal maxEntitiesPerCollection ++ str ")"))
  return valid

def fetchNested (request : Request) (template : Str) : Fetch (Option Json) := do
  match ← ask peerName peer request with
  | .incomplete error => throw (.returned error)
  | .routeAbsent =>
      noteAbsentRoute template
      return none
  | .entityUnreachable => return none
  | .body json => return some json

def fetchSubareas (area : Area) : Fetch (List Area) := do
  match ← fetchNested peerName peer (.subareas area.id) (str "/areas/\x7bid\x7d/subareas") with
  | none => return []
  | some body =>
      let subareas ← parsed (parseCollection body parseArea)
      return (subareas.filter fun subarea => isValidEntityId subarea.id).map (ownArea peerName)

def fetchAreas : Fetch (List Area) := do
  let areas ← fetchCollection peerName peer .areas parseArea Area.id (str " areas")
  let areas := areas.map (ownArea peerName)
  let subareas ← areas.mapM (fetchSubareas peerName peer)
  return areas ++ subareas.flatten

/-- The detail of a component takes the place of what the list gave. A component that the peer
cannot describe is kept as unavailable. -/
def describeComponent (comp : Component) (parent : Option Str) : Fetch Component := do
  match ← ask peerName peer (.component comp.id) with
  | .incomplete error => throw (.returned error)
  | .body json =>
      let detail ← parsed (parseComponent json)
      return ownComponent peerName detail
  | _ =>
      return ownComponent peerName
        { comp with
          available := false
          parentComponentId := parent.getD comp.parentComponentId }

def fetchSubcomponents (comp : Component) : Fetch (List Component) := do
  match ← fetchNested peerName peer (.subcomponents comp.id)
      (str "/components/\x7bid\x7d/subcomponents") with
  | none => return []
  | some body =>
      let subcomps ← parsed (parseCollection body parseComponent)
      (subcomps.filter fun subcomp => isValidEntityId subcomp.id).mapM fun subcomp =>
        describeComponent peerName peer subcomp (some comp.id)

def fetchComponents : Fetch (List Component) := do
  let compList ← fetchCollection peerName peer .components parseComponent Component.id
    (str " components")
  let compList ← compList.mapM fun comp => describeComponent peerName peer comp none
  let subcomps ← compList.mapM (fetchSubcomponents peerName peer)
  return compList ++ subcomps.flatten

def fetchOperations (app : App) : Fetch App := do
  match ← fetchNested peerName peer (.operations app.id) (str "/apps/\x7bid\x7d/operations") with
  | some body => parsed (parseOperationsInto body app)
  | none => return app

def fetchData (app : App) : Fetch App := do
  match ← fetchNested peerName peer (.data app.id) (str "/apps/\x7bid\x7d/data") with
  | some body => parsed (parseDataItemsInto body app)
  | none => return app

def fetchApps : Fetch (List App) := do
  let apps ← fetchCollection peerName peer .apps parseApp App.id (str " apps")
  let apps := apps.map (ownApp peerName)
  -- nodes internal to ROS 2 begin with an underscore
  let apps := apps.filter fun app => app.id.head? ≠ some 95
  apps.mapM fun app => fetchOperations peerName peer app >>= fetchData peerName peer

def fetchFunctions : Fetch (List SovdFunction) := do
  let funcList ← fetchCollection peerName peer .functions parseFunction SovdFunction.id
    (str " functions")
  funcList.mapM fun func => do
    let body ← askBody peerName peer (.function func.id)
    let detail ← parsed (parseFunction body)
    return ownFunction peerName detail

def fetchEntities (shutdownRequested : Bool) : Fetch FetchResult := do
  if shutdownRequested then
    throw (.returned (str "Peer '" ++ peerName ++
      str "': fetch_entities skipped, shutdown in progress"))
  let areas ← fetchAreas peerName peer
  let components ← fetchComponents peerName peer
  let apps ← fetchApps peerName peer
  let functions ← fetchFunctions peerName peer
  let progress ← get
  return ⟨⟨areas, components, apps, functions⟩, progress.absentRoutes⟩

end Fetch

end Medkit.Gateway.PeerClient
