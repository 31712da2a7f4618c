import Medkit.Lib.Bytes
import Medkit.Lib.OrderedMap

/-! The entities of the gateway: areas, components, apps and functions, with the
nameplate of a component. JSON values inside them are their texts. -/
namespace Medkit.Gateway

open Lib

inductive SovdEntityType where
  | server
  | area
  | component
  | app
  | function
  | unknown
deriving DecidableEq

/-! ## Nameplates -/

inductive IdentityField where
  | manufacturer
  | model
  | orderCode
  | serialNumber
  | hardwareRevision
  | firmwareVersion
  | softwareVersion
  | networkEndpoint
  | role
deriving DecidableEq

namespace IdentityField

def provKey : IdentityField → Str
  | manufacturer => str "manufacturer"
  | model => str "model"
  | orderCode => str "order_code"
  | serialNumber => str "serial_number"
  | hardwareRevision => str "hardware_revision"
  | firmwareVersion => str "firmware_version"
  | softwareVersion => str "software_version"
  | networkEndpoint => str "network_endpoint"
  | role => str "role"

end IdentityField

def identityFields : List IdentityField :=
  [.manufacturer, .model, .orderCode, .serialNumber, .hardwareRevision, .firmwareVersion,
    .softwareVersion, .networkEndpoint, .role]

structure AssetIdentity where
  manufacturer : Str := []
  model : Str := []
  orderCode : Str := []
  serialNumber : Str := []
  hardwareRevision : Str := []
  firmwareVersion : Str := []
  softwareVersion : Str := []
  networkEndpoint : Str := []
  role : Str := []
  extra : OMap Str Str := ∅
  provenance : OMap Str Str := ∅
deriving DecidableEq

namespace AssetIdentity

def get (identity : AssetIdentity) : IdentityField → Str
  | .manufacturer => identity.manufacturer
  | .model => identity.model
  | .orderCode => identity.orderCode
  | .serialNumber => identity.serialNumber
  | .hardwareRevision => identity.hardwareRevision
  | .firmwareVersion => identity.firmwareVersion
  | .softwareVersion => identity.softwareVersion
  | .networkEndpoint => identity.networkEndpoint
  | .role => identity.role

def set (identity : AssetIdentity) (value : Str) : IdentityField → AssetIdentity
  | .manufacturer => { identity with manufacturer := value }
  | .model => { identity with model := value }
  | .orderCode => { identity with orderCode := value }
  | .serialNumber => { identity with serialNumber := value }
  | .hardwareRevision => { identity with hardwareRevision := value }
  | .firmwareVersion => { identity with firmwareVersion := value }
  | .softwareVersion => { identity with softwareVersion := value }
  | .networkEndpoint => { identity with networkEndpoint := value }
  | .role => { identity with role := value }

theorem get_set_of_ne (identity : AssetIdentity) (value : Str) {field field' : IdentityField}
    (h : field' ≠ field) : (identity.set value field).get field' = identity.get field' := by
  cases field <;> cases field' <;> first | rfl | exact absurd rfl h

end AssetIdentity

/-! ## Resources -/

structure ComponentTopics where
  publishes : List Str := []
  subscribes : List Str := []
deriving DecidableEq

structure ServiceInfo where
  name : Str
  fullPath : Str
  type : Str
  typeInfo : Option Str := none
deriving DecidableEq

structure ActionInfo where
  name : Str
  fullPath : Str
  type : Str
  typeInfo : Option Str := none
deriving DecidableEq

/-! ## Entities -/

structure Area where
  id : Str
  name : Str := []
  namespacePath : Str := []
  type : Str := str "Area"
  translationId : Str := []
  description : Str := []
  tags : List Str := []
  parentAreaId : Str := []
  source : Str := []
  contributors : List Str := []
  declaredSource : Str := []
deriving DecidableEq

structure Component where
  id : Str
  name : Str := []
  namespacePath : Str := []
  fqn : Str := []
  type : Str := str "Component"
  area : Str := []
  source : Str := str "node"
  translationId : Str := []
  description : Str := []
  variant : Str := []
  tags : List Str := []
  parentComponentId : Str := []
  dependsOn : List Str := []
  contributors : List Str := []
  declaredSource : Str := []
  available : Bool := true
  services : List ServiceInfo := []
  actions : List ActionInfo := []
  topics : ComponentTopics := {}
  hostMetadata : Option Str := none
  identity : AssetIdentity := {}
  external : Option Bool := none
deriving DecidableEq

structure RosBinding where
  nodeName : Str := []
  namespacePattern : Str := []
  topicNamespace : Str := []
deriving DecidableEq

def RosBinding.isEmpty (binding : RosBinding) : Bool :=
  binding.nodeName = [] && binding.topicNamespace = []

structure App where
  id : Str
  name : Str := []
  translationId : Str := []
  description : Str := []
  tags : List Str := []
  componentId : Str := []
  dependsOn : List Str := []
  rosBinding : Option RosBinding := none
  boundFqn : Option Str := none
  isOnline : Bool := false
  external : Option Bool := none
  topics : ComponentTopics := {}
  services : List ServiceInfo := []
  actions : List ActionInfo := []
  source : Str := str "manifest"
  originalId : Str := []
  contributors : List Str := []
  declaredSource : Str := []
  available : Bool := true
deriving DecidableEq

/-- The node name that the binding of an app stands for; patterns stand for none. -/
def App.bindingFqn (app : App) : Str :=
  match app.rosBinding with
  | none => []
  | some binding =>
      let ns := binding.namespacePattern
      if binding.nodeName = [] then []
      else if str "*" <:+: ns then []
      else if ns = [] then str "/" ++ binding.nodeName
      else if ns.getLast? ≠ (str "/").getLast? then ns ++ str "/" ++ binding.nodeName
      else ns ++ binding.nodeName

def App.effectiveFqn (app : App) : Str :=
  match app.boundFqn with
  | some fqn => if fqn = [] then app.bindingFqn else fqn
  | none => app.bindingFqn

structure SovdFunction where
  id : Str
  name : Str := []
  translationId : Str := []
  description : Str := []
  tags : List Str := []
  hosts : List Str := []
  dependsOn : List Str := []
  source : Str := str "manifest"
  contributors : List Str := []
  declaredSource : Str := []
deriving DecidableEq

end Medkit.Gateway
