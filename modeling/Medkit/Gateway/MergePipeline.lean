import Medkit.Gateway.IdentityMerge

/-! Merging what the discovery layers say about one entity. Every layer has a policy per
group of fields; the layer whose policy is strictly higher takes over a group, and gaps
are filled from any layer. -/
namespace Medkit.Gateway

open Lib

/-! ## Policies -/

inductive MergePolicy where
  | authoritative
  | enrichment
  | fallback
deriving DecidableEq

inductive FieldGroup where
  | identity
  | hierarchy
  | liveData
  | status
  | metadata
deriving DecidableEq

def allFieldGroups : List FieldGroup := [.identity, .hierarchy, .liveData, .status, .metadata]

def policyPriority : MergePolicy → Nat
  | .authoritative => 2
  | .enrichment => 1
  | .fallback => 0

inductive MergeWinner where
  | target
  | source
  | both

structure MergeResolution where
  scalar : MergeWinner
  collection : MergeWinner
  isConflict : Bool := false

def resolvePolicies (targetPolicy sourcePolicy : MergePolicy) : MergeResolution :=
  if policyPriority targetPolicy > policyPriority sourcePolicy then ⟨.target, .target, false⟩
  else if policyPriority sourcePolicy > policyPriority targetPolicy then ⟨.source, .source, false⟩
  else if targetPolicy = .authoritative then ⟨.target, .target, true⟩
  else if targetPolicy = .enrichment then ⟨.both, .both, false⟩
  else ⟨.both, .both, false⟩

/-! ## Fields -/

/-- No layer erases a value by supplying none. -/
def mergeScalar (target source : Str) : MergeWinner → Str
  | .source => if source ≠ [] then source else target
  | .both => if target = [] ∧ source ≠ [] then source else target
  | .target => if target = [] ∧ source ≠ [] then source else target

/-- The source tag is exempt from the policies: the first one stays. -/
def fillProvenance (target candidate : Str) : Str := if target = [] then candidate else target

def mergeBool (target source : Bool) : MergeWinner → Bool
  | .source => source
  | .both => target || source
  | .target => target

def unionBy {α : Type} (key : α → Str) (target source : List α) : List α :=
  source.foldl (fun result s => if key s ∈ result.map key then result else result ++ [s]) target

def mergeByKey {α : Type} (key : α → Str) (target source : List α) : MergeWinner → List α
  | .source => source
  | .both => unionBy key target source
  | .target => target

def mergeCollection (target source : List Str) (winner : MergeWinner) : List Str :=
  mergeByKey id target source winner

def mergeOptional {α : Type} (target source : Option α) : MergeWinner → Option α
  | .source => if source.isSome then source else target
  | .both => if target.isNone ∧ source.isSome then source else target
  | .target => target

/-- Here a layer that does not classify never hides one that does. -/
def mergeExternal (target source : Option Bool) : MergeWinner → Option Bool
  | .source => if source.isSome then source else target
  | .both | .target => if target.isNone ∧ source.isSome then source else target

def mergeTopics (target source : ComponentTopics) (winner : MergeWinner) : ComponentTopics where
  publishes := mergeCollection target.publishes source.publishes winner
  subscribes := mergeCollection target.subscribes source.subscribes winner

/-! ## The kinds of entities -/

structure MergeKind (α : Type) where
  id : α → Str
  source : α → Str
  /-- the base entity before anything is merged into it -/
  seed : α → α
  applyFieldGroupMerge : IdentityMergeConfig → α → α → FieldGroup → MergeResolution → α
  id_seed : ∀ e, id (seed e) = id e
  source_seed : ∀ e, source (seed e) = source e
  id_apply : ∀ config target src group res,
    id (applyFieldGroupMerge config target src group res) = id target
  source_apply : ∀ config target src group res,
    source (applyFieldGroupMerge config target src group res) =
      if group = .metadata then fillProvenance (source target) (source src) else source target

structure ScalarField {α : Type} (kind : MergeKind α) where
  group : FieldGroup
  get : α → Str
  get_seed : ∀ e, get (kind.seed e) = get e
  get_apply : ∀ config target src g res,
    get (kind.applyFieldGroupMerge config target src g res) =
      if g = group then mergeScalar (get target) (get src) res.scalar else get target

def mergeAreaGroup (_ : IdentityMergeConfig) (target source : Area) (group : FieldGroup)
    (res : MergeResolution) : Area :=
  match group with
  | .identity =>
      { target with
        name := mergeScalar target.name source.name res.scalar
        translationId := mergeScalar target.translationId source.translationId res.scalar
        description := mergeScalar target.description source.description res.scalar
        tags := mergeCollection target.tags source.tags res.collection }
  | .hierarchy =>
      { target with
        namespacePath := mergeScalar target.namespacePath source.namespacePath res.scalar
        parentAreaId := mergeScalar target.parentAreaId source.parentAreaId res.scalar }
  | .metadata => { target with source := fillProvenance target.source source.source }
  | .liveData | .status => target

def mergeComponentGroup (config : IdentityMergeConfig) (target source : Component)
    (group : FieldGroup) (res : MergeResolution) : Component :=
  match group with
  | .identity =>
      { target with
        name := mergeScalar target.name source.name res.scalar
        translationId := mergeScalar target.translationId source.translationId res.scalar
        description := mergeScalar target.description source.description res.scalar
        tags := mergeCollection target.tags source.tags res.collection
        identity := mergeIdentity target.identity source.identity source.source config }
  | .hierarchy =>
      { target with
        namespacePath := mergeScalar target.namespacePath source.namespacePath res.scalar
        fqn := mergeScalar target.fqn source.fqn res.scalar
        area := mergeScalar target.area source.area res.scalar
        parentComponentId :=
          mergeScalar target.parentComponentId source.parentComponentId res.scalar
        dependsOn := mergeCollection target.dependsOn source.dependsOn res.collection }
  | .liveData =>
      { target with
        topics := mergeTopics target.topics source.topics res.collection
        services := mergeByKey (·.fullPath) target.services source.services res.collection
        actions := mergeByKey (·.fullPath) target.actions source.actions res.collection }
  | .metadata =>
      { target with
        source := fillProvenance target.source source.source
        variant := mergeScalar target.variant source.variant res.scalar
        external := mergeExternal target.external source.external res.scalar }
  | .status => target

def mergeAppGroup (_ : IdentityMergeConfig) (target source : App) (group : FieldGroup)
    (res : MergeResolution) : App :=
  match group with
  | .identity =>
      { target with
        name := mergeScalar target.name source.name res.scalar
        translationId := mergeScalar target.translationId source.translationId res.scalar
        description := mergeScalar target.description source.description res.scalar
        tags := mergeCollection target.tags source.tags res.collection }
  | .hierarchy =>
      { target with
        componentId := mergeScalar target.componentId source.componentId res.scalar
        dependsOn := mergeCollection target.dependsOn source.dependsOn res.collection }
  | .liveData =>
      { target with
        topics := mergeTopics target.topics source.topics res.collection
        services := mergeByKey (·.fullPath) target.services source.services res.collection
        actions := mergeByKey (·.fullPath) target.actions source.actions res.collection }
  | .status =>
      { target with
        isOnline := mergeBool target.isOnline source.isOnline res.scalar
        boundFqn := mergeOptional target.boundFqn source.boundFqn res.scalar }
  | .metadata =>
      { target with
        source := fillProvenance target.source source.source
        rosBinding := mergeOptional target.rosBinding source.rosBinding res.scalar
        external := mergeExternal target.external source.external res.scalar }

def mergeFunctionGroup (_ : IdentityMergeConfig) (target source : SovdFunction)
    (group : FieldGroup) (res : MergeResolution) : SovdFunction :=
  match group with
  | .identity =>
      { target with
        name := mergeScalar target.name source.name res.scalar
        translationId := mergeScalar target.translationId source.translationId res.scalar
        description := mergeScalar target.description source.description res.scalar
        tags := mergeCollection target.tags source.tags res.collection }
  | .hierarchy =>
      { target with
        hosts := mergeCollection target.hosts source.hosts res.collection
        dependsOn := mergeCollection target.dependsOn source.dependsOn res.collection }
  | .metadata => { target with source := fillProvenance target.source source.source }
  | .liveData | .status => target

def areaKind : MergeKind Area where
  id := Area.id
  source := Area.source
  seed e := e
  applyFieldGroupMerge := mergeAreaGroup
  id_seed _ := rfl
  source_seed _ := rfl
  id_apply _ _ _ group _ := by cases group <;> rfl
  source_apply _ _ _ group _ := by cases group <;> rfl

/-- The nameplate of a component is stamped with its source first. -/
def componentKind : MergeKind Component where
  id := Component.id
  source := Component.source
  seed e := { e with identity := stampIdentityProvenance e.identity e.source }
  applyFieldGroupMerge := mergeComponentGroup
  id_seed _ := rfl
  source_seed _ := rfl
  id_apply _ _ _ group _ := by cases group <;> rfl
  source_apply _ _ _ group _ := by cases group <;> rfl

def appKind : MergeKind App where
  id := App.id
  source := App.source
  seed e := e
  applyFieldGroupMerge := mergeAppGroup
  id_seed _ := rfl
  source_seed _ := rfl
  id_apply _ _ _ group _ := by cases group <;> rfl
  source_apply _ _ _ group _ := by cases group <;> rfl

def functionKind : MergeKind SovdFunction where
  id := SovdFunction.id
  source := SovdFunction.source
  seed e := e
  applyFieldGroupMerge := mergeFunctionGroup
  id_seed _ := rfl
  source_seed _ := rfl
  id_apply _ _ _ group _ := by cases group <;> rfl
  source_apply _ _ _ group _ := by cases group <;> rfl

/-! ## Layers -/

structure LayerOutput where
  areas : List Area := []
  components : List Component := []
  apps : List App := []
  functions : List SovdFunction := []

structure DiscoveryLayer where
  name : Str := []
  policyFor : FieldGroup → MergePolicy := fun _ => .fallback
  ownsProtectedEntities : Bool := false
  providesRuntimeApps : Bool := false
  linkingApps : List App := []
  filteredCount : Nat := 0
  /-- what it finds, given what the layers before it have found; none if it throws -/
  discover : LayerOutput → Option LayerOutput := fun _ => some {}

def layerAt (layers : List DiscoveryLayer) (idx : Nat) : DiscoveryLayer := layers.getD idx {}

structure MergeConflict where
  entityId : Str
  fieldGroup : FieldGroup
  winningLayer : Str
  losingLayer : Str

structure MergeReport where
  layers : List Str := []
  conflicts : List MergeConflict := []
  entitySource : OMap Str Str := ∅
  totalEntities : Nat := 0
  enrichedCount : Nat := 0
  conflictCount : Nat := 0
  idCollisionCount : Nat := 0
  filteredByGapFill : Nat := 0

/-! ## Merging by id -/

section MergeEntities

variable {α : Type} (kind : MergeKind α) (config : IdentityMergeConfig)
  (layers : List DiscoveryLayer)

structure LayerEntity (α : Type) where
  layerIdx : Nat
  entity : α

structure Collected (α : Type) where
  byId : OMap Str (List (LayerEntity α)) := ∅
  insertionOrder : List Str := []

def collect (collected : Collected α) (entry : LayerEntity α) : Collected α :=
  let id := kind.id entry.entity
  { byId := collected.byId.insert id ((collected.byId[id]?).getD [] ++ [entry])
    insertionOrder :=
      if id ∈ collected.byId then collected.insertionOrder else collected.insertionOrder ++ [id] }

def contributions (layerEntities : List (Nat × List α)) : List (LayerEntity α) :=
  layerEntities.flatMap fun layer => layer.2.map (LayerEntity.mk layer.1)

structure Merging (α : Type) where
  merged : α
  /-- the layer that owns each group of fields -/
  fgOwner : FieldGroup → Nat
  report : MergeReport

def mergeGroup (id : Str) (entry : LayerEntity α) (state : Merging α) (fg : FieldGroup) :
    Merging α :=
  let currentOwner := state.fgOwner fg
  let targetPolicy := (layerAt layers currentOwner).policyFor fg
  let sourcePolicy := (layerAt layers entry.layerIdx).policyFor fg
  let res := resolvePolicies targetPolicy sourcePolicy
  { merged := kind.applyFieldGroupMerge config state.merged entry.entity fg res
    fgOwner :=
      if ¬ res.isConflict ∧ policyPriority sourcePolicy > policyPriority targetPolicy then
        Function.update state.fgOwner fg entry.layerIdx
      else state.fgOwner
    report :=
      if res.isConflict then
        { state.report with
          conflicts := state.report.conflicts ++ [⟨id, fg, (layerAt layers currentOwner).name,
            (layerAt layers entry.layerIdx).name⟩]
          conflictCount := state.report.conflictCount + 1 }
      else state.report }

def mergeEntry (id : Str) (state : Merging α) (entry : LayerEntity α) : Merging α :=
  allFieldGroups.foldl (mergeGroup kind config layers id entry)
    { state with report := { state.report with enrichedCount := state.report.enrichedCount + 1 } }

/-- The first contribution is the base and its layer owns every group at first. -/
def mergeEntries (id : Str) (first : LayerEntity α) (rest : List (LayerEntity α))
    (report : MergeReport) : Merging α :=
  rest.foldl (mergeEntry kind config layers id)
    { merged := kind.seed first.entity
      fgOwner := fun _ => first.layerIdx
      report := { report with
        entitySource := report.entitySource.insert id (layerAt layers first.layerIdx).name } }

structure MergedEntities (α : Type) where
  entities : List α := []
  report : MergeReport
  /-- the ids owned by a layer that protects its entities -/
  protectedEntityIds : OSet Str

def mergeId (collected : Collected α) (state : MergedEntities α) (id : Str) : MergedEntities α :=
  match (collected.byId[id]?).getD [] with
  | [] => state
  | first :: rest =>
      let merging := mergeEntries kind config layers id first rest state.report
      { entities := state.entities ++ [merging.merged]
        report := merging.report
        protectedEntityIds :=
          if (layerAt layers first.layerIdx).ownsProtectedEntities then
            state.protectedEntityIds.insert id
          else state.protectedEntityIds }

def mergeEntities (layerEntities : List (Nat × List α)) (report : MergeReport)
    (protectedEntityIds : OSet Str) : MergedEntities α :=
  let collected := (contributions layerEntities).foldl (collect kind) {}
  collected.insertionOrder.foldl (mergeId kind config layers collected)
    { report := report, protectedEntityIds := protectedEntityIds }

end MergeEntities

end Medkit.Gateway
