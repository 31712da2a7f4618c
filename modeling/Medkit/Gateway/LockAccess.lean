import Medkit.Gateway.Entities
import Medkit.Lib.OrderedMap

/-! Which requests the locks let through. A lock on a component protects its apps, and a lock
on an area its components and their apps; the entities above may form longer chains, which the
check does not follow. Times are readings of the steady clock in nanoseconds. -/
namespace Medkit.Gateway

open Lib

/-! ## Configuration -/

structure EntityLockConfig where
  requiredScopes : List Str := []
  breakable : Bool := true
  maxExpiration : Int := 0

structure LockConfig where
  enabled : Bool := true
  defaultMaxExpiration : Int := 3600
  typeDefaults : OMap Str EntityLockConfig := ∅
  entityOverrides : OMap Str EntityLockConfig := ∅

def getEntityTypeString : SovdEntityType → Str
  | .area => str "area"
  | .component => str "component"
  | .app => str "app"
  | .server | .function | .unknown => str "unknown"

namespace LockConfig

def getEntityConfig (config : LockConfig) (entityId entityType : Str) : EntityLockConfig :=
  match config.entityOverrides[entityId]? with
  | some entityConfig => entityConfig
  | none =>
      match config.typeDefaults[entityType]? with
      | some typeConfig => typeConfig
      | none => {}

def forEntity (config : LockConfig) (entityId : Str) (type : SovdEntityType) : EntityLockConfig :=
  config.getEntityConfig entityId (getEntityTypeString type)

end LockConfig

/-! ## Locks -/

structure LockInfo where
  lockId : Str
  entityId : Str
  clientId : Str
  scopes : List Str
  breakable : Bool := true
  createdAt : Int
  expiresAt : Int
  expirationSeconds : Int := 0

structure LockManager where
  locks : OMap Str LockInfo := ∅

/-! ## The check -/

structure EntityLookup where
  getApp : Str → Option App
  getComponent : Str → Option Component
  getArea : Str → Option Area
  getEntityType : Str → SovdEntityType

structure LockAccessResult where
  allowed : Bool := true
  deniedByLockId : Str := []
  deniedReason : Str := []
  deniedCode : Str := []

/-- No scopes means all collections. -/
def lockCoversCollection (lock : LockInfo) (collection : Str) : Bool :=
  lock.scopes = [] || collection ∈ lock.scopes

section Check

variable (config : LockConfig) (m : LockManager) (cache : EntityLookup)
  (entityId clientId collection : Str)

def checkEntity (now : Int) (checkId : Str) : Option LockAccessResult :=
  match m.locks[checkId]? with
  | none => none
  | some lock =>
      if lock.expiresAt ≤ now then none
      else if lock.clientId = clientId then none
      else if lockCoversCollection lock collection then
        some ⟨false, lock.lockId, str "Entity '" ++ checkId ++ str "' is locked by another client",
          str "lock-conflict"⟩
      else none

def areaOf (componentId : Str) : List Str :=
  match cache.getComponent componentId with
  | some component => if component.area ≠ [] then [component.area] else []
  | none => []

def aboveApp : List Str :=
  match cache.getApp entityId with
  | some app =>
      if app.componentId ≠ [] then app.componentId :: areaOf cache app.componentId else []
  | none => []

def walked : List Str := entityId :: (aboveApp cache entityId ++ areaOf cache entityId)

def hasValidLock (now : Int) : Bool :=
  match m.locks[entityId]? with
  | some lock => lock.clientId = clientId && decide (now < lock.expiresAt)
  | none => false

/-- The clock is read once for the required lock and once for the walk. -/
def checkAccess (nowRequired now : Int) : LockAccessResult :=
  if ¬ config.enabled then {}
  else if collection ∈ (config.forEntity entityId (cache.getEntityType entityId)).requiredScopes ∧
      ¬ hasValidLock m entityId clientId nowRequired then
    ⟨false, [], str "A lock is required for " ++ collection ++ str " on this entity",
      str "lock-required"⟩
  else ((walked cache entityId).findSome? (checkEntity m clientId collection now)).getD {}

end Check

/-! ## Chains -/

inductive ParentEntity (cache : EntityLookup) : SovdEntityType × Str → SovdEntityType × Str → Prop
  | component {id : Str} {app : App} : cache.getApp id = some app → app.componentId ≠ [] →
      ParentEntity cache (.app, id) (.component, app.componentId)
  | parentComponent {id : Str} {component : Component} : cache.getComponent id = some component →
      component.parentComponentId ≠ [] →
      ParentEntity cache (.component, id) (.component, component.parentComponentId)
  | area {id : Str} {component : Component} : cache.getComponent id = some component →
      component.area ≠ [] → ParentEntity cache (.component, id) (.area, component.area)
  | parentArea {id : Str} {area : Area} : cache.getArea id = some area → area.parentAreaId ≠ [] →
      ParentEntity cache (.area, id) (.area, area.parentAreaId)

def OnChain (cache : EntityLookup) (entity : SovdEntityType × Str) (id : Str) : Prop :=
  ∃ kind, Relation.ReflTransGen (ParentEntity cache) entity (kind, id)

/-! ## What the check decides -/

def LockedByOther (m : LockManager) (clientId collection : Str) (now : Int) (id : Str) : Prop :=
  ∃ lock, m.locks[id]? = some lock ∧ now < lock.expiresAt ∧ lock.clientId ≠ clientId ∧
    lockCoversCollection lock collection

def OwnLock (m : LockManager) (clientId : Str) (now : Int) (id : Str) (lock : LockInfo) : Prop :=
  m.locks[id]? = some lock ∧ now < lock.expiresAt ∧ lock.clientId = clientId

variable {config : LockConfig} {m : LockManager} {cache : EntityLookup}
  {entityId clientId collection : Str} {nowRequired now : Int}

theorem checkEntity_eq_none_iff {id : Str} :
    checkEntity m clientId collection now id = none ↔
      ¬ LockedByOther m clientId collection now id := by
  unfold checkEntity LockedByOther
  cases hlock : m.locks[id]? with
  | none => simp
  | some lock =>
    simp only [Option.some.injEq, exists_eq_left']
    split
    · next h => simp [not_lt.mpr h]
    · split
      · next h => simp [h]
      · rename_i h h'
        split
        · next hcovers => simp [hcovers, h', not_le.mp h]
        · next hcovers => simp [hcovers]

theorem allowed_of_checkEntity {id : Str} {result : LockAccessResult}
    (h : checkEntity m clientId collection now id = some result) : result.allowed = false := by
  unfold checkEntity at h
  grind

theorem hasValidLock_iff :
    hasValidLock m entityId clientId now ↔ ∃ lock, OwnLock m clientId now entityId lock := by
  unfold hasValidLock OwnLock
  cases hlock : m.locks[entityId]? with
  | none => simp
  | some lock => simp [and_comm]

theorem checkAccess_allowed_iff (henabled : config.enabled = true) :
    (checkAccess config m cache entityId clientId collection nowRequired now).allowed ↔
      (collection ∈ (config.forEntity entityId (cache.getEntityType entityId)).requiredScopes →
        ∃ lock, OwnLock m clientId nowRequired entityId lock) ∧
      ∀ id ∈ walked cache entityId, ¬ LockedByOther m clientId collection now id := by
  unfold checkAccess
  rw [if_neg (not_not_intro henabled)]
  split
  · rename_i hrequired
    rw [hasValidLock_iff] at hrequired
    refine ⟨fun h => absurd h (by simp), fun h => ?_⟩
    exact absurd (h.1 hrequired.1) hrequired.2
  · rename_i hrequired
    rw [hasValidLock_iff, not_and_not_right] at hrequired
    refine Iff.trans ?_ (and_iff_right hrequired).symm
    cases hwalk : (walked cache entityId).findSome? (checkEntity m clientId collection now) with
    | none =>
      rw [List.findSome?_eq_none_iff] at hwalk
      refine ⟨fun _ id hid => checkEntity_eq_none_iff.mp (hwalk id hid), fun _ => rfl⟩
    | some result =>
      obtain ⟨id, hid, hresult⟩ := List.exists_of_findSome?_eq_some hwalk
      have hdenied := allowed_of_checkEntity hresult
      refine ⟨fun h => absurd h (by simp [hdenied]), fun h => ?_⟩
      have hnone := checkEntity_eq_none_iff.mpr (h id hid)
      rw [hresult] at hnone
      cases hnone

/-- The entities whose locks protect the given one: itself, the component of an app and the
area of that component, and the area of a component. -/
inductive ProtectedBy (cache : EntityLookup) (entityId : Str) : Str → Prop
  | self : ProtectedBy cache entityId entityId
  | component {app : App} : cache.getApp entityId = some app → app.componentId ≠ [] →
      ProtectedBy cache entityId app.componentId
  | appArea {app : App} {component : Component} : cache.getApp entityId = some app →
      app.componentId ≠ [] → cache.getComponent app.componentId = some component →
      component.area ≠ [] → ProtectedBy cache entityId component.area
  | area {component : Component} : cache.getComponent entityId = some component →
      component.area ≠ [] → ProtectedBy cache entityId component.area

theorem mem_areaOf {componentId id : Str} : id ∈ areaOf cache componentId ↔
    ∃ component, cache.getComponent componentId = some component ∧ component.area ≠ [] ∧
      id = component.area := by
  unfold areaOf
  cases hcomponent : cache.getComponent componentId with
  | none => simp
  | some component =>
    by_cases harea : component.area = [] <;> simp [harea]

theorem mem_walked {id : Str} : id ∈ walked cache entityId ↔ ProtectedBy cache entityId id := by
  rw [walked, List.mem_cons, List.mem_append, mem_areaOf, aboveApp]
  constructor
  · rintro (rfl | happ | ⟨component, hcomponent, harea, rfl⟩)
    · exact .self
    · split at happ
      · rename_i app happ'
        split_ifs at happ with hcomponent
        · rcases List.mem_cons.mp happ with rfl | happ
          · exact .component happ' hcomponent
          · obtain ⟨component, hget, harea, rfl⟩ := mem_areaOf.mp happ
            exact .appArea happ' hcomponent hget harea
        · cases happ
      · cases happ
    · exact .area hcomponent harea
  · intro h
    cases h with
    | self => exact .inl rfl
    | component happ hcomponent => simp [happ, hcomponent]
    | appArea happ hcomponent hget harea =>
      refine .inr (.inl ?_)
      rw [happ]
      dsimp only
      rw [if_pos hcomponent]
      exact List.mem_cons_of_mem _ (mem_areaOf.mpr ⟨_, hget, harea, rfl⟩)
    | area hget harea => exact .inr (.inr ⟨_, hget, harea, rfl⟩)

/-- A request is let through exactly when locking is disabled, or the client holds some live
lock on the entity if one is required, and no entity that protects it is locked by another
client on the collection. -/
theorem access_follows_locks (config : LockConfig) (m : LockManager) (cache : EntityLookup)
    (entityId clientId collection : Str) (nowRequired now : Int) :
    (checkAccess config m cache entityId clientId collection nowRequired now).allowed ↔
      (config.enabled = true →
        (collection ∈ (config.forEntity entityId (cache.getEntityType entityId)).requiredScopes →
          ∃ lock, OwnLock m clientId nowRequired entityId lock) ∧
        ∀ id, ProtectedBy cache entityId id → ¬ LockedByOther m clientId collection now id) := by
  by_cases henabled : config.enabled = true
  · rw [checkAccess_allowed_iff henabled]
    simp only [mem_walked, henabled, true_imp_iff]
  · simp [checkAccess, henabled]

/-! ## Beyond the component and its area -/

def lockedArea : LockInfo where
  lockId := str "lock_1"
  entityId := str "cell"
  clientId := str "alice"
  scopes := []
  createdAt := 0
  expiresAt := 100

def cellRobot : Component := { id := str "robot", area := str "cell" }

def gripperOnRobot : EntityLookup where
  getApp _ := none
  getComponent id :=
    if id = str "gripper" then some { id := str "gripper", parentComponentId := str "robot" }
    else if id = str "robot" then some cellRobot
    else none
  getArea _ := none
  getEntityType _ := .component

def lockedRobot : LockInfo := { lockedArea with entityId := str "robot" }

def operationsLock : LockInfo :=
  { lockedArea with entityId := str "robot", scopes := [str "operations"] }

def dataRequired : LockConfig where
  typeDefaults := (∅ : OMap Str EntityLockConfig).insert (str "component")
    { requiredScopes := [str "data"] }

/-- The lock on a parent component is passed over, and a lock on another collection
counts as the required one. -/
theorem access_past_parent_and_scope :
    ((checkAccess {} { locks := (∅ : OMap Str LockInfo).insert (str "robot") lockedRobot }
        gripperOnRobot (str "gripper") (str "bob") (str "data") 0 0).allowed = true ∧
      OnChain gripperOnRobot (.component, str "gripper") (str "robot") ∧
      LockedByOther { locks := (∅ : OMap Str LockInfo).insert (str "robot") lockedRobot }
        (str "bob") (str "data") 0 (str "robot")) ∧
    (checkAccess dataRequired
        { locks := (∅ : OMap Str LockInfo).insert (str "robot") operationsLock }
        gripperOnRobot (str "robot") (str "alice") (str "data") 0 0).allowed = true ∧
      str "data" ∈ (dataRequired.forEntity (str "robot") .component).requiredScopes ∧
      lockCoversCollection operationsLock (str "data") = false := by
  have hparent : ParentEntity gripperOnRobot (.component, str "gripper") (.component, str "robot") :=
    .parentComponent (show gripperOnRobot.getComponent (str "gripper") =
      some { id := str "gripper", parentComponentId := str "robot" } from rfl) (by decide)
  refine ⟨⟨by decide, ⟨.component, .single hparent⟩, ⟨lockedRobot, by simp, by decide⟩⟩,
    by decide, by decide, by decide⟩

end Medkit.Gateway
