import Medkit.Gateway.LockAccess
import Medkit.Lib.Machine

/-! How locks come and go. Each call takes the readings of the steady clock that it makes; they
need not be in order. -/
namespace Medkit.Gateway

open Lib

/-! ## The calls -/

def LockConfig.maxExp (config : LockConfig) (entityId : Str) (type : SovdEntityType) : Int :=
  let entityConfig := config.forEntity entityId type
  if entityConfig.maxExpiration > 0 then entityConfig.maxExpiration else config.defaultMaxExpiration

structure LockError where
  code : Str
  message : Str
  statusCode : Nat := 409
  existingLockId : Option Str := none

structure ExpiredLockInfo where
  lockId : Str
  entityId : Str
  clientId : Str
  scopes : List Str

def validLockScopes : List Str :=
  [str "data", str "operations", str "configurations", str "faults", str "modes", str "scripts",
    str "bulk-data", str "logs", str "cyclic-subscriptions"]

def lockDisabled : LockError :=
  ⟨str "lock-disabled", str "Locking is not enabled on this gateway", 403, none⟩

def invalidExpiration (message : Str) : LockError := ⟨str "invalid-expiration", message, 400, none⟩

def lockNotFound (message : Str) : LockError := ⟨str "lock-not-found", message, 404, none⟩

def lockNotOwner (lock : LockInfo) : LockError :=
  ⟨str "lock-not-owner", str "Lock is owned by a different client", 403, some lock.lockId⟩

def ofSeconds (seconds : Int) : Int := seconds * 1000000000

/-- With the index from lock ids to entities and the counter of the ids. -/
structure LockTables extends LockManager where
  lockIdIndex : OMap Str Str := ∅
  nextId : Nat := 1

namespace LockTables

variable (config : LockConfig) (m : LockTables)

def generateLockId : Str := str "lock_" ++ decimal m.nextId

def eraseLock (entityId : Str) (lock : LockInfo) : LockTables :=
  { m with lockIdIndex := m.lockIdIndex.erase lock.lockId, locks := m.locks.erase entityId }

def createLock (info : LockInfo) : LockTables :=
  { locks := m.locks.insert info.entityId info
    lockIdIndex := m.lockIdIndex.insert info.lockId info.entityId
    nextId := (m.nextId + 1) % 2 ^ 64 }

/-- The clock is read once to judge the existing lock and once more for the new one. -/
def acquire (type : SovdEntityType) (entityId clientId : Str) (scopes : List Str)
    (expirationSeconds : Int) (breakLock : Bool) (checked now : Int) :
    LockTables × Except LockError LockInfo :=
  let info : LockInfo :=
    { lockId := m.generateLockId, entityId := entityId, clientId := clientId, scopes := scopes,
      breakable := (config.forEntity entityId type).breakable, createdAt := now,
      expiresAt := now + ofSeconds expirationSeconds, expirationSeconds := expirationSeconds }
  if ¬ config.enabled then (m, .error lockDisabled)
  else
    match scopes.find? (· ∉ validLockScopes) with
    | some scope => (m, .error ⟨str "invalid-scope", str "Unknown scope: " ++ scope, 400, none⟩)
    | none =>
        if expirationSeconds ≤ 0 then
          (m, .error (invalidExpiration (str "Expiration must be greater than 0")))
        else if expirationSeconds > config.maxExp entityId type then
          (m, .error (invalidExpiration (str "Expiration exceeds maximum allowed (" ++
            intDecimal (config.maxExp entityId type) ++ str "s)")))
        else
          match m.locks[entityId]? with
          | none => (m.createLock info, .ok info)
          | some existing =>
              if existing.expiresAt ≤ checked then
                ((m.eraseLock entityId existing).createLock info, .ok info)
              else if ¬ breakLock then
                (m, .error ⟨str "lock-conflict", str "Entity is already locked by client '" ++
                  existing.clientId ++ str "'", 409, some existing.lockId⟩)
              else if ¬ existing.breakable then
                (m, .error ⟨str "lock-not-breakable", str "Existing lock is not breakable", 409,
                  some existing.lockId⟩)
              else ((m.eraseLock entityId existing).createLock info, .ok info)

def release (entityId clientId : Str) : LockTables × Except LockError Unit :=
  if ¬ config.enabled then (m, .error lockDisabled)
  else
    match m.locks[entityId]? with
    | none => (m, .error (lockNotFound (str "No lock exists for entity '" ++ entityId ++ str "'")))
    | some lock =>
        if lock.clientId ≠ clientId then (m, .error (lockNotOwner lock))
        else (m.eraseLock entityId lock, .ok ())

def extend (type : SovdEntityType) (entityId clientId : Str) (additionalSeconds now : Int) :
    LockTables × Except LockError LockInfo :=
  if ¬ config.enabled then (m, .error lockDisabled)
  else if additionalSeconds ≤ 0 then
    (m, .error (invalidExpiration (str "Extension duration must be greater than 0")))
  else if additionalSeconds > config.maxExp entityId type then
    (m, .error (invalidExpiration (str "Extension duration " ++ intDecimal additionalSeconds ++
      str "s exceeds maximum " ++ intDecimal (config.maxExp entityId type) ++ str "s")))
  else
    match m.locks[entityId]? with
    | none => (m, .error (lockNotFound (str "No lock exists for entity '" ++ entityId ++ str "'")))
    | some lock =>
        if lock.expiresAt ≤ now then
          (m.eraseLock entityId lock,
            .error (lockNotFound (str "Lock has expired for entity '" ++ entityId ++ str "'")))
        else if lock.clientId ≠ clientId then (m, .error (lockNotOwner lock))
        else
          let extended := { lock with
            expiresAt := now + ofSeconds additionalSeconds
            expirationSeconds := additionalSeconds }
          ({ m with locks := m.locks.insert entityId extended }, .ok extended)

def getLock (entityId : Str) : Option LockInfo := m.locks[entityId]?

def getLockById (lockId : Str) : Option LockInfo := m.lockIdIndex[lockId]?.bind m.getLock

def expiredLocks (now : Int) : List LockInfo :=
  (m.locks.toList.map Prod.snd).filter fun lock => lock.expiresAt ≤ now

def cleanupExpired (now : Int) : LockTables × List ExpiredLockInfo :=
  ({ m with
      locks := m.locks.keep fun _ lock => ¬ lock.expiresAt ≤ now
      lockIdIndex := m.lockIdIndex.eraseAll ((m.expiredLocks now).map (·.lockId)) },
    (m.expiredLocks now).map fun lock => ⟨lock.lockId, lock.entityId, lock.clientId, lock.scopes⟩)

end LockTables

inductive LockOp where
  | acquire (type : SovdEntityType) (entityId clientId : Str) (scopes : List Str)
      (expirationSeconds : Int) (breakLock : Bool) (checked now : Int)
  | release (entityId clientId : Str)
  | extend (type : SovdEntityType) (entityId clientId : Str) (additionalSeconds now : Int)
  | cleanupExpired (now : Int)

inductive LockReply where
  | granted (info : LockInfo)
  | released
  | expired (locks : List ExpiredLockInfo)
  | failed (error : LockError)

def lockReply {α : Type} (reply : α → LockReply) : Except LockError α → LockReply
  | .ok a => reply a
  | .error error => .failed error

def lockStep (config : LockConfig) (m : LockTables) : LockOp → LockTables × LockReply
  | .acquire type entityId clientId scopes expirationSeconds breakLock checked now =>
      Prod.map id (lockReply .granted)
        (m.acquire config type entityId clientId scopes expirationSeconds breakLock checked now)
  | .release entityId clientId =>
      Prod.map id (lockReply fun _ => .released) (m.release config entityId clientId)
  | .extend type entityId clientId additionalSeconds now =>
      Prod.map id (lockReply .granted)
        (m.extend config type entityId clientId additionalSeconds now)
  | .cleanupExpired now => Prod.map id .expired (m.cleanupExpired now)

def lockMachine (config : LockConfig) : Machine LockTables LockOp LockReply where
  init := {}
  step := lockStep config

/-! ## What a call does to the locks -/

section Steps

open LockTables Function

variable {config : LockConfig} {m : LockTables}

theorem getLock_eraseLock (entityId : Str) (lock : LockInfo) :
    (m.eraseLock entityId lock).getLock = update m.getLock entityId none := by
  funext id
  rcases eq_or_ne entityId id with rfl | hne
  · simp [getLock, eraseLock]
  · rw [update_of_ne hne.symm]
    exact OMap.getElem?_erase_of_ne hne

theorem getLock_insert (entityId : Str) (info : LockInfo) :
    (fun id => (m.locks.insert entityId info)[id]?) = update m.getLock entityId (some info) := by
  funext id
  rcases eq_or_ne entityId id with rfl | hne
  · simp
  · rw [update_of_ne hne.symm]
    exact OMap.getElem?_insert_of_ne hne info

theorem getLock_createLock (info : LockInfo) :
    (m.createLock info).getLock = update m.getLock info.entityId (some info) :=
  getLock_insert info.entityId info

theorem getLock_cleanupExpired (now : Int) (id : Str) : (m.cleanupExpired now).1.getLock id =
      (m.getLock id).filter fun lock => ¬ lock.expiresAt ≤ now := by
  simp [getLock, cleanupExpired, OMap.getElem?_keep]

inductive LockChange (config : LockConfig) (m : LockTables) :
    LockOp → (Str → Option LockInfo) → LockReply → Prop
  | failed (op : LockOp) (error : LockError) : LockChange config m op m.getLock (.failed error)
  | lapsed {type id clientId seconds now} {lock : LockInfo} (error : LockError) :
      m.getLock id = some lock → lock.expiresAt ≤ now →
      LockChange config m (.extend type id clientId seconds now) (update m.getLock id none)
        (.failed error)
  | acquired {type clientId scopes seconds breakLock checked now} (info : LockInfo) :
      config.enabled = true →
      (∀ lock, m.getLock info.entityId = some lock →
        lock.expiresAt ≤ checked ∨ breakLock = true ∧ lock.breakable = true) →
      LockChange config m
        (.acquire type info.entityId clientId scopes seconds breakLock checked now)
        (update m.getLock info.entityId (some info)) (.granted info)
  | released {id : Str} {lock : LockInfo} : m.getLock id = some lock →
      LockChange config m (.release id lock.clientId) (update m.getLock id none) .released
  | extended {type id seconds now} {lock info : LockInfo} :
      config.enabled = true → m.getLock id = some lock → info.entityId = lock.entityId →
      LockChange config m (.extend type id lock.clientId seconds now)
        (update m.getLock id (some info)) (.granted info)
  | cleaned (now : Int) :
      LockChange config m (.cleanupExpired now)
        (fun id => (m.getLock id).filter fun lock => ¬ lock.expiresAt ≤ now)
        (.expired (m.cleanupExpired now).2)

theorem LockChange.replaced {type clientId scopes seconds breakLock checked now}
    {existing : LockInfo} (info : LockInfo) (henabled : config.enabled = true)
    (hexisting : m.getLock info.entityId = some existing)
    (hgives : existing.expiresAt ≤ checked ∨ breakLock = true ∧ existing.breakable = true) :
    LockChange config m
      (.acquire type info.entityId clientId scopes seconds breakLock checked now)
      ((m.eraseLock info.entityId existing).createLock info).getLock (.granted info) := by
  rw [getLock_createLock, getLock_eraseLock, update_idem]
  refine .acquired info henabled ?_
  intro lock hlock
  obtain rfl := Option.some.inj (hexisting.symm.trans hlock)
  exact hgives

theorem lockChange_step (op : LockOp) :
    LockChange config m op (lockStep config m op).1.getLock (lockStep config m op).2 := by
  cases op with
  | acquire type entityId clientId scopes seconds breakLock checked now =>
    simp only [lockStep, Prod.map, id]
    fun_cases LockTables.acquire config m type entityId clientId scopes seconds breakLock checked
      now with
    | case1 | case2 | case3 | case4 | case7 | case8 => exact .failed _ _
    | case5 info henabled _ _ _ hfree =>
      rw [getLock_createLock]
      refine .acquired info (not_not.mp henabled) ?_
      intro lock hlock
      exact absurd (hfree.symm.trans hlock) (by simp)
    | case6 info henabled _ _ _ existing hexisting hexpired =>
      exact LockChange.replaced info (not_not.mp henabled) hexisting (.inl hexpired)
    | case9 info henabled _ _ _ existing hexisting _ hbreak hbreakable =>
      exact LockChange.replaced info (not_not.mp henabled) hexisting
        (.inr ⟨not_not.mp hbreak, not_not.mp hbreakable⟩)
  | release entityId clientId =>
    simp only [lockStep, Prod.map, id]
    fun_cases LockTables.release config m entityId clientId with
    | case1 | case2 | case3 => exact .failed _ _
    | case4 _ lock hlock howner =>
      rw [getLock_eraseLock, ← not_not.mp howner]
      exact .released hlock
  | extend type entityId clientId seconds now =>
    simp only [lockStep, Prod.map, id]
    fun_cases LockTables.extend config m type entityId clientId seconds now with
    | case1 | case2 | case3 | case4 | case6 => exact .failed _ _
    | case5 _ _ _ lock hlock hexpired =>
      rw [getLock_eraseLock]
      exact .lapsed _ hlock hexpired
    | case7 henabled _ _ lock hlock _ howner info =>
      change LockChange config m _ (fun id => (m.locks.insert entityId info)[id]?) _
      rw [getLock_insert, ← not_not.mp howner]
      exact .extended (not_not.mp henabled) hlock rfl
  | cleanupExpired now =>
    rw [show (lockStep config m (.cleanupExpired now)).1.getLock = _ from
      funext (getLock_cleanupExpired now)]
    exact .cleaned now

/-! ## Exclusion -/

def LockTables.Keyed (m : LockTables) : Prop :=
  ∀ id lock, m.getLock id = some lock → lock.entityId = id

theorem keyed_step (op : LockOp) (h : m.Keyed) : (lockStep config m op).1.Keyed := by
  intro id lock hlock
  have hchange := @lockChange_step config m op
  generalize (lockStep config m op).1.getLock = locks at hchange hlock
  generalize (lockStep config m op).2 = reply at hchange
  cases hchange with
  | failed => exact h id lock hlock
  | cleaned now => exact h id lock (Option.filter_eq_some_iff.mp hlock).1
  | _ => grind [update_apply, LockTables.Keyed]

theorem keyed_exec (config : LockConfig) (ops : List LockOp) :
    ((lockMachine config).exec (lockMachine config).init ops).Keyed := by
  refine (lockMachine config).exec_invariant LockTables.Keyed (fun op _ _ => keyed_step op) ?_
  simp [LockTables.Keyed, lockMachine, getLock]

theorem getLock_of_granted {op : LockOp} {info : LockInfo} (h : m.Keyed)
    (hgranted : (lockStep config m op).2 = .granted info) :
    config.enabled = true ∧ (lockStep config m op).1.getLock info.entityId = some info := by
  have hchange := @lockChange_step config m op
  generalize (lockStep config m op).1.getLock = locks at hchange ⊢
  rw [hgranted] at hchange
  cases hchange with
  | acquired _ henabled _ => exact ⟨henabled, update_self ..⟩
  | extended henabled hlock hentity =>
    rw [hentity, h _ _ hlock]
    exact ⟨henabled, update_self ..⟩

/-- The call has no way to take the lock from its owner, who does not give it up either: the
clock shows a time before the expiry, and a breakable lock is not broken. -/
def LockOp.Spares (lock : LockInfo) : LockOp → Prop
  | .acquire _ entityId _ _ _ breakLock checked _ => entityId = lock.entityId →
      checked < lock.expiresAt ∧ (breakLock = true → lock.breakable = false)
  | .release entityId clientId => entityId = lock.entityId → clientId ≠ lock.clientId
  | .extend _ entityId clientId _ now => entityId = lock.entityId →
      clientId ≠ lock.clientId ∧ now < lock.expiresAt
  | .cleanupExpired now => now < lock.expiresAt

instance (lock : LockInfo) : DecidablePred (LockOp.Spares lock)
  | .acquire .. | .extend .. => inferInstanceAs (Decidable (_ → _ ∧ _))
  | .release .. => inferInstanceAs (Decidable (_ → _))
  | .cleanupExpired _ => inferInstanceAs (Decidable (_ < _))

theorem getLock_of_spares {op : LockOp} {lock : LockInfo} (hspares : op.Spares lock)
    (hlock : m.getLock lock.entityId = some lock) :
    (lockStep config m op).1.getLock lock.entityId = some lock := by
  have hchange := @lockChange_step config m op
  generalize (lockStep config m op).1.getLock = locks at hchange ⊢
  generalize (lockStep config m op).2 = reply at hchange
  cases hchange with
  | failed => exact hlock
  | cleaned now => exact Option.filter_eq_some_iff.mpr ⟨hlock, by simpa [LockOp.Spares] using hspares⟩
  | _ => grind [update_apply, LockOp.Spares]

/-- Once a lock has been granted or extended, no other client is let through to what it covers,
on the entity or on one whose check passes by it, until it expires or is given up or broken. -/
theorem lock_excludes_others (config : LockConfig) (cache : EntityLookup)
    (earlier later : List LockOp) (op : LockOp) (lock : LockInfo) :
    let machine := lockMachine config
    let m := machine.exec machine.init earlier
    (machine.step m op).2 = .granted lock → (∀ call ∈ later, call.Spares lock) →
    ∀ id clientId collection nowRequired now, lock.entityId ∈ walked cache id →
      clientId ≠ lock.clientId → lockCoversCollection lock collection → now < lock.expiresAt →
      (checkAccess config (machine.exec (machine.step m op).1 later).toLockManager cache id clientId
        collection nowRequired now).allowed = false := by
  intro machine m hgranted hlater id clientId collection nowRequired now hwalked hother hcovers hlive
  obtain ⟨henabled, hstored⟩ := getLock_of_granted (keyed_exec config earlier) hgranted
  have hkept : (machine.exec (machine.step m op).1 later).getLock lock.entityId = some lock :=
    machine.exec_invariant (fun m => m.getLock lock.entityId = some lock)
      (fun call hcall _ => getLock_of_spares (hlater call hcall)) hstored
  rw [Bool.eq_false_iff, ne_eq, checkAccess_allowed_iff henabled]
  rintro ⟨-, hfree⟩
  exact hfree lock.entityId hwalked ⟨lock, hkept, hlive, hother.symm, hcovers⟩

def cameraOnRobot : EntityLookup where
  getApp id :=
    if id = str "camera" then some { id := str "camera", componentId := str "robot" } else none
  getComponent id := if id = str "robot" then some cellRobot else none
  getArea id := if id = str "cell" then some { id := str "cell" } else none
  getEntityType _ := .app

def unbreakableRobot : LockConfig where
  entityOverrides := (∅ : OMap Str EntityLockConfig).insert (str "robot") { breakable := false }

def acquireRobot (clientId : Str) (now : Int) : LockOp :=
  .acquire .component (str "robot") clientId [str "data"] 60 true now now

def robotLock : LockInfo where
  lockId := str "lock_1"
  entityId := str "robot"
  clientId := str "alice"
  scopes := [str "data"]
  breakable := false
  createdAt := 0
  expiresAt := ofSeconds 60
  expirationSeconds := 60

def attemptsOnRobot : List LockOp :=
  [acquireRobot (str "bob") 1, .release (str "robot") (str "bob"),
    .extend .component (str "robot") (str "bob") 1 2, .cleanupExpired 3]

theorem lock_excludes_others_from_camera :
    let machine := lockMachine unbreakableRobot
    (checkAccess unbreakableRobot (machine.exec (machine.step machine.init
        (acquireRobot (str "alice") 0)).1 attemptsOnRobot).toLockManager cameraOnRobot
      (str "camera") (str "bob") (str "data") 4 4).allowed = false := by
  exact lock_excludes_others unbreakableRobot cameraOnRobot [] attemptsOnRobot
    (acquireRobot (str "alice") 0) robotLock rfl (by decide) _ _ _ 4 4 (by decide) (by decide)
    (by decide) (by decide)

end Steps

end Medkit.Gateway
