import Medkit.Gateway.Entities

/-! The runtime linker: binds the merged apps to the nodes found at run time, and drops
unprotected apps that stand for a node some app has been bound to. -/
namespace Medkit.Gateway

open Lib

inductive UnmanifestedNodePolicy where
  | ignore
  | warn
  | error
  | includeAsOrphan
deriving DecidableEq

structure ManifestConfig where
  unmanifestedNodes : UnmanifestedNodePolicy := .warn
  inheritRuntimeResources : Bool := true

def isProtectedSource (source : Str) : Bool :=
  source = str "manifest" || source = str "inventory" || (str "plugin").isPrefixOf source

def isProtectedEntity (id source : Str) (protectedIds : OSet Str) : Bool :=
  protectedIds.contains id || isProtectedSource source

namespace RuntimeLinker

def slash : Byte := charByte '/'

def rfindSlash (s : Str) : Option Nat :=
  (s.reverse.idxOf? slash).map fun i => s.length - 1 - i

/-- `/nav` matches `/nav` and `/nav/sub` but not `/navigation`. -/
def pathMatches (actual expected : Str) : Bool :=
  actual = expected ||
    (actual.length > expected.length && expected.isPrefixOf actual &&
      actual[expected.length]? = some slash)

def namespaceMatches (actualNs expectedNs : Str) : Bool := pathMatches actualNs expectedNs

def topicPathMatches (topic topicNamespace : Str) : Bool := pathMatches topic topicNamespace

def extractNodeName (fqn : Str) : Str :=
  match rfindSlash fqn with
  | none => fqn
  | some pos => fqn.drop (pos + 1)

def extractNamespace (fqn : Str) : Str :=
  match rfindSlash fqn with
  | none | some 0 => str "/"
  | some pos => fqn.take pos

def matchesBinding (binding : RosBinding) (nodeFqn nodeNamespace : Str) : Bool :=
  if binding.nodeName = [] then false
  else if extractNodeName nodeFqn ≠ binding.nodeName then false
  else if binding.namespacePattern = str "*" then true
  else
    let expectedNs := if binding.namespacePattern = [] then str "/" else binding.namespacePattern
    let actualNs := if nodeNamespace = [] then str "/" else nodeNamespace
    namespaceMatches actualNs expectedNs

def matchesTopicNamespace (topicNs : Str) (runtimeApp : App) : Bool :=
  runtimeApp.topics.publishes.any (topicPathMatches · topicNs) ||
    runtimeApp.topics.subscribes.any (topicPathMatches · topicNs)

/-- The binding accepts the node, by its name or by one of its topics. -/
def accepts (binding : RosBinding) (runtimeApp : App) (fqn : Str) : Bool :=
  matchesBinding binding fqn (extractNamespace fqn) ||
    (binding.topicNamespace ≠ [] && matchesTopicNamespace binding.topicNamespace runtimeApp)

structure LinkingResult where
  linkedApps : List App := []
  unlinkedAppIds : List Str := []
  orphanNodes : List Str := []
  appToNode : OMap Str Str := ∅
  nodeToApp : OMap Str Str := ∅
  bindingConflicts : Nat := 0
  wildcardMultiMatch : Nat := 0
  warnings : List Str := []

structure Linking where
  result : LinkingResult := {}
  matchedNodes : OSet Str := ∅

/-- The runtime apps that the binding accepts among the nodes that are taken, or among
those that are not, with their nodes. -/
def acceptedNodes (binding : RosBinding) (runtimeApps : List App) (matchedNodes : OSet Str)
    (taken : Bool) : List (App × Str) :=
  runtimeApps.filterMap fun rtApp =>
    match rtApp.boundFqn with
    | none => none
    | some fqn =>
        if matchedNodes.contains fqn = taken ∧ accepts binding rtApp fqn then some (rtApp, fqn)
        else none

/-- The candidate that sorting by the name of the node puts first. -/
def firstByFqn : List (App × Str) → Option (App × Str)
  | [] => none
  | c :: candidates =>
      some (candidates.foldl (fun best c => if compare c.2 best.2 = .lt then c else best) c)

def enrichApp (app runtimeApp : App) : App :=
  { app with
    topics := runtimeApp.topics
    services := runtimeApp.services
    actions := runtimeApp.actions }

def bindingConflict (manifestApp : App) (fqn boundTo : Str) : Str :=
  str "App '" ++ manifestApp.id ++ str "' cannot bind to '" ++ fqn ++
    str "' - already bound to app '" ++ boundTo ++ str "'"

def noteConflict (manifestApp : App) (taken : List (App × Str)) (result : LinkingResult) :
    LinkingResult :=
  match taken with
  | [] => result
  | (_, fqn) :: _ =>
      { result with
        bindingConflicts := result.bindingConflicts + 1
        warnings := result.warnings ++
          [bindingConflict manifestApp fqn ((result.nodeToApp[fqn]?).getD [])] }

def bindApp (config : ManifestConfig) (manifestApp matched : App) (matchFqn : Str) : App :=
  let linkedApp := { manifestApp with boundFqn := some matchFqn, isOnline := true }
  if config.inheritRuntimeResources then enrichApp linkedApp matched else linkedApp

def linkApp (runtimeApps : List App) (config : ManifestConfig) (state : Linking)
    (manifestApp : App) : Linking :=
  let result := state.result
  let linkedApp := { manifestApp with isOnline := false }
  let unlinked (result : LinkingResult) : LinkingResult :=
    { result with
      unlinkedAppIds := result.unlinkedAppIds ++ [manifestApp.id]
      linkedApps := result.linkedApps ++ [linkedApp] }
  if manifestApp.external.getD false then
    { state with result := { result with linkedApps := result.linkedApps ++ [linkedApp] } }
  else
    match manifestApp.rosBinding with
    | none => { state with result := unlinked result }
    | some binding =>
        if binding.isEmpty then { state with result := unlinked result }
        else
          let candidates := acceptedNodes binding runtimeApps state.matchedNodes false
          match firstByFqn candidates with
          | none =>
              let taken := acceptedNodes binding runtimeApps state.matchedNodes true
              { state with result := unlinked (noteConflict manifestApp taken result) }
          | some (matched, matchFqn) =>
              { matchedNodes := state.matchedNodes.insert matchFqn
                result :=
                  { result with
                    linkedApps := result.linkedApps ++ [bindApp config manifestApp matched matchFqn]
                    appToNode := result.appToNode.insert manifestApp.id matchFqn
                    nodeToApp := result.nodeToApp.insert matchFqn manifestApp.id
                    wildcardMultiMatch :=
                      if candidates.length > 1 ∧ binding.namespacePattern = str "*" then
                        result.wildcardMultiMatch + 1
                      else result.wildcardMultiMatch } }

def duplicatesLinked (protectedIds : OSet Str) (linkedFqns : List Str) (app : App) : Bool :=
  if isProtectedEntity app.id app.source protectedIds then false
  else
    match app.boundFqn with
    | none => false
    | some fqn => linkedFqns.contains fqn

def link (manifestApps runtimeApps : List App) (config : ManifestConfig)
    (protectedIds : OSet Str) : LinkingResult :=
  let linking := manifestApps.foldl (linkApp runtimeApps config) {}
  let result := linking.result
  { result with
    orphanNodes := runtimeApps.filterMap fun rtApp =>
      match rtApp.boundFqn with
      | none => none
      | some fqn => if linking.matchedNodes.contains fqn then none else some fqn
    linkedApps :=
      result.linkedApps.filter fun app => ! duplicatesLinked protectedIds result.appToNode.values app }

/-! ## What linking keeps of an app -/

def Keeps (app linked : App) : Prop :=
  { linked with
    boundFqn := app.boundFqn, isOnline := app.isOnline, topics := app.topics,
    services := app.services, actions := app.actions } = app

theorem Keeps.id {app linked : App} (h : Keeps app linked) : linked.id = app.id := by
  rw [← h]

theorem Keeps.source {app linked : App} (h : Keeps app linked) : linked.source = app.source := by
  rw [← h]

theorem Keeps.bindApp (config : ManifestConfig) (manifestApp matched : App) (matchFqn : Str) :
    Keeps manifestApp (bindApp config manifestApp matched matchFqn) := by
  unfold RuntimeLinker.bindApp
  simp only
  split
  · rfl
  · rfl

theorem linkedApps_noteConflict (manifestApp : App) (taken : List (App × Str))
    (result : LinkingResult) :
    (noteConflict manifestApp taken result).linkedApps = result.linkedApps := by
  unfold noteConflict
  split <;> rfl

theorem linkedApps_linkApp (runtimeApps : List App) (config : ManifestConfig) (state : Linking)
    (manifestApp : App) :
    ∃ linked, Keeps manifestApp linked ∧
      (linkApp runtimeApps config state manifestApp).result.linkedApps =
        state.result.linkedApps ++ [linked] := by
  have hoffline : Keeps manifestApp { manifestApp with isOnline := false } := rfl
  unfold linkApp
  simp only
  (repeat' split) <;> first
    | exact ⟨_, hoffline, rfl⟩
    | exact ⟨_, hoffline, by rw [linkedApps_noteConflict]⟩
    | exact ⟨_, Keeps.bindApp _ _ _ _, rfl⟩

theorem linkedApps_foldl (runtimeApps : List App) (config : ManifestConfig)
    (manifestApps : List App) (state : Linking) :
    ∃ linked, List.Forall₂ Keeps manifestApps linked ∧
      (manifestApps.foldl (linkApp runtimeApps config) state).result.linkedApps =
        state.result.linkedApps ++ linked := by
  induction manifestApps generalizing state with
  | nil => exact ⟨[], .nil, by simp⟩
  | cons app apps ih =>
    obtain ⟨first, hfirst, happs⟩ := linkedApps_linkApp runtimeApps config state app
    obtain ⟨rest, hrest, hfold⟩ := ih (linkApp runtimeApps config state app)
    refine ⟨first :: rest, .cons hfirst hrest, ?_⟩
    rw [List.foldl_cons, hfold, happs, List.append_assoc]
    rfl

theorem linkedApps_link (manifestApps runtimeApps : List App) (config : ManifestConfig)
    (protectedIds : OSet Str) :
    ∃ (linked : List App) (drop : App → Bool), List.Forall₂ Keeps manifestApps linked ∧
      (∀ app, isProtectedEntity app.id app.source protectedIds = true → drop app = false) ∧
      (link manifestApps runtimeApps config protectedIds).linkedApps =
        linked.filter fun app => ! drop app := by
  obtain ⟨linked, hkeeps, hfold⟩ := linkedApps_foldl runtimeApps config manifestApps {}
  rw [List.nil_append] at hfold
  refine ⟨linked, duplicatesLinked protectedIds
    (manifestApps.foldl (linkApp runtimeApps config) {}).result.appToNode.values, hkeeps, ?_, ?_⟩
  · intro app hprotected
    rw [duplicatesLinked, if_pos hprotected]
  · rw [link]
    simp only [hfold]

end RuntimeLinker

end Medkit.Gateway
