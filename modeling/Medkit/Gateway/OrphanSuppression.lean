import Medkit.Gateway.MergedFields
import Medkit.Gateway.RuntimeLinker

/-! A run of the discovery pipeline: the layers are asked in order, their entities are
merged kind by kind, the apps are linked to the running nodes, and what merely repeats
the manifest is taken out again. What a protecting layer owns, or a protected source has
tagged, stays. -/
namespace Medkit.Gateway

open Lib
open RuntimeLinker (LinkingResult rfindSlash)

/-! ## Asking the layers -/

structure Gathered where
  areas : List (Nat × List Area) := []
  components : List (Nat × List Component) := []
  apps : List (Nat × List App) := []
  functions : List (Nat × List SovdFunction) := []
  runtimeApps : List App := []
  manifestDeclaredApps : List App := []
  filteredByGapFill : Nat := 0

def Gathered.context (found : Gathered) : LayerOutput where
  areas := found.areas.flatMap (·.2)
  components := found.components.flatMap (·.2)
  apps := found.apps.flatMap (·.2)
  functions := found.functions.flatMap (·.2)

def addLayer {α : Type} (layerEntities : List (Nat × List α)) (idx : Nat) (entities : List α) :
    List (Nat × List α) :=
  if entities.isEmpty then layerEntities else layerEntities ++ [(idx, entities)]

def gatherLayer (found : Gathered) : DiscoveryLayer × Nat → Gathered
  | (layer, i) =>
      match layer.discover found.context with
      | none => found
      | some output =>
          { filteredByGapFill := found.filteredByGapFill + layer.filteredCount
            runtimeApps :=
              if layer.providesRuntimeApps then layer.linkingApps else found.runtimeApps
            manifestDeclaredApps :=
              if layer.name = str "manifest" then output.apps else found.manifestDeclaredApps
            areas := addLayer found.areas i output.areas
            components := addLayer found.components i output.components
            apps := addLayer found.apps i output.apps
            functions := addLayer found.functions i output.functions }

def gather (layers : List DiscoveryLayer) : Gathered := layers.zipIdx.foldl gatherLayer {}

/-! ## Merging, linking and suppressing -/

structure MergePipeline where
  layers : List DiscoveryLayer := []
  identityConfig : IdentityMergeConfig := {}
  manifestConfig : ManifestConfig := {}
  /-- a linker has been set -/
  linker : Bool := false

structure MergeResult where
  areas : List Area := []
  components : List Component := []
  apps : List App := []
  functions : List SovdFunction := []
  report : MergeReport := {}
  linkingResult : LinkingResult := {}

namespace MergeResult

def recount (result : MergeResult) : MergeResult :=
  { result with report := { result.report with
      totalEntities := result.areas.length + result.components.length + result.apps.length +
        result.functions.length } }

def checkIds (state : OMap Str Str × Nat) (ids : List Str) (type : Str) : OMap Str Str × Nat :=
  ids.foldl (fun (globalIds, collisions) id =>
    match globalIds[id]? with
    | none => (globalIds.insert id type, collisions)
    | some taken => (globalIds, if taken ≠ type then collisions + 1 else collisions)) state

def countCollisions (result : MergeResult) : MergeResult :=
  let state := checkIds (∅, 0) (result.areas.map Area.id) (str "Area")
  let state := checkIds state (result.components.map Component.id) (str "Component")
  let state := checkIds state (result.apps.map App.id) (str "App")
  let state := checkIds state (result.functions.map SovdFunction.id) (str "Function")
  { result with report := { result.report with
      idCollisionCount := result.report.idCollisionCount + state.2 } }

/-- Without inherited resources an app exposes what the manifest declares. -/
def restoreApp (config : ManifestConfig) (manifestDeclaredApps : List App) (app : App) : App :=
  if ¬ config.inheritRuntimeResources ∧ manifestDeclaredApps ≠ [] then
    match manifestDeclaredApps.find? (·.id = app.id) with
    | none => app
    | some declared =>
        { app with
          topics := declared.topics
          services := declared.services
          actions := declared.actions }
  else app

def restoreDeclared (config : ManifestConfig) (manifestDeclaredApps : List App)
    (result : MergeResult) : MergeResult :=
  { result with apps := result.apps.map (restoreApp config manifestDeclaredApps) }

end MergeResult

def linkedNamespace (fqn : Str) : Option Str :=
  let cleanFqn :=
    if fqn.length > 1 ∧ fqn.getLast? = some RuntimeLinker.slash then fqn.dropLast else fqn
  match rfindSlash cleanFqn with
  | none => none
  | some 0 => some (str "/")
  | some lastSlash => some (cleanFqn.take lastSlash)

def orphanNamespace (fqn : Str) : Option Str :=
  match rfindSlash fqn with
  | none | some 0 => none
  | some lastSlash => some (fqn.take lastSlash)

def suppressesApp (protectedIds : OSet Str) (linkedAppIds : List Str) (hideOrphans : Bool)
    (app : App) : Bool :=
  if isProtectedEntity app.id app.source protectedIds then false
  else if linkedAppIds.contains app.id then true
  else hideOrphans

structure CoveredNamespaces where
  manifest : List Str
  linked : List Str
  orphan : List Str

def suppressesNamespace (protectedIds : OSet Str) (covered : CoveredNamespaces)
    (hideOrphans : Bool) (id source namespacePath : Str) : Bool :=
  if isProtectedEntity id source protectedIds then false
  else if covered.manifest.contains namespacePath || covered.linked.contains namespacePath then true
  else hideOrphans && covered.orphan.contains namespacePath

namespace MergePipeline

variable (p : MergePipeline)

def merge (found : Gathered) : MergeResult × OSet Str :=
  let report : MergeReport :=
    { layers := p.layers.map (·.name), filteredByGapFill := found.filteredByGapFill }
  let areas := mergeEntities areaKind p.identityConfig p.layers found.areas report ∅
  let components := mergeEntities componentKind p.identityConfig p.layers found.components
    areas.report areas.protectedEntityIds
  let apps := mergeEntities appKind p.identityConfig p.layers found.apps components.report
    components.protectedEntityIds
  let functions := mergeEntities functionKind p.identityConfig p.layers found.functions apps.report
    apps.protectedEntityIds
  ({ areas := areas.entities
     components := components.entities
     apps := apps.entities
     functions := functions.entities
     report := functions.report }, functions.protectedEntityIds)

def linkAndSuppress (runtimeApps : List App) (protectedIds : OSet Str) (result : MergeResult) :
    MergeResult :=
  let linking := RuntimeLinker.link result.apps runtimeApps p.manifestConfig protectedIds
  let linkedNamespaces := linking.nodeToApp.keys.filterMap linkedNamespace
  let manifestCompNs := (result.components.filter fun comp =>
    comp.source = str "manifest" && comp.namespacePath ≠ []).map (·.namespacePath)
  let manifestAreaNs := (result.areas.filter fun area =>
    area.source = str "manifest" && area.namespacePath ≠ []).map (·.namespacePath)
  let manifestAppIds := (linking.linkedApps.filter (·.source = str "manifest")).map App.id
  let linkedAppIds := manifestAppIds ++ linking.nodeToApp.values
  let hideOrphans : Bool := p.manifestConfig.unmanifestedNodes = .ignore
  let orphanNamespaces :=
    if hideOrphans then linking.orphanNodes.filterMap orphanNamespace else []
  MergeResult.recount
    { result with
      apps := linking.linkedApps.filter (! suppressesApp protectedIds linkedAppIds hideOrphans ·)
      components := result.components.filter fun comp =>
        ! suppressesNamespace protectedIds ⟨manifestCompNs, linkedNamespaces, orphanNamespaces⟩
            hideOrphans comp.id comp.source comp.namespacePath
      areas := result.areas.filter fun area =>
        ! suppressesNamespace protectedIds ⟨manifestAreaNs, linkedNamespaces, orphanNamespaces⟩
            hideOrphans area.id area.source area.namespacePath
      linkingResult := linking }

def execute : MergeResult :=
  let found := gather p.layers
  let (merged, protectedIds) := p.merge found
  let result :=
    merged.recount.countCollisions.restoreDeclared p.manifestConfig found.manifestDeclaredApps
  if p.linker then p.linkAndSuppress found.runtimeApps protectedIds result else result

end MergePipeline

/-! ## Protection -/

section Sources

variable {α : Type} (kind : MergeKind α)

def firstSource (entries : List (LayerEntity α)) : Str :=
  ((entries.map fun entry => kind.source entry.entity).find? (· ≠ [])).getD []

/-- Protected by the layer that owns this entity, or by the entity's own source tag. -/
def protectedOnOwnAccount (layers : List DiscoveryLayer) (all : List (LayerEntity α)) (id : Str) :
    Bool :=
  ownedByProtecting kind layers all id || isProtectedSource (firstSource kind (entriesOf kind all id))

variable {kind} {config : IdentityMergeConfig} {layers : List DiscoveryLayer}

theorem source_mergeEntry (id : Str) (state : Merging α) (entry : LayerEntity α) :
    kind.source (mergeEntry kind config layers id state entry).merged =
      fillProvenance (kind.source state.merged) (kind.source entry.entity) := by
  simp [mergeEntry, allFieldGroups, mergeGroup, kind.source_apply]

theorem foldl_fillProvenance (source : Str) (sources : List Str) :
    sources.foldl fillProvenance source = ((source :: sources).find? (· ≠ [])).getD [] := by
  induction sources generalizing source with
  | nil => by_cases h : source = [] <;> simp [h]
  | cons next sources ih =>
    rw [List.foldl_cons, ih]
    by_cases h : source = [] <;> simp [fillProvenance, h]

theorem source_mergeEntries (id : Str) (first : LayerEntity α) (rest : List (LayerEntity α))
    (report : MergeReport) :
    kind.source (mergeEntries kind config layers id first rest report).merged =
      firstSource kind (first :: rest) := by
  have hfold : ∀ (rest : List (LayerEntity α)) (state : Merging α),
      kind.source (rest.foldl (mergeEntry kind config layers id) state).merged =
        (rest.map fun entry => kind.source entry.entity).foldl fillProvenance
          (kind.source state.merged) := by
    intro rest
    induction rest with
    | nil => intro state; rfl
    | cons entry rest ih =>
      intro state
      rw [List.foldl_cons, ih, source_mergeEntry]
      rfl
  rw [mergeEntries, hfold, kind.source_seed, foldl_fillProvenance]
  rfl

theorem MergedFrom.source {all : List (LayerEntity α)} {e : α}
    (h : MergedFrom kind config layers all e) :
    kind.source e = firstSource kind (entriesOf kind all (kind.id e)) := by
  obtain ⟨first, rest, report, hentries, he⟩ := h
  have hsource := congrArg kind.source he
  rw [source_mergeEntries] at hsource
  rw [hsource, hentries]

theorem MergedFrom.isProtected_iff {all : List (LayerEntity α)} {e : α}
    (h : MergedFrom kind config layers all e) (protectedIds : OSet Str) :
    isProtectedEntity (kind.id e) (kind.source e) protectedIds = true ↔
      kind.id e ∈ protectedIds ∨
      isProtectedSource (firstSource kind (entriesOf kind all (kind.id e))) = true := by
  rw [isProtectedEntity, h.source, Bool.or_eq_true, Std.ExtTreeSet.contains_iff_mem]

theorem MergedFrom.isProtected {all : List (LayerEntity α)} {e : α}
    (h : MergedFrom kind config layers all e) {protectedIds : OSet Str}
    (hids : ownedByProtecting kind layers all (kind.id e) = true → kind.id e ∈ protectedIds)
    (hown : protectedOnOwnAccount kind layers all (kind.id e) = true) :
    isProtectedEntity (kind.id e) (kind.source e) protectedIds = true := by
  rw [protectedOnOwnAccount, Bool.or_eq_true] at hown
  rw [h.isProtected_iff]
  exact hown.imp_left hids

end Sources

namespace MergePipeline

variable (p : MergePipeline)

def Owned (found : Gathered) (id : Str) : Prop :=
  ownedByProtecting areaKind p.layers (contributions found.areas) id = true ∨
  ownedByProtecting componentKind p.layers (contributions found.components) id = true ∨
  ownedByProtecting appKind p.layers (contributions found.apps) id = true ∨
  ownedByProtecting functionKind p.layers (contributions found.functions) id = true
deriving Decidable

structure Merges (found : Gathered) (merged : MergeResult) (protectedIds : OSet Str) : Prop where
  areas : ∀ e ∈ merged.areas, MergedFrom areaKind p.identityConfig p.layers
    (contributions found.areas) e
  components : ∀ e ∈ merged.components, MergedFrom componentKind p.identityConfig p.layers
    (contributions found.components) e
  apps : ∀ e ∈ merged.apps, MergedFrom appKind p.identityConfig p.layers
    (contributions found.apps) e
  functions : ∀ e ∈ merged.functions, MergedFrom functionKind p.identityConfig p.layers
    (contributions found.functions) e
  ids : ∀ id, id ∈ protectedIds ↔ p.Owned found id

end MergePipeline

theorem mergesKind {α : Type} (kind : MergeKind α) (config : IdentityMergeConfig)
    (layers : List DiscoveryLayer) (layerEntities : List (Nat × List α)) (report : MergeReport)
    (protectedEntityIds : OSet Str) :
    let merged := mergeEntities kind config layers layerEntities report protectedEntityIds
    (∀ e ∈ merged.entities, MergedFrom kind config layers (contributions layerEntities) e) ∧
    ∀ id, id ∈ merged.protectedEntityIds ↔ id ∈ protectedEntityIds ∨
      ownedByProtecting kind layers (contributions layerEntities) id = true := by
  obtain ⟨ids, -, hids, hmerges⟩ := mergesIds_mergeEntities kind config layers layerEntities report
    protectedEntityIds
  obtain ⟨added, hentities, -, hfrom⟩ := hmerges.added
  refine ⟨?_, ?_⟩
  · intro e he
    rw [hentities, List.nil_append] at he
    exact hfrom e he
  · intro id
    rw [hmerges.protects, hids]
    have hknown : ownedByProtecting kind layers (contributions layerEntities) id = true →
        entriesOf kind (contributions layerEntities) id ≠ [] := by
      intro howned hnone
      rw [ownedByProtecting, hnone] at howned
      cases howned
    tauto

theorem MergePipeline.merges_merge (p : MergePipeline) (found : Gathered) :
    p.Merges found (p.merge found).1 (p.merge found).2 := by
  unfold MergePipeline.merge
  simp only
  generalize ({ layers := _, filteredByGapFill := _ } : MergeReport) = report
  have hareas := mergesKind areaKind p.identityConfig p.layers found.areas report ∅
  generalize mergeEntities areaKind p.identityConfig p.layers found.areas report ∅ = areas at *
  have hcomponents := mergesKind componentKind p.identityConfig p.layers found.components
    areas.report areas.protectedEntityIds
  generalize mergeEntities componentKind p.identityConfig p.layers found.components
    areas.report areas.protectedEntityIds = components at *
  have happs := mergesKind appKind p.identityConfig p.layers found.apps components.report
    components.protectedEntityIds
  generalize mergeEntities appKind p.identityConfig p.layers found.apps components.report
    components.protectedEntityIds = apps at *
  have hfunctions := mergesKind functionKind p.identityConfig p.layers found.functions apps.report
    apps.protectedEntityIds
  refine ⟨hareas.1, hcomponents.1, happs.1, hfunctions.1, ?_⟩
  intro id
  rw [hfunctions.2, happs.2, hcomponents.2, hareas.2, Owned]
  simp only [Std.ExtTreeSet.not_mem_empty, false_or, or_assoc]

theorem exists_of_forall₂ {α β : Type} {R : α → β → Prop} {as : List α} {bs : List β}
    (h : List.Forall₂ R as bs) {a : α} (ha : a ∈ as) : ∃ b ∈ bs, R a b := by
  induction h with
  | nil => cases ha
  | cons hab _ ih =>
    rcases List.mem_cons.mp ha with rfl | ha
    · exact ⟨_, List.mem_cons_self, hab⟩
    · obtain ⟨b, hb, hR⟩ := ih ha
      exact ⟨b, List.mem_cons_of_mem _ hb, hR⟩

/-! ## Linking and suppressing keep what is protected -/

theorem keeps_trans {a b c : App} (h : RuntimeLinker.Keeps a b) (h' : RuntimeLinker.Keeps b c) :
    RuntimeLinker.Keeps a c := by
  unfold RuntimeLinker.Keeps at h h' ⊢
  rw [← h'] at h
  exact h

theorem keeps_restoreApp (config : ManifestConfig) (declared : List App) (app : App) :
    RuntimeLinker.Keeps app (MergeResult.restoreApp config declared app) := by
  unfold MergeResult.restoreApp
  split
  · split
    · rfl
    · rfl
  · rfl

theorem suppressesApp_ignore (protectedIds : OSet Str) (linkedAppIds : List Str) (app : App) :
    suppressesApp protectedIds linkedAppIds true app =
      ! isProtectedEntity app.id app.source protectedIds := by
  unfold suppressesApp
  cases isProtectedEntity app.id app.source protectedIds <;> simp

structure Swept (policy : UnmanifestedNodePolicy) (protectedIds : OSet Str)
    (merged result : MergeResult) : Prop where
  areas : ∃ drop : Area → Bool, result.areas = merged.areas.filter (! drop ·) ∧
    ∀ e, isProtectedEntity e.id e.source protectedIds = true → drop e = false
  components : ∃ drop : Component → Bool, result.components = merged.components.filter (! drop ·) ∧
    ∀ e, isProtectedEntity e.id e.source protectedIds = true → drop e = false
  functions : result.functions = merged.functions
  apps : ∃ (linked : List App) (drop : App → Bool), List.Forall₂ RuntimeLinker.Keeps merged.apps linked ∧
    result.apps = linked.filter (! drop ·) ∧
    (∀ e, isProtectedEntity e.id e.source protectedIds = true → drop e = false) ∧
    (policy = .ignore → ∀ e, isProtectedEntity e.id e.source protectedIds = false → drop e = true)

theorem swept_linkAndSuppress (p : MergePipeline) (runtimeApps : List App)
    (protectedIds : OSet Str) (merged : MergeResult) :
    Swept p.manifestConfig.unmanifestedNodes protectedIds merged
      (p.linkAndSuppress runtimeApps protectedIds merged) := by
  obtain ⟨linked, duplicate, hkeeps, hduplicate, hlinked⟩ :=
    RuntimeLinker.linkedApps_link merged.apps runtimeApps p.manifestConfig protectedIds
  refine ⟨⟨_, rfl, ?_⟩, ⟨_, rfl, ?_⟩, rfl, ?_⟩
  · intro e he
    rw [suppressesNamespace, if_pos he]
  · intro e he
    rw [suppressesNamespace, if_pos he]
  · let linking := RuntimeLinker.link merged.apps runtimeApps p.manifestConfig protectedIds
    let suppressed := suppressesApp protectedIds
      ((linking.linkedApps.filter (·.source = str "manifest")).map App.id ++ linking.nodeToApp.values)
      (p.manifestConfig.unmanifestedNodes = .ignore)
    have happs : (p.linkAndSuppress runtimeApps protectedIds merged).apps =
        linking.linkedApps.filter (! suppressed ·) := rfl
    refine ⟨linked, fun app => duplicate app || suppressed app, hkeeps, ?_, ?_, ?_⟩
    · rw [happs, hlinked, List.filter_filter]
      apply List.filter_congr
      intro app _
      rw [Bool.not_or, Bool.and_comm]
    · intro e he
      simp only [hduplicate e he, Bool.false_or, suppressed]
      rw [suppressesApp, if_pos he]
    · intro hignore e he
      simp only [suppressed, hignore, decide_true, suppressesApp_ignore, he]
      exact Bool.or_true _

namespace MergePipeline

theorem swept_execute {p : MergePipeline} (hlinker : p.linker = true) :
    Swept p.manifestConfig.unmanifestedNodes (p.merge (gather p.layers)).2
      (p.merge (gather p.layers)).1 p.execute := by
  unfold execute
  simp only [hlinker, if_true]
  generalize p.merge (gather p.layers) = merge
  have hswept := swept_linkAndSuppress p (gather p.layers).runtimeApps merge.2
    (merge.1.recount.countCollisions.restoreDeclared p.manifestConfig
      (gather p.layers).manifestDeclaredApps)
  obtain ⟨linked, drop, hkeeps, hdrop⟩ := hswept.apps
  refine ⟨hswept.areas, hswept.components, hswept.functions, linked, drop, ?_, hdrop⟩
  apply ((List.forall₂_map_left_iff).mp hkeeps).imp
  intro app linked h
  exact keeps_trans (keeps_restoreApp _ _ app) h

def ownProtectedApps (p : MergePipeline) (found : Gathered) : List App :=
  (p.merge found).1.apps.filter fun app =>
    protectedOnOwnAccount appKind p.layers (contributions found.apps) app.id

/-- No unprotected app has the id of another entity that a protecting layer owns. -/
def NoBorrowedIds (p : MergePipeline) (found : Gathered) : Prop :=
  ∀ app ∈ (p.merge found).1.apps, p.Owned found app.id →
    protectedOnOwnAccount appKind p.layers (contributions found.apps) app.id = true
deriving Decidable

theorem isProtected_of_own {p : MergePipeline} {found : Gathered} {app : App}
    (happ : app ∈ (p.merge found).1.apps)
    (hown : protectedOnOwnAccount appKind p.layers (contributions found.apps) app.id = true) :
    isProtectedEntity app.id app.source (p.merge found).2 = true := by
  have hmerges := p.merges_merge found
  apply (hmerges.apps app happ).isProtected _ hown
  exact fun howned => (hmerges.ids _).mpr (.inr (.inr (.inl howned)))

/-- The shared id set protects the apps protected on their own account, and the borrowers. -/
theorem filter_isProtected_iff {p : MergePipeline} {found : Gathered} :
    p.ownProtectedApps found = (p.merge found).1.apps.filter
      (fun app => isProtectedEntity app.id app.source (p.merge found).2) ↔
    p.NoBorrowedIds found := by
  have hmerges := p.merges_merge found
  constructor
  · intro hsame app happ howned
    have hprotected : isProtectedEntity app.id app.source (p.merge found).2 = true :=
      ((hmerges.apps app happ).isProtected_iff _).mpr (.inl ((hmerges.ids _).mpr howned))
    have hmem : app ∈ p.ownProtectedApps found := by
      rw [hsame]
      exact List.mem_filter.mpr ⟨happ, hprotected⟩
    exact (List.mem_filter.mp hmem).2
  · intro hborrowed
    apply List.filter_congr
    intro app happ
    rw [Bool.eq_iff_iff]
    refine ⟨isProtected_of_own happ, fun hprotected => ?_⟩
    rcases ((hmerges.apps app happ).isProtected_iff _).mp hprotected with hid | hsource
    · exact hborrowed app happ ((hmerges.ids _).mp hid)
    · rw [protectedOnOwnAccount, Bool.or_eq_true]
      exact .inr hsource

theorem ownProtectedApps_sublist (p : MergePipeline) (found : Gathered) :
    (p.ownProtectedApps found).Sublist ((p.merge found).1.apps.filter
      fun app => isProtectedEntity app.id app.source (p.merge found).2) := by
  have hown : p.ownProtectedApps found = ((p.merge found).1.apps.filter
      fun app => isProtectedEntity app.id app.source (p.merge found).2).filter
        fun app => protectedOnOwnAccount appKind p.layers (contributions found.apps) app.id := by
    rw [List.filter_filter, ownProtectedApps]
    apply List.filter_congr
    intro app happ
    rw [eq_comm, Bool.and_eq_left_iff_imp]
    exact isProtected_of_own happ
  rw [hown]
  exact List.filter_sublist

/-- What the owning layer or the first source tag protects is not removed. When nodes
outside the manifest are ignored, the apps that remain are the ones protected on their own
account, exactly if no app borrows a protected id. -/
theorem protected_entities_stay (p : MergePipeline) (hlinker : p.linker = true) :
    let found := gather p.layers
    let merged := (p.merge found).1
    (∀ area ∈ merged.areas,
      protectedOnOwnAccount areaKind p.layers (contributions found.areas) area.id = true →
      area ∈ p.execute.areas) ∧
    (∀ comp ∈ merged.components,
      protectedOnOwnAccount componentKind p.layers (contributions found.components) comp.id = true →
      comp ∈ p.execute.components) ∧
    (∀ app ∈ merged.apps,
      protectedOnOwnAccount appKind p.layers (contributions found.apps) app.id = true →
      ∃ linked ∈ p.execute.apps, RuntimeLinker.Keeps app linked) ∧
    p.execute.functions = merged.functions ∧
    (p.manifestConfig.unmanifestedNodes = .ignore →
      (List.Forall₂ RuntimeLinker.Keeps (p.ownProtectedApps found) p.execute.apps ↔
        p.NoBorrowedIds found)) := by
  intro found merged
  have hmerges := p.merges_merge found
  have hswept := swept_execute hlinker
  obtain ⟨linked, drop, hkeeps, happs, hkept, hignored⟩ := hswept.apps
  refine ⟨?_, ?_, ?_, hswept.functions, ?_⟩
  · intro area harea hown
    obtain ⟨dropArea, hareas, hprotected⟩ := hswept.areas
    rw [hareas, List.mem_filter, hprotected area]
    · exact ⟨harea, rfl⟩
    · apply (hmerges.areas area harea).isProtected _ hown
      exact fun howned => (hmerges.ids _).mpr (.inl howned)
  · intro comp hcomp hown
    obtain ⟨dropComp, hcomponents, hprotected⟩ := hswept.components
    rw [hcomponents, List.mem_filter, hprotected comp]
    · exact ⟨hcomp, rfl⟩
    · apply (hmerges.components comp hcomp).isProtected _ hown
      exact fun howned => (hmerges.ids _).mpr (.inr (.inl howned))
  · intro app happ hown
    obtain ⟨app', happ', hkeeps'⟩ := exists_of_forall₂ hkeeps happ
    refine ⟨app', ?_, hkeeps'⟩
    rw [happs, List.mem_filter, hkept app']
    · exact ⟨happ', rfl⟩
    · rw [hkeeps'.id, hkeeps'.source]
      exact isProtected_of_own happ hown
  · intro hignore
    have hremain : List.Forall₂ RuntimeLinker.Keeps (merged.apps.filter
        fun app => isProtectedEntity app.id app.source (p.merge found).2) p.execute.apps := by
      rw [happs]
      refine List.rel_filter ?_ hkeeps
      intro app app' hkeeps'
      have hdrop : (! drop app') = isProtectedEntity app'.id app'.source (p.merge found).2 := by
        cases hprotected : isProtectedEntity app'.id app'.source (p.merge found).2 with
        | false => rw [hignored hignore app' hprotected]; rfl
        | true => rw [hkept app' hprotected]; rfl
      simp only [hdrop, hkeeps'.id, hkeeps'.source]
    constructor
    · intro hown
      apply filter_isProtected_iff.mp
      apply (p.ownProtectedApps_sublist found).eq_of_length
      rw [hown.length_eq, hremain.length_eq]
    · intro hborrowed
      rw [filter_isProtected_iff.mpr hborrowed]
      exact hremain

def lidarPipeline : MergePipeline where
  layers :=
    [{ name := str "manifest", ownsProtectedEntities := true
       discover := fun _ => some { apps := [{ id := str "lidar" }] } },
      { name := str "runtime", providesRuntimeApps := true
        discover := fun _ =>
          some { apps := [{ id := str "talker", source := str "heuristic" }] } }]
  manifestConfig := { unmanifestedNodes := .ignore }
  linker := true

theorem protected_entities_stay_for_lidar :
    List.Forall₂ RuntimeLinker.Keeps [{ id := str "lidar" }] lidarPipeline.execute.apps := by
  have hown : lidarPipeline.ownProtectedApps (gather lidarPipeline.layers) =
      [{ id := str "lidar" }] := by
    decide
  rw [← hown]
  exact ((protected_entities_stay lidarPipeline rfl).2.2.2.2 rfl).mpr (by decide)

/-- A plugin owns a component; a node that is not in the manifest has its id. -/
def cameraPipeline : MergePipeline where
  layers :=
    [{ name := str "plugin", ownsProtectedEntities := true
       discover := fun _ => some { components := [{ id := str "camera", source := str "onboard" }] } },
      { name := str "runtime", providesRuntimeApps := true
        discover := fun _ =>
          some { apps := [{ id := str "camera", source := str "heuristic" }] } }]
  manifestConfig := { unmanifestedNodes := .ignore }
  linker := true

/-- The app is kept for the sake of the component. -/
theorem app_kept_for_component_id :
    cameraPipeline.execute.apps.map App.id = [str "camera"] ∧
    cameraPipeline.ownProtectedApps (gather cameraPipeline.layers) = [] := by
  decide

end MergePipeline

end Medkit.Gateway
