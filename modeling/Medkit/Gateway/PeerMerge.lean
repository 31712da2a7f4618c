import Medkit.Gateway.Aggregation

/-! What the merge of all peers contains: nothing is dropped, every entity of every peer
is represented, and ids stay unique as long as the new name of a renamed app is free. -/
namespace Medkit.Gateway.Aggregation

open Lib EntityMerger

/-! ## One peer -/

def Routes (merged : MergedPeerResult) (pfr : PeerFetchResult) (x : Str) : Prop :=
  (x ∈ pfr.entities.areas.map (·.id) ∧ x ∉ merged.areas.map (·.id)) ∨
  x ∈ pfr.entities.components.map (·.id) ∨
  x ∈ pfr.entities.apps.map (fun app =>
    mergedAppId pfr.peerName (merged.apps.map (·.id)) app.id) ∨
  (x ∈ pfr.entities.functions.map (·.id) ∧ x ∉ merged.functions.map (·.id))
deriving Decidable

def peerTag (pfr : PeerFetchResult) : Str := str "peer:" ++ pfr.peerName

def addApp (merged : MergedPeerResult) (pfr : PeerFetchResult) (app : App) : App :=
  EntityMerger.addedApp { peerName := pfr.peerName } (merged.apps.map (·.id)) app

structure MergesKind {α : Type} (rule : MergeRule α) (pfr : PeerFetchResult)
    (known remote result : List α) : Prop where
  ids : result.map rule.id = known.map rule.id ++
    (remote.map rule.id).filter fun x => x ∉ known.map rule.id
  keeps : Keeps rule known result
  represents : ∀ r ∈ remote, ∃ e ∈ result, rule.id e = rule.id r ∧
    peerTag pfr ∈ rule.contributors e

variable {pfr : PeerFetchResult} {merged : MergedPeerResult} (order : VisitOrder)

theorem mergesKind_of_merges {α : Type} {rule : MergeRule α} {known remote : List α}
    {merger : EntityMerger} {result : List α × EntityMerger}
    (h : Merges rule known remote merger result) (hname : merger.peerName = pfr.peerName) :
    MergesKind rule pfr known remote result.1 := by
  refine ⟨h.ids, h.keeps, ?_⟩
  intro r hr
  obtain ⟨e, he, hid, hc⟩ := h.contributes r hr
  rw [EntityMerger.peerSource, hname] at hc
  exact ⟨e, he, hid, hc⟩

structure MergesPeer (merged : MergedPeerResult) (pfr : PeerFetchResult)
    (after : MergedPeerResult) : Prop where
  areas : MergesKind areaRule pfr merged.areas pfr.entities.areas after.areas
  components :
    MergesKind componentRule pfr merged.components pfr.entities.components after.components
  functions : ∃ remote : List SovdFunction,
    remote.map (·.id) = pfr.entities.functions.map (·.id) ∧
    MergesKind functionRule pfr merged.functions remote after.functions
  apps : after.apps = merged.apps ++ pfr.entities.apps.map (addApp merged pfr)
  routes : ∀ x : Str, after.routingTable[x]? =
    if Routes merged pfr x then some pfr.peerName else merged.routingTable[x]?

def mergerBeforeFunctions (merged : MergedPeerResult) (pfr : PeerFetchResult) : EntityMerger :=
  let merger : EntityMerger := { peerName := pfr.peerName }
  let merger := (merger.mergeAreas merged.areas pfr.entities.areas).2
  let merger := (merger.mergeComponents merged.components pfr.entities.components).2
  (merger.mergeApps merged.apps pfr.entities.apps).2

def RoutesBeforeFunctions (merged : MergedPeerResult) (pfr : PeerFetchResult) (x : Str) : Prop :=
  (x ∈ pfr.entities.areas.map (·.id) ∧ x ∉ merged.areas.map (·.id)) ∨
  x ∈ pfr.entities.components.map (·.id) ∨
  x ∈ pfr.entities.apps.map fun app => mergedAppId pfr.peerName (merged.apps.map (·.id)) app.id
deriving Decidable

structure MergesOthers (merged : MergedPeerResult) (pfr : PeerFetchResult)
    (after : MergedPeerResult) : Prop where
  areas : MergesKind areaRule pfr merged.areas pfr.entities.areas after.areas
  components :
    MergesKind componentRule pfr merged.components pfr.entities.components after.components
  apps : after.apps = merged.apps ++ pfr.entities.apps.map (addApp merged pfr)
  peerName : (mergerBeforeFunctions merged pfr).peerName = pfr.peerName
  routes : ∀ x : Str, (mergerBeforeFunctions merged pfr).routingTable[x]? =
    if RoutesBeforeFunctions merged pfr x then some pfr.peerName else none

theorem mergesOthers_mergePeer (merged : MergedPeerResult) (pfr : PeerFetchResult) :
    MergesOthers merged pfr (mergePeer order merged pfr) := by
  let start : EntityMerger := { peerName := pfr.peerName }
  have hareas := merges_mergeById areaRule start merged.areas pfr.entities.areas
  let withAreas := (start.mergeAreas merged.areas pfr.entities.areas).2
  have hcomponents := merges_mergeById componentRule withAreas merged.components
    pfr.entities.components
  let withComponents := (withAreas.mergeComponents merged.components pfr.entities.components).2
  have hcname : withComponents.peerName = pfr.peerName := hcomponents.peerName.trans hareas.peerName
  obtain ⟨happs, haname, haroutes⟩ := mergeApps_eq withComponents merged.apps pfr.entities.apps
  refine ⟨mergesKind_of_merges hareas rfl, mergesKind_of_merges hcomponents hareas.peerName, ?_,
    haname.trans hcname, ?_⟩
  · have hadd : withComponents.addedApp (merged.apps.map (·.id)) = addApp merged pfr := by
      funext app
      simp only [addApp, addedApp, peerSource, prefixId, hcname]
    rw [← hadd]
    exact happs
  · intro x
    have h1 : withAreas.routingTable[x]? =
        if x ∈ pfr.entities.areas.map (·.id) ∧ (false ∨ x ∉ merged.areas.map (·.id)) then
          some pfr.peerName
        else none := hareas.routes x
    have h2 : withComponents.routingTable[x]? =
        if x ∈ pfr.entities.components.map (·.id) ∧ (true ∨ x ∉ merged.components.map (·.id)) then
          some withAreas.peerName
        else withAreas.routingTable[x]? := hcomponents.routes x
    have h3 : (mergerBeforeFunctions merged pfr).routingTable[x]? = _ := haroutes x
    have haname' : withAreas.peerName = pfr.peerName := hareas.peerName
    rw [h3, hcname, h2, haname', h1]
    by_cases h : RoutesBeforeFunctions merged pfr x
    · rw [if_pos h]
      unfold RoutesBeforeFunctions at h
      grind
    · rw [if_neg h]
      unfold RoutesBeforeFunctions at h
      grind

def remappedFunctions (order : VisitOrder) (merged : MergedPeerResult) (pfr : PeerFetchResult) :
    List SovdFunction :=
  pfr.entities.functions.map
    (remapHosts (appIdRemap order (mergerBeforeFunctions merged pfr).routingTable))

theorem merges_functions (merged : MergedPeerResult) (pfr : PeerFetchResult) :
    Merges functionRule merged.functions (remappedFunctions order merged pfr)
      (mergerBeforeFunctions merged pfr)
      ((mergerBeforeFunctions merged pfr).mergeFunctions merged.functions
        (remappedFunctions order merged pfr)) :=
  merges_mergeById _ _ _ _

theorem mergesPeer_mergePeer (merged : MergedPeerResult) (pfr : PeerFetchResult) :
    MergesPeer merged pfr (mergePeer order merged pfr) := by
  have hothers := mergesOthers_mergePeer order merged pfr
  have hfunctions := merges_functions order merged pfr
  let remote := remappedFunctions order merged pfr
  have hremote : remote.map (·.id) = pfr.entities.functions.map (·.id) := by
    simp only [remote, remappedFunctions, List.map_map]
    rfl
  refine ⟨hothers.areas, hothers.components,
    ⟨remote, hremote, mergesKind_of_merges hfunctions hothers.peerName⟩, hothers.apps, ?_⟩
  intro x
  have hroutes : ((mergerBeforeFunctions merged pfr).mergeFunctions merged.functions
      remote).2.routingTable[x]? =
      if x ∈ remote.map (·.id) ∧ (false ∨ x ∉ merged.functions.map (·.id)) then
        some (mergerBeforeFunctions merged pfr).peerName
      else (mergerBeforeFunctions merged pfr).routingTable[x]? := hfunctions.routes x
  rw [hremote, hothers.peerName, hothers.routes x] at hroutes
  change (merged.routingTable.insertMany ((mergerBeforeFunctions merged pfr).mergeFunctions
    merged.functions remote).2.routingTable.toList)[x]? = _
  rw [OMap.getElem?_insertMany_toList, hroutes]
  unfold Routes RoutesBeforeFunctions
  grind

/-! ## All peers -/

structure DistinctIds (areas : List Area) (components : List Component) (apps : List App)
    (functions : List SovdFunction) : Prop where
  areas : (areas.map (·.id)).Nodup
  components : (components.map (·.id)).Nodup
  apps : (apps.map (·.id)).Nodup
  functions : (functions.map (·.id)).Nodup

structure KeepsAll (before after : MergedPeerResult) : Prop where
  areas : Keeps areaRule before.areas after.areas
  components : Keeps componentRule before.components after.components
  apps : before.apps <+: after.apps
  functions : Keeps functionRule before.functions after.functions

theorem KeepsAll.refl (merged : MergedPeerResult) : KeepsAll merged merged :=
  ⟨.refl _, .refl _, List.prefix_rfl, .refl _⟩

theorem KeepsAll.trans {before middle after : MergedPeerResult} (h : KeepsAll before middle)
    (h' : KeepsAll middle after) : KeepsAll before after :=
  ⟨h.areas.trans h'.areas, h.components.trans h'.components, h.apps.trans h'.apps,
    h.functions.trans h'.functions⟩

def BecomesApp (pfr : PeerFetchResult) (app merged : App) : Prop :=
  merged.source = peerTag pfr ∧
  ((merged.id = app.id ∧ merged.originalId = app.originalId) ∨
    (merged.id = pfr.peerName ++ separator ++ app.id ∧ merged.originalId = app.id))

/-- Every entity of the peer has an entity that stands for it and names the peer. -/
structure Represented (pfr : PeerFetchResult) (merged : MergedPeerResult) : Prop where
  areas : ∀ r ∈ pfr.entities.areas, ∃ e ∈ merged.areas, e.id = r.id ∧ peerTag pfr ∈ e.contributors
  components : ∀ r ∈ pfr.entities.components, ∃ e ∈ merged.components,
    e.id = r.id ∧ peerTag pfr ∈ e.contributors
  apps : ∀ r ∈ pfr.entities.apps, ∃ e ∈ merged.apps, BecomesApp pfr r e
  functions : ∀ r ∈ pfr.entities.functions, ∃ e ∈ merged.functions,
    e.id = r.id ∧ peerTag pfr ∈ e.contributors

/-- Every id that has to be prefixed has a free new id: none of those merged so far and
none of the same peer. -/
def PrefixFree (peerName : Str) (localIds remoteIds : List Str) : Prop :=
  ∀ id ∈ remoteIds, id ∈ localIds →
    peerName ++ separator ++ id ∉ localIds ∧ peerName ++ separator ++ id ∉ remoteIds
deriving Decidable

def RenamesFree (order : VisitOrder) : MergedPeerResult → List PeerFetchResult → Prop
  | _, [] => True
  | merged, pfr :: rest =>
      PrefixFree pfr.peerName (merged.apps.map (·.id)) (pfr.entities.apps.map (·.id)) ∧
      RenamesFree order (mergePeer order merged pfr) rest

instance decidableRenamesFree (order : VisitOrder) :
    ∀ merged toMerge, Decidable (RenamesFree order merged toMerge)
  | _, [] => isTrue trivial
  | merged, pfr :: rest =>
      have := decidableRenamesFree order (mergePeer order merged pfr) rest
      inferInstanceAs (Decidable (_ ∧ RenamesFree order (mergePeer order merged pfr) rest))

theorem MergesPeer.keepsAll {after : MergedPeerResult} (h : MergesPeer merged pfr after) :
    KeepsAll merged after := by
  obtain ⟨remote, -, hfunctions⟩ := h.functions
  refine ⟨h.areas.keeps, h.components.keeps, ?_, hfunctions.keeps⟩
  rw [h.apps]
  exact List.prefix_append _ _

theorem becomesApp_addApp (merged : MergedPeerResult) (pfr : PeerFetchResult) (app : App) :
    BecomesApp pfr app (addApp merged pfr app) := by
  by_cases happ : app.id ∈ merged.apps.map (·.id)
  · refine ⟨?_, .inr ⟨?_, ?_⟩⟩ <;> simp only [addApp, addedApp, if_pos happ] <;> rfl
  · refine ⟨?_, .inl ⟨?_, ?_⟩⟩ <;> simp only [addApp, addedApp, if_neg happ]
    rfl

theorem MergesPeer.represented {after : MergedPeerResult} (h : MergesPeer merged pfr after) :
    Represented pfr after := by
  obtain ⟨remote, hremote, hfunctions⟩ := h.functions
  refine ⟨h.areas.represents, h.components.represents, ?_, ?_⟩
  · intro r hr
    refine ⟨addApp merged pfr r, ?_, becomesApp_addApp merged pfr r⟩
    rw [h.apps]
    exact List.mem_append_right _ (List.mem_map_of_mem hr)
  · intro r hr
    have hmem : r.id ∈ remote.map (·.id) := by
      rw [hremote]
      exact List.mem_map_of_mem hr
    obtain ⟨r', hr', hid⟩ := List.mem_map.mp hmem
    obtain ⟨e, he, heid, hc⟩ := hfunctions.represents r' hr'
    exact ⟨e, he, heid.trans hid, hc⟩

theorem Represented.mono {before after : MergedPeerResult} (h : Represented pfr before)
    (hkeeps : KeepsAll before after) : Represented pfr after where
  areas r hr := hkeeps.areas.found (h.areas r hr)
  components r hr := hkeeps.components.found (h.components r hr)
  apps r hr := by
    obtain ⟨e, he, hbecomes⟩ := h.apps r hr
    exact ⟨e, hkeeps.apps.subset he, hbecomes⟩
  functions r hr := hkeeps.functions.found (h.functions r hr)

theorem MergesKind.nodup {α : Type} {rule : MergeRule α} {known remote result : List α}
    (h : MergesKind rule pfr known remote result) (hknown : (known.map rule.id).Nodup)
    (hremote : (remote.map rule.id).Nodup) : (result.map rule.id).Nodup := by
  rw [h.ids, List.nodup_append']
  refine ⟨hknown, hremote.filter _, ?_⟩
  intro x hx hx'
  have hnot := (List.mem_filter.mp hx').2
  simp [hx] at hnot

theorem mergedAppId_injOn {peerName : Str} {localIds remoteIds : List Str}
    (hfree : ∀ x ∈ remoteIds, x ∈ localIds → peerName ++ separator ++ x ∉ remoteIds) {x y : Str}
    (hx : x ∈ remoteIds) (hy : y ∈ remoteIds)
    (h : mergedAppId peerName localIds x = mergedAppId peerName localIds y) : x = y := by
  unfold mergedAppId at h
  split at h
  · rename_i hxl
    split at h
    · exact List.append_cancel_left h
    · exact absurd (h ▸ hy) (hfree x hx hxl)
  · split at h
    · next hyl => exact absurd (h ▸ hx) (hfree y hy hyl)
    · exact h

theorem MergesPeer.appIds {after : MergedPeerResult} (h : MergesPeer merged pfr after) :
    after.apps.map (·.id) = merged.apps.map (·.id) ++
      (pfr.entities.apps.map (·.id)).map (mergedAppId pfr.peerName (merged.apps.map (·.id))) := by
  rw [h.apps, List.map_append, List.map_map, List.map_map]
  congr 1
  apply List.map_congr_left
  intro app _
  exact id_addedApp _ _ app

theorem nodup_merged_iff {peerName : Str} {localIds remoteIds : List Str}
    (hlocal : localIds.Nodup) (hremote : remoteIds.Nodup) :
    (localIds ++ remoteIds.map (mergedAppId peerName localIds)).Nodup ↔
      PrefixFree peerName localIds remoteIds := by
  rw [List.nodup_append']
  constructor
  · intro ⟨_, hnodup, hdisjoint⟩ id hid hidl
    have hmerged : mergedAppId peerName localIds id = peerName ++ separator ++ id := if_pos hidl
    have hfree : peerName ++ separator ++ id ∉ localIds := by
      intro hmem
      apply hdisjoint hmem
      rw [← hmerged]
      exact List.mem_map_of_mem hid
    refine ⟨hfree, ?_⟩
    -- a remote app that already has the new id keeps it
    intro hmem
    have hkept : mergedAppId peerName localIds (peerName ++ separator ++ id) =
        peerName ++ separator ++ id := if_neg hfree
    have hsame := List.inj_on_of_nodup_map hnodup hmem hid (hkept.trans hmerged.symm)
    rw [hsame] at hfree
    exact hfree hidl
  · intro hfree
    refine ⟨hlocal, ?_, ?_⟩
    · apply hremote.map_on
      intro x hx y hy hxy
      exact mergedAppId_injOn (fun x hx hxl => (hfree x hx hxl).2) hx hy hxy
    · intro x hx hx'
      obtain ⟨y, hy, rfl⟩ := List.mem_map.mp hx'
      unfold mergedAppId at hx
      split at hx
      · next hyl => exact (hfree y hy hyl).1 hx
      · next hyl => exact hyl hx

theorem MergesPeer.distinctIds {after : MergedPeerResult} (h : MergesPeer merged pfr after)
    (hmerged : DistinctIds merged.areas merged.components merged.apps merged.functions)
    (hpeer : DistinctIds pfr.entities.areas pfr.entities.components pfr.entities.apps
      pfr.entities.functions)
    (hfree : PrefixFree pfr.peerName (merged.apps.map (·.id)) (pfr.entities.apps.map (·.id))) :
    DistinctIds after.areas after.components after.apps after.functions := by
  obtain ⟨remote, hremote, hfunctions⟩ := h.functions
  refine ⟨h.areas.nodup hmerged.areas hpeer.areas,
    h.components.nodup hmerged.components hpeer.components, ?_,
    hfunctions.nodup hmerged.functions ?_⟩
  · rw [h.appIds]
    exact (nodup_merged_iff hmerged.apps hpeer.apps).mpr hfree
  · change (remote.map (·.id)).Nodup
    rw [hremote]
    exact hpeer.functions

theorem keepsAll_foldl (toMerge : List PeerFetchResult) (merged : MergedPeerResult) :
    KeepsAll merged (toMerge.foldl (mergePeer order) merged) ∧
    ∀ pfr ∈ toMerge, Represented pfr (toMerge.foldl (mergePeer order) merged) := by
  induction toMerge generalizing merged with
  | nil => exact ⟨.refl _, fun _ hpfr => absurd hpfr List.not_mem_nil⟩
  | cons pfr rest ih =>
    have hstep := mergesPeer_mergePeer order merged pfr
    obtain ⟨hkeeps, hrepresented⟩ := ih (mergePeer order merged pfr)
    refine ⟨hstep.keepsAll.trans hkeeps, ?_⟩
    intro pfr' hpfr'
    rcases List.mem_cons.mp hpfr' with rfl | hpfr'
    · exact hstep.represented.mono hkeeps
    · exact hrepresented pfr' hpfr'

theorem distinctIds_foldl {toMerge : List PeerFetchResult}
    (hmerged : DistinctIds merged.areas merged.components merged.apps merged.functions)
    (hpeers : ∀ pfr ∈ toMerge, DistinctIds pfr.entities.areas pfr.entities.components
      pfr.entities.apps pfr.entities.functions) (hfree : RenamesFree order merged toMerge) :
    let result := toMerge.foldl (mergePeer order) merged
    DistinctIds result.areas result.components result.apps result.functions := by
  induction toMerge generalizing merged with
  | nil => exact hmerged
  | cons pfr rest ih =>
    apply ih _ (fun pfr' hpfr' => hpeers pfr' (List.mem_cons_of_mem _ hpfr')) hfree.2
    exact (mergesPeer_mergePeer order merged pfr).distinctIds hmerged
      (hpeers pfr List.mem_cons_self) hfree.1

theorem renamesFree_of_nodup {toMerge : List PeerFetchResult}
    (hpeers : ∀ pfr ∈ toMerge, (pfr.entities.apps.map (·.id)).Nodup)
    (h : ((toMerge.foldl (mergePeer order) merged).apps.map (·.id)).Nodup) :
    RenamesFree order merged toMerge := by
  induction toMerge generalizing merged with
  | nil => trivial
  | cons pfr rest ih =>
    have hstep := mergesPeer_mergePeer order merged pfr
    have hafter : ((mergePeer order merged pfr).apps.map (·.id)).Nodup :=
      h.sublist ((keepsAll_foldl order rest _).1.apps.sublist.map _)
    have hmerged : (merged.apps.map (·.id)).Nodup :=
      hafter.sublist (hstep.keepsAll.apps.sublist.map _)
    rw [hstep.appIds] at hafter
    exact ⟨(nodup_merged_iff hmerged (hpeers pfr List.mem_cons_self)).mp hafter,
      ih (fun pfr' hpfr' => hpeers pfr' (List.mem_cons_of_mem _ hpfr')) h⟩

theorem distinctIds_seedLocal {known : PeerEntities}
    (h : DistinctIds known.areas known.components known.apps known.functions) :
    DistinctIds (seedLocal known).areas (seedLocal known).components (seedLocal known).apps
      (seedLocal known).functions := by
  have hareas := h.areas
  have hcomponents := h.components
  have happs := h.apps
  have hfunctions := h.functions
  constructor <;> simp only [seedLocal, List.map_map] <;> assumption

/-- Every entity of every peer is represented and everything local is kept. Ids stay
unique per kind exactly when the new ids of renamed apps are free. -/
theorem merged_entities_distinct (order : VisitOrder) (known : PeerEntities)
    (toMerge : List PeerFetchResult)
    (hknown : DistinctIds known.areas known.components known.apps known.functions)
    (hpeers : ∀ pfr ∈ toMerge, DistinctIds pfr.entities.areas pfr.entities.components
      pfr.entities.apps pfr.entities.functions) :
    let merged := fetchAndMergePeerEntities order known toMerge
    (DistinctIds merged.areas merged.components merged.apps merged.functions ↔
      RenamesFree order (seedLocal known) toMerge) ∧
    (∀ pfr ∈ toMerge, Represented pfr merged) ∧ KeepsAll (seedLocal known) merged := by
  intro merged
  obtain ⟨hkeeps, hrepresented⟩ := keepsAll_foldl order toMerge (seedLocal known)
  refine ⟨⟨?_, ?_⟩, ?_, ?_⟩
  · intro h
    exact renamesFree_of_nodup order (fun pfr hpfr => (hpeers pfr hpfr).apps) h.apps
  · exact distinctIds_foldl order (distinctIds_seedLocal hknown) hpeers
  · intro pfr hpfr
    obtain ⟨hareas, hcomponents, happs, hfunctions⟩ := hrepresented pfr hpfr
    exact ⟨hareas, hcomponents, happs, hfunctions⟩
  · exact ⟨hkeeps.areas, hkeeps.components, hkeeps.apps, hkeeps.functions⟩

def cameraApp : App := { id := str "camera" }

def leftPeer : PeerFetchResult := ⟨str "left", { apps := [cameraApp] }⟩

theorem merged_entities_distinct_after_rename :
    ((fetchAndMergePeerEntities ComponentRouting.sortedOrder { apps := [cameraApp] }
      [leftPeer]).apps.map (·.id)).Nodup := by
  have hknown : DistinctIds [] [] [cameraApp] [] :=
    ⟨List.nodup_nil, List.nodup_nil, by decide, List.nodup_nil⟩
  have hfree : RenamesFree ComponentRouting.sortedOrder (seedLocal { apps := [cameraApp] })
      [leftPeer] := by decide
  have hpeers : ∀ pfr ∈ [leftPeer], DistinctIds pfr.entities.areas pfr.entities.components
      pfr.entities.apps pfr.entities.functions := by
    intro pfr hpfr
    rw [List.mem_singleton.mp hpfr]
    exact hknown
  have h := merged_entities_distinct ComponentRouting.sortedOrder { apps := [cameraApp] }
    [leftPeer] hknown hpeers
  exact (h.1.mpr hfree).apps

/-- A local app already has the id that the peer's app is renamed to. -/
theorem renamed_app_takes_local_id :
    let known : PeerEntities := { apps := [cameraApp, { id := str "left__camera" }] }
    DistinctIds known.areas known.components known.apps known.functions ∧
    ¬ ((fetchAndMergePeerEntities ComponentRouting.sortedOrder known [leftPeer]).apps.map
      (·.id)).Nodup := by
  refine ⟨⟨List.nodup_nil, List.nodup_nil, by decide, List.nodup_nil⟩, ?_⟩
  decide

end Medkit.Gateway.Aggregation
