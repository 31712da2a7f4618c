import Medkit.Gateway.IdentityMerge

/-! Merging the entities of one peer into those known so far. Areas, functions and
components with the same id become one entity; an app whose id is taken is renamed.
The routing table records what has to be forwarded to the peer. -/
namespace Medkit.Gateway

open Lib

def separator : Str := str "__"

structure EntityMerger where
  peerName : Str
  routingTable : OMap Str Str := ∅

namespace EntityMerger

def prefixId (merger : EntityMerger) (id : Str) : Str := merger.peerName ++ separator ++ id

def peerSource (merger : EntityMerger) : Str := str "peer:" ++ merger.peerName

def route (merger : EntityMerger) (id : Str) : EntityMerger :=
  { merger with routingTable := merger.routingTable.insert id merger.peerName }

end EntityMerger

def appendContributorUnique (contributors : List Str) (entry : Str) : List Str :=
  if entry ∈ contributors then contributors else contributors ++ [entry]

def appendUnseen (target source : List Str) : List Str := source.foldl appendContributorUnique target

/-! ## Merging by id -/

/-- How the entities of one kind are merged: what becomes of a known one when the peer
has it too, and of one that only the peer has. -/
structure MergeRule (α : Type) where
  id : α → Str
  contributors : α → List Str
  combine : Str → α → α → α
  adopt : Str → α → α
  routesCollisions : Bool
  id_combine : ∀ source merged remote, id (combine source merged remote) = id merged
  id_adopt : ∀ source remote, id (adopt source remote) = id remote
  contributors_combine : ∀ source merged remote, contributors (combine source merged remote) =
    appendContributorUnique (contributors merged) source
  contributors_adopt : ∀ source remote, contributors (adopt source remote) =
    appendContributorUnique (contributors remote) source

section ById

variable {α : Type} (rule : MergeRule α)

def localIndex (entities : List α) : OMap Str Nat :=
  entities.zipIdx.foldl (fun index entity => index.insert (rule.id entity.1) entity.2) ∅

def mergeRemote (index : OMap Str Nat) (state : List α × EntityMerger) (remote : α) :
    List α × EntityMerger :=
  match index[rule.id remote]? with
  | some i =>
      (state.1.modify i fun merged => rule.combine state.2.peerSource merged remote,
        if rule.routesCollisions then state.2.route (rule.id remote) else state.2)
  | none =>
      let added := rule.adopt state.2.peerSource remote
      (state.1 ++ [added], state.2.route (rule.id added))

def mergeById (merger : EntityMerger) (known remote : List α) : List α × EntityMerger :=
  remote.foldl (mergeRemote rule (localIndex rule known)) (known, merger)

end ById

def areaRule : MergeRule Area where
  id := Area.id
  contributors := Area.contributors
  combine source merged remote :=
    { merged with
      tags := appendUnseen merged.tags remote.tags
      description :=
        if merged.description = [] ∧ remote.description ≠ [] then remote.description
        else merged.description
      contributors := appendContributorUnique merged.contributors source }
  adopt source remote :=
    { remote with
      source := source
      contributors := appendContributorUnique remote.contributors source }
  routesCollisions := false
  id_combine _ _ _ := rfl
  id_adopt _ _ := rfl
  contributors_combine _ _ _ := rfl
  contributors_adopt _ _ := rfl

def functionRule : MergeRule SovdFunction where
  id := SovdFunction.id
  contributors := SovdFunction.contributors
  combine source merged remote :=
    { merged with
      hosts := appendUnseen merged.hosts remote.hosts
      tags := appendUnseen merged.tags remote.tags
      contributors := appendContributorUnique merged.contributors source }
  adopt source remote :=
    { remote with
      source := source
      contributors := appendContributorUnique remote.contributors source }
  routesCollisions := false
  id_combine _ _ _ := rfl
  id_adopt _ _ := rfl
  contributors_combine _ _ _ := rfl
  contributors_adopt _ _ := rfl

/-- The peer ranks lowest for the nameplate, but owns the live state. -/
def componentRule : MergeRule Component where
  id := Component.id
  contributors := Component.contributors
  combine source merged remote :=
    { merged with
      tags := appendUnseen merged.tags remote.tags
      description :=
        if merged.description = [] ∧ remote.description ≠ [] then remote.description
        else merged.description
      identity := mergeIdentity (stampIdentityProvenance merged.identity merged.source)
        remote.identity source {}
      contributors := appendContributorUnique merged.contributors source }
  adopt source remote :=
    { remote with
      source := source
      contributors := appendContributorUnique remote.contributors source }
  routesCollisions := true
  id_combine _ _ _ := rfl
  id_adopt _ _ := rfl
  contributors_combine _ _ _ := rfl
  contributors_adopt _ _ := rfl

namespace EntityMerger

def mergeAreas (merger : EntityMerger) (known remote : List Area) : List Area × EntityMerger :=
  mergeById areaRule merger known remote

def mergeFunctions (merger : EntityMerger) (known remote : List SovdFunction) :
    List SovdFunction × EntityMerger :=
  mergeById functionRule merger known remote

def mergeComponents (merger : EntityMerger) (known remote : List Component) :
    List Component × EntityMerger :=
  mergeById componentRule merger known remote

/-! ## Apps -/

def addedApp (merger : EntityMerger) (localIds : List Str) (remote : App) : App :=
  let added := { remote with source := merger.peerSource }
  let renamed :=
    if remote.id ∈ localIds then
      { added with
        originalId := remote.id
        id := merger.prefixId remote.id
        name := merger.peerName ++ separator ++ remote.name }
    else added
  { renamed with contributors := appendContributorUnique renamed.contributors merger.peerSource }

def mergeApps (merger : EntityMerger) (known remote : List App) : List App × EntityMerger :=
  let localIds := known.map (·.id)
  remote.foldl (fun state app =>
    let added := state.2.addedApp localIds app
    (state.1 ++ [added], state.2.route added.id)) (known, merger)

end EntityMerger

/-! ## What a merge returns -/

theorem mem_appendContributorUnique {contributors : List Str} {entry x : Str} :
    x ∈ appendContributorUnique contributors entry ↔ x ∈ contributors ∨ x = entry := by
  unfold appendContributorUnique
  split
  · rename_i h
    refine ⟨.inl, ?_⟩
    rintro (hx | rfl)
    · exact hx
    · exact h
  · simp

theorem mem_appendUnseen {target source : List Str} {x : Str} :
    x ∈ appendUnseen target source ↔ x ∈ target ∨ x ∈ source := by
  unfold appendUnseen
  induction source generalizing target with
  | nil => simp
  | cons entry source ih =>
    rw [List.foldl_cons, ih, mem_appendContributorUnique, List.mem_cons, or_assoc]

namespace EntityMerger

theorem getElem?_route (merger : EntityMerger) (id x : Str) : (merger.route id).routingTable[x]? =
      if x = id then some merger.peerName else merger.routingTable[x]? := by
  by_cases h : x = id
  · simp [route, h]
  · rw [if_neg h]
    exact OMap.getElem?_insert_of_ne (Ne.symm h) _

end EntityMerger

section ById

variable {α : Type} {rule : MergeRule α}

theorem getElem?_localIndex (rule : MergeRule α) (known : List α) (x : Str) :
    (x ∉ known.map rule.id ∧ (localIndex rule known)[x]? = none) ∨
    ∃ i, (localIndex rule known)[x]? = some i ∧ (known.map rule.id)[i]? = some x := by
  induction known using List.reverseRecOn with
  | nil => exact .inl ⟨List.not_mem_nil, by simp [localIndex]⟩
  | append_singleton known entity ih =>
    have hlast : localIndex rule (known ++ [entity]) =
        (localIndex rule known).insert (rule.id entity) known.length := by
      simp [localIndex, List.zipIdx_append]
    by_cases hx : rule.id entity = x
    · subst hx
      refine .inr ⟨known.length, by simp [hlast], by simp⟩
    · rw [hlast, OMap.getElem?_insert_of_ne hx]
      rcases ih with ⟨hmem, hnone⟩ | ⟨i, hi, hid⟩
      · refine .inl ⟨?_, hnone⟩
        rw [List.map_append, List.mem_append]
        exact not_or.mpr ⟨hmem, by simpa using Ne.symm hx⟩
      · refine .inr ⟨i, hi, ?_⟩
        have hlt : i < (known.map rule.id).length := (List.getElem?_eq_some_iff.mp hid).1
        rw [List.map_append, List.getElem?_append_left hlt, hid]

def Keeps (rule : MergeRule α) (before after : List α) : Prop :=
  ∀ e ∈ before, ∃ e' ∈ after, rule.id e' = rule.id e ∧
    ∀ c ∈ rule.contributors e, c ∈ rule.contributors e'

theorem Keeps.refl (entities : List α) : Keeps rule entities entities :=
  fun e he => ⟨e, he, rfl, fun _ hc => hc⟩

theorem Keeps.found {before after : List α} (h : Keeps rule before after) {id tag : Str}
    (hfound : ∃ e ∈ before, rule.id e = id ∧ tag ∈ rule.contributors e) :
    ∃ e ∈ after, rule.id e = id ∧ tag ∈ rule.contributors e := by
  obtain ⟨e, he, hid, hc⟩ := hfound
  obtain ⟨e', he', hid', hc'⟩ := h e he
  exact ⟨e', he', hid'.trans hid, hc' _ hc⟩

theorem Keeps.trans {before middle after : List α} (h : Keeps rule before middle)
    (h' : Keeps rule middle after) : Keeps rule before after := by
  intro e he
  obtain ⟨e', he', hid, hc⟩ := h e he
  obtain ⟨e'', he'', hid', hc'⟩ := h' e' he'
  exact ⟨e'', he'', hid'.trans hid, fun c hcc => hc' c (hc c hcc)⟩

structure MergesOne (rule : MergeRule α) (knownIds : List Str) (before after : List α × EntityMerger)
    (remote : α) : Prop where
  ids : after.1.map rule.id =
    before.1.map rule.id ++ if rule.id remote ∈ knownIds then [] else [rule.id remote]
  peerName : after.2.peerName = before.2.peerName
  routes : ∀ x : Str, after.2.routingTable[x]? =
    if x = rule.id remote ∧ (rule.routesCollisions ∨ x ∉ knownIds) then some before.2.peerName
    else before.2.routingTable[x]?
  keeps : ∀ e ∈ before.1, e ∈ after.1 ∨ rule.combine before.2.peerSource e remote ∈ after.1
  represents : rule.adopt before.2.peerSource remote ∈ after.1 ∨ ∃ e, rule.id e = rule.id remote ∧
    rule.combine before.2.peerSource e remote ∈ after.1
  added : after.1.drop knownIds.length = before.1.drop knownIds.length ++
    if rule.id remote ∈ knownIds then [] else [rule.adopt before.2.peerSource remote]

theorem mem_modify {l : List α} {e : α} (he : e ∈ l) (i : Nat) (f : α → α) :
    e ∈ l.modify i f ∨ f e ∈ l.modify i f := by
  obtain ⟨j, hj⟩ := List.mem_iff_getElem?.mp he
  by_cases hij : i = j
  · refine .inr (List.mem_iff_getElem?.mpr ⟨j, ?_⟩)
    simp [hij, hj]
  · refine .inl (List.mem_iff_getElem?.mpr ⟨j, ?_⟩)
    simp [hij, hj]

theorem mergesOne_mergeRemote {known : List α} {state : List α × EntityMerger}
    (hknown : known.map rule.id <+: state.1.map rule.id) (remote : α) :
    MergesOne rule (known.map rule.id) state (mergeRemote rule (localIndex rule known) state remote)
      remote := by
  have hlength : (known.map rule.id).length ≤ state.1.length := by
    simpa using hknown.length_le
  rcases getElem?_localIndex rule known (rule.id remote) with
    ⟨hmem, hindex⟩ | ⟨i, hindex, hi⟩
  · simp only [mergeRemote, hindex]
    refine ⟨by simp [hmem, rule.id_adopt], rfl, ?_, ?_, .inl (by simp), ?_⟩
    · intro x
      rw [EntityMerger.getElem?_route, rule.id_adopt]
      by_cases hx : x = rule.id remote
      · simp [hx, hmem]
      · simp [hx]
    · intro e he
      exact .inl (List.mem_append_left _ he)
    · rw [if_neg hmem, List.drop_append_of_le_length hlength]
  · have hmem : rule.id remote ∈ known.map rule.id := List.mem_of_getElem? hi
    simp only [mergeRemote, hindex]
    refine ⟨?_, ?_, ?_, fun e he => mem_modify he i _, ?_, ?_⟩
    · apply List.ext_getElem?
      intro j
      simp only [hmem, if_true, List.append_nil, List.getElem?_map, List.getElem?_modify]
      by_cases hij : i = j
      · cases state.1[j]? <;> simp [hij, rule.id_combine]
      · simp [hij]
    · simp only
      split <;> rfl
    · intro x
      simp only
      split
      · rename_i hroutes
        rw [EntityMerger.getElem?_route]
        simp [hroutes]
      · rename_i hroutes
        have hnot : ¬ (x = rule.id remote ∧ (rule.routesCollisions ∨ x ∉ known.map rule.id)) := by
          rintro ⟨rfl, hr | hr⟩
          · exact hroutes hr
          · exact hr hmem
        rw [if_neg hnot]
    · -- the entity at the indexed position has the id of the remote one
      have hi' : (state.1.map rule.id)[i]? = some (rule.id remote) := by
        obtain ⟨rest, hrest⟩ := hknown
        have hlt : i < (known.map rule.id).length := (List.getElem?_eq_some_iff.mp hi).1
        rw [← hrest, List.getElem?_append_left hlt, hi]
      obtain ⟨e, he, hid⟩ := Option.map_eq_some_iff.mp ((List.getElem?_map ..).symm.trans hi')
      refine .inr ⟨e, hid, List.mem_iff_getElem?.mpr ⟨i, ?_⟩⟩
      simp [he]
    · have hlt : i < (known.map rule.id).length := (List.getElem?_eq_some_iff.mp hi).1
      rw [if_pos hmem, List.append_nil]
      exact List.drop_modify_of_lt _ _ _ _ hlt

structure Stands (rule : MergeRule α) (source : Str) (P : α → α → Prop) : Prop where
  adopt : ∀ r, P r (rule.adopt source r)
  combine : ∀ e r, P r (rule.combine source e r)
  stable : ∀ e r r', P r e → P r (rule.combine source e r')

structure Merges (rule : MergeRule α) (known remote : List α) (merger : EntityMerger)
    (result : List α × EntityMerger) : Prop where
  ids : result.1.map rule.id = known.map rule.id ++
    (remote.map rule.id).filter fun x => x ∉ known.map rule.id
  peerName : result.2.peerName = merger.peerName
  routes : ∀ x : Str, result.2.routingTable[x]? =
    if x ∈ remote.map rule.id ∧ (rule.routesCollisions ∨ x ∉ known.map rule.id) then
      some merger.peerName
    else merger.routingTable[x]?
  keeps : Keeps rule known result.1
  represents : ∀ P, Stands rule merger.peerSource P →
    ∀ r ∈ remote, ∃ e ∈ result.1, rule.id e = rule.id r ∧ P r e
  added : result.1.drop (known.map rule.id).length =
    (remote.filter fun r => rule.id r ∉ known.map rule.id).map (rule.adopt merger.peerSource)

theorem MergesOne.keepsEntities {knownIds : List Str} {before after : List α × EntityMerger}
    {remote : α} (h : MergesOne rule knownIds before after remote) : Keeps rule before.1 after.1 := by
  intro e he
  rcases h.keeps e he with he | he
  · exact ⟨e, he, rfl, fun _ hc => hc⟩
  · refine ⟨_, he, rule.id_combine _ _ _, ?_⟩
    intro c hc
    rw [rule.contributors_combine, mem_appendContributorUnique]
    exact .inl hc

theorem merges_mergeById (rule : MergeRule α) (merger : EntityMerger) (known remote : List α) :
    Merges rule known remote merger (mergeById rule merger known remote) := by
  unfold mergeById
  induction remote using List.reverseRecOn with
  | nil => exact ⟨by simp, rfl, by simp, .refl _, by simp, by simp⟩
  | append_singleton remote r ih =>
    rw [List.foldl_append, List.foldl_cons, List.foldl_nil]
    have hknown : known.map rule.id <+: (remote.foldl (mergeRemote rule (localIndex rule known))
        (known, merger)).1.map rule.id := by
      rw [ih.ids]
      exact List.prefix_append _ _
    have hone := mergesOne_mergeRemote hknown r
    have hsource : (remote.foldl (mergeRemote rule (localIndex rule known))
        (known, merger)).2.peerSource = merger.peerSource := by
      rw [EntityMerger.peerSource, ih.peerName, EntityMerger.peerSource]
    refine ⟨?_, hone.peerName.trans ih.peerName, ?_, ih.keeps.trans hone.keepsEntities, ?_, ?_⟩
    · rw [hone.ids, ih.ids, List.append_assoc, List.map_append, List.filter_append]
      congr 2
      generalize known.map rule.id = ids
      by_cases hr : rule.id r ∈ ids
      · simp [hr]
      · simp [hr]
    · intro x
      rw [hone.routes x, ih.routes x, ih.peerName, List.map_append, List.map_singleton]
      generalize known.map rule.id = ids, remote.map rule.id = remoteIds
      by_cases hx : x = rule.id r
      · by_cases hroutes : rule.routesCollisions = true ∨ x ∉ ids
        · simp [hx, hx ▸ hroutes]
        · simp [hx, hx ▸ hroutes]
      · simp [hx]
    · intro P hP r' hr'
      rw [← hsource] at hP
      rcases List.mem_append.mp hr' with hr' | hr'
      · obtain ⟨e, he, hid, he'⟩ := ih.represents P (hsource ▸ hP) r' hr'
        rcases hone.keeps e he with he | he
        · exact ⟨e, he, hid, he'⟩
        · exact ⟨_, he, (rule.id_combine _ _ _).trans hid, hP.stable e r' r he'⟩
      · rw [List.mem_singleton.mp hr']
        rcases hone.represents with he | ⟨e, hid, he⟩
        · exact ⟨_, he, rule.id_adopt _ _, hP.adopt r⟩
        · exact ⟨_, he, (rule.id_combine _ _ _).trans hid, hP.combine e r⟩
    · rw [hone.added, ih.added, hsource, List.filter_append, List.map_append]
      congr 1
      generalize known.map rule.id = ids
      by_cases hr : rule.id r ∈ ids
      · simp [hr]
      · simp [hr]

theorem Merges.contributes {known remote : List α} {merger : EntityMerger}
    {result : List α × EntityMerger} (h : Merges rule known remote merger result) :
    ∀ r ∈ remote, ∃ e ∈ result.1, rule.id e = rule.id r ∧
      merger.peerSource ∈ rule.contributors e := by
  apply h.represents fun _ e => merger.peerSource ∈ rule.contributors e
  refine ⟨?_, ?_, ?_⟩
  · intro r
    rw [rule.contributors_adopt, mem_appendContributorUnique]
    exact .inr rfl
  · intro e r
    rw [rule.contributors_combine, mem_appendContributorUnique]
    exact .inr rfl
  · intro e r r' he
    rw [rule.contributors_combine, mem_appendContributorUnique]
    exact .inl he

end ById

namespace EntityMerger

def mergedAppId (peerName : Str) (localIds : List Str) (id : Str) : Str :=
  if id ∈ localIds then peerName ++ separator ++ id else id

theorem id_addedApp (merger : EntityMerger) (localIds : List Str) (app : App) :
    (merger.addedApp localIds app).id = mergedAppId merger.peerName localIds app.id := by
  unfold addedApp mergedAppId
  by_cases h : app.id ∈ localIds
  · simp [h, prefixId]
  · simp [h]

theorem mergeApps_eq (merger : EntityMerger) (known remote : List App) :
    (merger.mergeApps known remote).1 =
      known ++ remote.map (merger.addedApp (known.map (·.id))) ∧
    (merger.mergeApps known remote).2.peerName = merger.peerName ∧
    ∀ x : Str, (merger.mergeApps known remote).2.routingTable[x]? =
      if x ∈ remote.map fun app => mergedAppId merger.peerName (known.map (·.id)) app.id then
        some merger.peerName
      else merger.routingTable[x]? := by
  have hfold : ∀ (remote : List App) (result : List App) (m : EntityMerger),
      m.peerName = merger.peerName →
      let final := remote.foldl (fun state app =>
        let added := state.2.addedApp (known.map (·.id)) app
        (state.1 ++ [added], state.2.route added.id)) (result, m)
      final.1 = result ++ remote.map (merger.addedApp (known.map (·.id))) ∧
      final.2.peerName = merger.peerName ∧
      ∀ x : Str, final.2.routingTable[x]? =
        if x ∈ remote.map fun app => mergedAppId merger.peerName (known.map (·.id)) app.id then
          some merger.peerName
        else m.routingTable[x]? := by
    intro remote
    induction remote with
    | nil =>
      intro result m hm
      exact ⟨by simp, hm, by simp⟩
    | cons app remote ih =>
      intro result m hm
      have hadded : m.addedApp (known.map (·.id)) app = merger.addedApp (known.map (·.id)) app := by
        simp only [addedApp, peerSource, prefixId, hm]
      obtain ⟨hresult, hname, hroutes⟩ := ih (result ++ [m.addedApp (known.map (·.id)) app])
        (m.route (m.addedApp (known.map (·.id)) app).id) hm
      refine ⟨?_, hname, ?_⟩
      · rw [List.foldl_cons, hresult, hadded]
        simp
      · intro x
        rw [List.foldl_cons, hroutes x, getElem?_route, id_addedApp, hm, List.map_cons]
        by_cases hx : x = mergedAppId merger.peerName (known.map (·.id)) app.id
        · simp only [hx, List.mem_cons, true_or, if_true, ite_self]
        · simp only [hx, List.mem_cons, false_or, if_false]
  exact hfold remote known merger rfl

end EntityMerger

end Medkit.Gateway
