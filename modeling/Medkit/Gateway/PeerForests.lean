import Medkit.Gateway.PeerIds

/-! Which entities of a peer a fetch brings. The list endpoints give the entities without a parent
and the nested endpoints the children of one entity; the fetch asks for the children of the listed
entities and goes no deeper. -/
namespace Medkit.Gateway.PeerClient

open Lib

structure Holdings where
  areas : List Area := []
  components : List Component := []
  apps : List Str := []
  functions : List Str := []

def idsUnder {α : Type} (id parent : α → Str) (entities : List α) (under : Str) : List Str :=
  (entities.filter fun entity => parent entity = under).map id

def Holdings.areasUnder (held : Holdings) : Str → List Str :=
  idsUnder Area.id Area.parentAreaId held.areas

def Holdings.componentsUnder (held : Holdings) : Str → List Str :=
  idsUnder Component.id Component.parentComponentId held.components

/-- The request succeeds, whatever was asked before, with a body of the given kind. -/
def Answers (peer : Peer) (request : Request) (kind : Json → Prop) : Prop :=
  ∀ requests, ∃ response json, peer requests request = some response ∧ response.status = 200 ∧
    response.size ≤ maxPeerResponseSize ∧ response.json = some json ∧ kind json

def Lists {α : Type} (parser : Json → Except JsonError α) (id : α → Str) (ids : List Str)
    (body : Json) : Prop :=
  ∃ listed, parseCollection body parser = .ok listed ∧ (listed.map id).Perm ids

/-- Every request that concerns the holdings succeeds: the lists give the entities without a parent,
the nested lists the direct children, and the details the entity that was asked for. -/
structure Serves (peer : Peer) (held : Holdings) : Prop where
  areas : Answers peer .areas (Lists parseArea Area.id (held.areasUnder []))
  subareas : ∀ area ∈ held.areas, Answers peer (.subareas area.id)
    (Lists parseArea Area.id (held.areasUnder area.id))
  components : Answers peer .components
    (Lists parseComponent Component.id (held.componentsUnder []))
  subcomponents : ∀ comp ∈ held.components, Answers peer (.subcomponents comp.id)
    (Lists parseComponent Component.id (held.componentsUnder comp.id))
  component : ∀ comp ∈ held.components, Answers peer (.component comp.id) fun body =>
    ∃ detail, parseComponent body = .ok detail ∧ detail.id = comp.id
  apps : Answers peer .apps (Lists parseApp App.id held.apps)
  operations : ∀ id ∈ held.apps, Answers peer (.operations id) fun body =>
    ∀ app, ∃ app', parseOperationsInto body app = .ok app'
  data : ∀ id ∈ held.apps, Answers peer (.data id) fun body =>
    ∀ app, ∃ app', parseDataItemsInto body app = .ok app'
  functions : Answers peer .functions (Lists parseFunction SovdFunction.id held.functions)
  function : ∀ id ∈ held.functions, Answers peer (.function id) fun body =>
    ∃ func, parseFunction body = .ok func

/-! ## One request -/

section Requests

variable {peerName : Str} {peer : Peer} {request : Request} {kind : Json → Prop}

theorem returns_parsed {α : Type} {result : Except JsonError α} {a : α} (h : result = .ok a) :
    ReturnsIff True (parsed result) (· = a) := by
  rw [h]
  exact .pure rfl

theorem returns_ask (h : Answers peer request kind) :
    ReturnsIff True (ask peerName peer request) fun sub =>
      ∃ json, sub = .body json ∧ kind json := by
  intro progress
  obtain ⟨response, json, hpeer, hstatus, hsize, hjson, hkind⟩ := h progress.requests
  refine .inl ⟨.body json, ?_, trivial, json, rfl, hkind⟩
  have hread : readSubResponse peerName request (some response) = .ok (.body json) := by
    simp [readSubResponse, readBody, hstatus, Nat.not_lt.mpr hsize, hjson, Except.map]
  have hsent : (ask peerName peer request).run.run progress =
      ((parsed (readSubResponse peerName request (peer progress.requests request))).run.run
        { progress with requests := progress.requests ++ [request] }) := rfl
  rw [hsent, hpeer, hread]
  rfl

theorem returns_askBody (h : Answers peer request kind) :
    ReturnsIff True (askBody peerName peer request) kind := by
  refine (returns_ask h).bind_of_true ?_
  rintro _ ⟨json, rfl, hkind⟩
  exact .pure hkind

theorem returns_fetchNested (h : Answers peer request kind) (template : Str) :
    ReturnsIff True (fetchNested peerName peer request template) fun body =>
      ∃ json, body = some json ∧ kind json := by
  refine (returns_ask h).bind_of_true ?_
  rintro _ ⟨json, rfl, hkind⟩
  exact .pure ⟨json, rfl, hkind⟩

theorem map_filter_valid {α : Type} (id : α → Str) (listed : List α) :
    (listed.filter fun entity => isValidEntityId (id entity)).map id =
      (listed.map id).filter isValidEntityId := by
  rw [List.filter_map]
  rfl

theorem returns_fetchCollection {α : Type} {parser : Json → Except JsonError α} {id : α → Str}
    {ids : List Str} (h : Answers peer request (Lists parser id ids)) (what : Str) :
    ReturnsIff ((ids.filter isValidEntityId).length ≤ maxEntitiesPerCollection)
      (fetchCollection peerName peer request parser id what)
      fun entities => (entities.map id).Perm (ids.filter isValidEntityId) := by
  refine (returns_askBody h).bind_of_true ?_
  rintro body ⟨listed, hparsed, hids⟩
  refine (returns_parsed hparsed).bind_of_true ?_
  rintro _ rfl
  have hvalid := hids.filter isValidEntityId
  rw [← map_filter_valid] at hvalid
  have hlength := hvalid.length_eq
  rw [List.length_map] at hlength
  dsimp only
  intro progress
  split
  · exact .inr ⟨_, rfl, by omega⟩
  · exact .inl ⟨_, rfl, by omega, hvalid⟩

end Requests

/-! ## Two levels -/

section Levels

def twoLevels (under : Str → List Str) : List Str :=
  let roots := (under []).filter isValidEntityId
  roots ++ roots.flatMap fun root => (under root).filter isValidEntityId

/-- Every entity is a root or the child of one, and all ids are valid. -/
def Shallow {α : Type} (id parent : α → Str) (entities : List α) : Prop :=
  ∀ entity ∈ entities, isValidEntityId (id entity) = true ∧
    (parent entity = [] ∨ ∃ root ∈ entities, parent root = [] ∧ parent entity = id root)
deriving Decidable

variable {α β : Type} {id parent : α → Str} {entities : List α}

theorem mem_idsUnder {x under : Str} :
    x ∈ idsUnder id parent entities under ↔
      ∃ entity ∈ entities, parent entity = under ∧ id entity = x := by
  simp [idsUnder, and_assoc]

theorem nodup_twoLevels (hids : (entities.map id).Nodup) :
    (twoLevels (idsUnder id parent entities)).Nodup := by
  have hunder : ∀ under, ((idsUnder id parent entities under).filter isValidEntityId).Nodup :=
    fun under => (hids.sublist (List.filter_sublist.map id)).filter _
  -- an id has one entity and so one parent
  have hparent : ∀ {x under under'}, x ∈ idsUnder id parent entities under →
      x ∈ idsUnder id parent entities under' → under = under' := by
    intro x under under' h h'
    obtain ⟨entity, hmem, rfl, rfl⟩ := mem_idsUnder.mp h
    obtain ⟨entity', hmem', rfl, hid⟩ := mem_idsUnder.mp h'
    rw [List.inj_on_of_nodup_map hids hmem' hmem hid]
  refine List.nodup_append.mpr
    ⟨hunder [], List.nodup_flatMap.mpr ⟨fun root _ => hunder root, ?_⟩, ?_⟩
  · refine (hunder []).imp fun {root root'} hne x hx hx' => hne ?_
    exact hparent (List.mem_filter.mp hx).1 (List.mem_filter.mp hx').1
  · rintro x hx y hy rfl
    obtain ⟨root, hroot, hy⟩ := List.mem_flatMap.mp hy
    have hempty := hparent (List.mem_filter.mp hx).1 (List.mem_filter.mp hy).1
    rw [← hempty] at hroot
    exact absurd (List.mem_filter.mp hroot).2 (by decide)

theorem mem_twoLevels {x : Str} :
    x ∈ twoLevels (idsUnder id parent entities) ↔
      ∃ entity ∈ entities, id entity = x ∧ isValidEntityId x = true ∧
        (parent entity = [] ∨ ∃ root ∈ entities, parent root = [] ∧
          isValidEntityId (id root) = true ∧ parent entity = id root) := by
  simp only [twoLevels, List.mem_append, List.mem_flatMap, List.mem_filter, mem_idsUnder]
  constructor
  · rintro (⟨⟨entity, hmem, hparent, hid⟩, hvalid⟩ |
      ⟨_, ⟨⟨root, hroot, hnone, rfl⟩, hok⟩, ⟨entity, hmem, hparent, hid⟩, hvalid⟩)
    · exact ⟨entity, hmem, hid, hvalid, .inl hparent⟩
    · exact ⟨entity, hmem, hid, hvalid, .inr ⟨root, hroot, hnone, hok, hparent⟩⟩
  · rintro ⟨entity, hmem, hid, hvalid, hparent | ⟨root, hroot, hnone, hok, hparent⟩⟩
    · exact .inl ⟨⟨entity, hmem, hparent, hid⟩, hvalid⟩
    · exact .inr ⟨id root, ⟨⟨root, hroot, hnone, rfl⟩, hok⟩, ⟨entity, hmem, hparent, hid⟩, hvalid⟩

theorem twoLevels_perm_iff (hids : (entities.map id).Nodup) :
    (twoLevels (idsUnder id parent entities)).Perm (entities.map id) ↔
      Shallow id parent entities := by
  rw [List.perm_ext_iff_of_nodup (nodup_twoLevels hids) hids]
  constructor
  · intro h entity hmem
    obtain ⟨entity', hmem', hid, hvalid, hlevel⟩ :=
      mem_twoLevels.mp ((h (id entity)).mpr (List.mem_map_of_mem hmem))
    rw [List.inj_on_of_nodup_map hids hmem' hmem hid] at hlevel
    refine ⟨hvalid, hlevel.imp_right ?_⟩
    rintro ⟨root, hroot, hnone, -, hparent⟩
    exact ⟨root, hroot, hnone, hparent⟩
  · intro h x
    rw [mem_twoLevels, List.mem_map]
    constructor
    · rintro ⟨entity, hmem, hid, -⟩
      exact ⟨entity, hmem, hid⟩
    · rintro ⟨entity, hmem, rfl⟩
      refine ⟨entity, hmem, rfl, (h entity hmem).1, (h entity hmem).2.imp_right ?_⟩
      rintro ⟨root, hroot, hnone, hparent⟩
      exact ⟨root, hroot, hnone, (h root hroot).1, hparent⟩

theorem perm_twoLevels {key : β → Str} {under : Str → List Str} {roots : List β}
    {children : List (List β)} (hroots : (roots.map key).Perm ((under []).filter isValidEntityId))
    (hchildren : List.Forall₂ (fun root children =>
      (children.map key).Perm ((under (key root)).filter isValidEntityId)) roots children) :
    ((roots ++ children.flatten).map key).Perm (twoLevels under) := by
  rw [List.map_append]
  refine hroots.append (List.Perm.trans ?_
    (hroots.flatMap_right fun root => (under root).filter isValidEntityId))
  clear hroots
  induction hchildren with
  | nil => exact .refl _
  | cons hhead _ ih =>
    rw [List.flatten_cons, List.map_append, List.map_cons, List.flatMap_cons]
    exact hhead.append ih

theorem exists_of_mem_filter_idsUnder {key : β → Str} {listed : List β} {under : Str}
    (hlisted : (listed.map key).Perm ((idsUnder id parent entities under).filter isValidEntityId))
    {b : β} (hb : b ∈ listed) : ∃ entity ∈ entities, id entity = key b := by
  have hkey := hlisted.mem_iff.mp (List.mem_map_of_mem hb)
  obtain ⟨entity, hmem, -, hid⟩ := mem_idsUnder.mp (List.mem_filter.mp hkey).1
  exact ⟨entity, hmem, hid⟩

end Levels

/-! ## The fetch -/

section Fetch

variable {peerName : Str} {peer : Peer} {held : Holdings} (served : Serves peer held)

include served

theorem returns_fetchSubareas {area : Area} (harea : ∃ entity ∈ held.areas, entity.id = area.id) :
    ReturnsIff True (fetchSubareas peerName peer area) fun subareas =>
      (subareas.map Area.id).Perm ((held.areasUnder area.id).filter isValidEntityId) := by
  obtain ⟨entity, hmem, hid⟩ := harea
  have hanswers := served.subareas entity hmem
  rw [hid] at hanswers
  refine (returns_fetchNested hanswers _).bind_of_true ?_
  rintro _ ⟨body, rfl, listed, hparsed, hids⟩
  refine (returns_parsed hparsed).bind_of_true ?_
  intro _ hlisted
  refine .pure ?_
  rw [hlisted, List.map_map]
  exact (map_filter_valid Area.id listed) ▸ hids.filter isValidEntityId

theorem returns_fetchAreas :
    ReturnsIff (((held.areasUnder []).filter isValidEntityId).length ≤ maxEntitiesPerCollection)
      (fetchAreas peerName peer)
      fun areas => (areas.map Area.id).Perm (twoLevels held.areasUnder) := by
  refine (returns_fetchCollection served.areas _).bind_true fun listed hlisted => ?_
  have hareas : ((listed.map (ownArea peerName)).map Area.id).Perm
      ((held.areasUnder []).filter isValidEntityId) := by
    rw [List.map_map]
    exact hlisted
  refine (ReturnsIff.mapM fun area harea => returns_fetchSubareas served
    (exists_of_mem_filter_idsUnder hareas harea)).bind_of_true fun subareas hsub => ?_
  exact .pure (perm_twoLevels hareas hsub)

theorem returns_describeComponent {comp : Component} (parent : Option Str)
    (hcomp : ∃ entity ∈ held.components, entity.id = comp.id) :
    ReturnsIff True (describeComponent peerName peer comp parent) fun detail =>
      detail.id = comp.id := by
  obtain ⟨entity, hmem, hid⟩ := hcomp
  have hanswers := served.component entity hmem
  rw [hid] at hanswers
  refine (returns_ask hanswers).bind_of_true ?_
  rintro _ ⟨json, rfl, detail, hparsed, hdetail⟩
  refine (returns_parsed hparsed).bind_of_true ?_
  rintro _ rfl
  exact .pure hdetail

theorem returns_describeComponents {comps : List Component} (parent : Option Str)
    (hcomps : ∀ comp ∈ comps, ∃ entity ∈ held.components, entity.id = comp.id) :
    ReturnsIff True (comps.mapM fun comp => describeComponent peerName peer comp parent)
      fun details => details.map Component.id = comps.map Component.id := by
  refine (ReturnsIff.mapM fun comp hcomp => returns_describeComponent served parent
    (hcomps comp hcomp)).weaken .rfl fun details hdetails => ?_
  clear hcomps
  induction hdetails with
  | nil => rfl
  | cons hid _ ih => rw [List.map_cons, List.map_cons, hid, ih]

theorem returns_fetchSubcomponents {comp : Component}
    (hcomp : ∃ entity ∈ held.components, entity.id = comp.id) :
    ReturnsIff True (fetchSubcomponents peerName peer comp) fun subcomps =>
      (subcomps.map Component.id).Perm
        ((held.componentsUnder comp.id).filter isValidEntityId) := by
  obtain ⟨entity, hmem, hid⟩ := hcomp
  have hanswers := served.subcomponents entity hmem
  rw [hid] at hanswers
  refine (returns_fetchNested hanswers _).bind_of_true ?_
  rintro _ ⟨body, rfl, listed, hparsed, hids⟩
  refine (returns_parsed hparsed).bind_of_true ?_
  intro _ hlisted
  rw [hlisted]
  have hvalid := hids.filter isValidEntityId
  rw [← map_filter_valid] at hvalid
  refine (returns_describeComponents served _ fun sub hsub =>
    exists_of_mem_filter_idsUnder hvalid hsub).weaken .rfl fun details hdetails => ?_
  rw [hdetails]
  exact hvalid

theorem returns_fetchComponents :
    ReturnsIff
      (((held.componentsUnder []).filter isValidEntityId).length ≤ maxEntitiesPerCollection)
      (fetchComponents peerName peer)
      fun comps => (comps.map Component.id).Perm (twoLevels held.componentsUnder) := by
  refine (returns_fetchCollection served.components _).bind_true fun listed hlisted => ?_
  refine (returns_describeComponents served none fun comp hcomp =>
    exists_of_mem_filter_idsUnder hlisted hcomp).bind_of_true fun comps hcomps => ?_
  rw [← hcomps] at hlisted
  refine (ReturnsIff.mapM fun comp hcomp => returns_fetchSubcomponents served
    (exists_of_mem_filter_idsUnder hlisted hcomp)).bind_of_true fun subcomps hsub => ?_
  exact .pure (perm_twoLevels hlisted hsub)

theorem returns_fetchOperations {app : App} (happ : app.id ∈ held.apps) :
    ReturnsIff True (fetchOperations peerName peer app) fun app' => app'.id = app.id := by
  refine (returns_fetchNested (served.operations app.id happ) _).bind_of_true ?_
  rintro _ ⟨body, rfl, hparses⟩
  obtain ⟨app', hparsed⟩ := hparses app
  refine (returns_parsed hparsed).weaken .rfl ?_
  rintro _ rfl
  exact id_foldlM id_addOperation hparsed

theorem returns_fetchData {app : App} (happ : app.id ∈ held.apps) :
    ReturnsIff True (fetchData peerName peer app) fun _ => True := by
  refine (returns_fetchNested (served.data app.id happ) _).bind_of_true ?_
  rintro _ ⟨body, rfl, hparses⟩
  obtain ⟨app', hparsed⟩ := hparses app
  exact (returns_parsed hparsed).weaken .rfl fun _ _ => trivial

theorem returns_fetchApps :
    ReturnsIff ((held.apps.filter isValidEntityId).length ≤ maxEntitiesPerCollection)
      (fetchApps peerName peer) fun _ => True := by
  refine (returns_fetchCollection served.apps _).bind_true fun listed hlisted => ?_
  refine .mapM_true fun app happ => ?_
  have hid : app.id ∈ held.apps := by
    obtain ⟨found, hfound, rfl⟩ := List.mem_map.mp (List.mem_filter.mp happ).1
    exact (List.mem_filter.mp (hlisted.mem_iff.mp (List.mem_map_of_mem hfound))).1
  refine (returns_fetchOperations served hid).bind_of_true fun app' hsame => ?_
  exact returns_fetchData served (hsame ▸ hid)

theorem returns_fetchFunctions :
    ReturnsIff ((held.functions.filter isValidEntityId).length ≤ maxEntitiesPerCollection)
      (fetchFunctions peerName peer) fun _ => True := by
  refine (returns_fetchCollection served.functions _).bind_true fun listed hlisted => ?_
  refine .mapM_true fun func hfunc => ?_
  have hid := (List.mem_filter.mp (hlisted.mem_iff.mp (List.mem_map_of_mem hfunc))).1
  refine (returns_askBody (served.function func.id hid)).bind_of_true ?_
  rintro body ⟨detail, hparsed⟩
  exact (returns_parsed hparsed).bind_of_true fun _ _ => .pure trivial

def Holdings.WithinLimit (held : Holdings) : Prop :=
  ((held.areasUnder []).filter isValidEntityId).length ≤ maxEntitiesPerCollection ∧
    ((held.componentsUnder []).filter isValidEntityId).length ≤ maxEntitiesPerCollection ∧
    (held.apps.filter isValidEntityId).length ≤ maxEntitiesPerCollection ∧
    (held.functions.filter isValidEntityId).length ≤ maxEntitiesPerCollection
deriving Decidable

theorem returns_fetchEntities :
    ReturnsIff held.WithinLimit (fetchEntities peerName peer false) fun result =>
      (result.entities.areas.map Area.id).Perm (twoLevels held.areasUnder) ∧
        (result.entities.components.map Component.id).Perm (twoLevels held.componentsUnder) := by
  refine (returns_fetchAreas served).bind fun areas hareas => ?_
  refine (returns_fetchComponents served).bind fun components hcomponents => ?_
  refine (returns_fetchApps served).bind fun apps _ => ?_
  refine (returns_fetchFunctions served).bind_true fun functions _ => ?_
  exact fun progress => .inl ⟨_, rfl, trivial, hareas, hcomponents⟩

end Fetch

def FetchResult.Complete (result : FetchResult) (held : Holdings) : Prop :=
  (result.entities.areas.map Area.id).Perm (held.areas.map Area.id) ∧
    (result.entities.components.map Component.id).Perm (held.components.map Component.id)

/-- A fetch from a peer that answers every request brings all of its areas and components, each
once, exactly if both forests have at most two levels, all ids are valid and no list exceeds the
limit. -/
theorem fetch_complete_iff (peerName : Str) {peer : Peer} {held : Holdings}
    (served : Serves peer held) (hareas : (held.areas.map Area.id).Nodup)
    (hcomponents : (held.components.map Component.id).Nodup) :
    (∃ result, ((fetchEntities peerName peer false).run.run {}).1 = .ok result ∧
      result.Complete held) ↔
    Shallow Area.id Area.parentAreaId held.areas ∧
      Shallow Component.id Component.parentComponentId held.components ∧ held.WithinLimit := by
  rw [← twoLevels_perm_iff hareas, ← twoLevels_perm_iff hcomponents]
  have hreturns : ReturnsIff held.WithinLimit (fetchEntities peerName peer false) _ :=
    returns_fetchEntities served
  rcases hreturns {} with
    ⟨result, hrun, hlimit, hlevels⟩ | ⟨error, hrun, hlimit⟩
  · rw [hrun]
    constructor
    · rintro ⟨_, heq, hcomplete⟩
      cases heq
      exact ⟨hlevels.1.symm.trans hcomplete.1, hlevels.2.symm.trans hcomplete.2, hlimit⟩
    · rintro ⟨hfirst, hsecond, -⟩
      exact ⟨result, rfl, hlevels.1.trans hfirst, hlevels.2.trans hsecond⟩
  · rw [hrun]
    constructor
    · rintro ⟨_, heq, -⟩
      cases heq
    · rintro ⟨-, -, h⟩
      exact absurd h hlimit

def collectionOf (ids : List Str) : Json := .object [(str "items", .array (ids.map entityOf))]

def peerWithAreas (areas : List Area) : Peer
  | _, .areas => some ⟨200, some (collectionOf (Holdings.areasUnder { areas } [])), 0⟩
  | _, .subareas id => some ⟨200, some (collectionOf (Holdings.areasUnder { areas } id)), 0⟩
  | _, _ => some ⟨200, some (collectionOf []), 0⟩

theorem lists_collectionOf (ids : List Str) : Lists parseArea Area.id ids (collectionOf ids) := by
  have hparsed : (ids.map entityOf).mapM parseArea =
      .ok (ids.map fun id => { id, name := [] }) := by
    induction ids with
    | nil => rfl
    | cons id ids ih =>
      rw [List.map_cons, List.mapM_cons, ih]
      rfl
  refine ⟨_, hparsed, ?_⟩
  rw [List.map_map]
  simp [Function.comp_def]

theorem serves_peerWithAreas (areas : List Area) : Serves (peerWithAreas areas) { areas } where
  areas := fun _ => ⟨_, _, rfl, rfl, Nat.zero_le _, rfl, lists_collectionOf _⟩
  subareas := fun _ _ _ => ⟨_, _, rfl, rfl, Nat.zero_le _, rfl, lists_collectionOf _⟩
  components := fun _ => ⟨_, _, rfl, rfl, Nat.zero_le _, rfl, [], rfl, .refl _⟩
  subcomponents := by simp
  component := by simp
  apps := fun _ => ⟨_, _, rfl, rfl, Nat.zero_le _, rfl, [], rfl, .refl _⟩
  operations := by simp
  data := by simp
  functions := fun _ => ⟨_, _, rfl, rfl, Nat.zero_le _, rfl, [], rfl, .refl _⟩
  function := by simp

def areaIn (parent id : Str) : Area := { id, name := [], parentAreaId := parent }

theorem fetch_complete_iff_of_cabin :
    let areas := [areaIn [] (str "cabin"), areaIn (str "cabin") (str "seat")]
    ∃ result, ((fetchEntities (str "p") (peerWithAreas areas) false).run.run {}).1 = .ok result ∧
      result.Complete { areas } :=
  (fetch_complete_iff (str "p") (serves_peerWithAreas _) (by decide) (by decide)).mpr
    ⟨by decide, by decide, by decide⟩

/-- In a chain of three areas the last one is never asked for. -/
theorem third_area_missed :
    let areas := [areaIn [] (str "cabin"), areaIn (str "cabin") (str "seat"),
      areaIn (str "seat") (str "belt")]
    Serves (peerWithAreas areas) { areas } ∧
      ((fetchEntities (str "p") (peerWithAreas areas) false).run.run {}).1.toOption.map
        (fun result => result.entities.areas.map (·.id)) = some [str "cabin", str "seat"] :=
  ⟨serves_peerWithAreas _, by decide⟩

end Medkit.Gateway.PeerClient
