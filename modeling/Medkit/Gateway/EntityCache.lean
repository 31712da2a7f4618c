import Medkit.Gateway.Entities
import Medkit.Lib.Explored

/-! The entities below an area, a component or a function, as the entity cache collects them. -/
namespace Medkit.Gateway

open Lib

/-- The entities in the slots that are live, in the order of the slots. -/
structure EntityCache where
  areas : List Area := []
  components : List Component := []
  apps : List App := []
  functions : List SovdFunction := []

namespace EntityCache

/-! ## Indexes -/

def index (links : List (Str × Str)) : OMap Str (List Str) :=
  links.foldl (fun index link => index.insert link.1 (index.getD link.1 [] ++ [link.2])) ∅

structure RelationshipIndexes where
  componentToApps : OMap Str (List Str)
  areaToComponents : OMap Str (List Str)
  componentToSubcomponents : OMap Str (List Str)
  areaToSubareas : OMap Str (List Str)
  functionToApps : OMap Str (List Str)
  functionToComponents : OMap Str (List Str)

def isApp (cache : EntityCache) (id : Str) : Bool := id ∈ cache.apps.map (·.id)

def isComponent (cache : EntityCache) (id : Str) : Bool := id ∈ cache.components.map (·.id)

def links {α : Type} (parent id : α → Str) (entities : List α) : List (Str × Str) :=
  (entities.filter (parent · ≠ [])).map fun entity => (parent entity, id entity)

def hostLinks (functions : List SovdFunction) (keep : Str → Bool) : List (Str × Str) :=
  functions.flatMap fun func => (func.hosts.filter keep).map (func.id, ·)

/-- A host is taken for a component only if no app has its id. -/
def rebuildRelationshipIndexes (cache : EntityCache) : RelationshipIndexes where
  componentToApps := index (links App.componentId App.id cache.apps)
  areaToComponents := index (links Component.area Component.id cache.components)
  componentToSubcomponents :=
    index (links Component.parentComponentId Component.id cache.components)
  areaToSubareas := index (links Area.parentAreaId Area.id cache.areas)
  functionToApps := index (hostLinks cache.functions cache.isApp)
  functionToComponents := index (hostLinks cache.functions fun host =>
    !cache.isApp host && cache.isComponent host)

theorem mem_index {links : List (Str × Str)} {key id : Str} :
    id ∈ (index links).getD key [] ↔ (key, id) ∈ links := by
  unfold index
  induction links using List.reverseRecOn with
  | nil => simp
  | append_singleton links link ih =>
    rw [List.foldl_concat, Std.ExtTreeMap.getD_insert]
    split
    · rename_i heq
      obtain rfl := Std.LawfulEqCmp.compare_eq_iff_eq.mp heq
      simp [ih, Prod.ext_iff]
    · rename_i hne
      have hkey : key ≠ link.1 := fun h => hne (Std.LawfulEqCmp.compare_eq_iff_eq.mpr h.symm)
      simp [ih, Prod.ext_iff, hkey]

theorem mem_index_links {α : Type} {parent id : α → Str} {entities : List α} {key x : Str}
    (hkey : key ≠ []) : x ∈ (index (links parent id entities)).getD key [] ↔
      ∃ entity ∈ entities, parent entity = key ∧ id entity = x := by
  rw [mem_index, links, List.mem_map]
  constructor
  · rintro ⟨entity, hentity, hlink⟩
    exact ⟨entity, (List.mem_filter.mp hentity).1, Prod.ext_iff.mp hlink⟩
  · rintro ⟨entity, hentity, rfl, rfl⟩
    exact ⟨entity, List.mem_filter.mpr ⟨hentity, by simpa using hkey⟩, rfl⟩

theorem mem_index_hostLinks {functions : List SovdFunction} {keep : Str → Bool} {id host : Str} :
    host ∈ (index (hostLinks functions keep)).getD id [] ↔
      keep host = true ∧ ∃ func ∈ functions, func.id = id ∧ host ∈ func.hosts := by
  rw [mem_index, hostLinks, List.mem_flatMap]
  constructor
  · rintro ⟨func, hfunc, hlink⟩
    obtain ⟨x, hx, heq⟩ := List.mem_map.mp hlink
    obtain ⟨hid, rfl⟩ := Prod.ext_iff.mp heq
    exact ⟨(List.mem_filter.mp hx).2, func, hfunc, hid, (List.mem_filter.mp hx).1⟩
  · rintro ⟨hkeep, func, hfunc, rfl, hhost⟩
    exact ⟨func, hfunc, List.mem_map.mpr ⟨host, List.mem_filter.mpr ⟨hhost, hkeep⟩, rfl⟩⟩

/-! ## Collecting -/

structure Walk where
  members : List Str := []
  seen : OSet Str := ∅

def Walk.add (walk : Walk) (id : Str) : Walk :=
  if id = [] ∨ id ∈ walk.seen then walk
  else { members := walk.members ++ [id], seen := walk.seen.insert id }

def areaMark (id : Str) : Str := str "area:" ++ id

def Walk.markArea (walk : Walk) (id : Str) : Walk :=
  { walk with seen := walk.seen.insert (areaMark id) }

/-- The first argument bounds the depth of the calls. -/
def collectComponent (indexes : RelationshipIndexes) : Nat → Walk → Str → Option Walk
  | 0, _, _ => none
  | depth + 1, walk, id => do
      let walk ← (indexes.componentToApps.getD id []).foldlM (fun walk app => some (walk.add app))
        (walk.add id)
      (indexes.componentToSubcomponents.getD id []).foldlM (fun walk child =>
        if child ∈ walk.seen then some walk else collectComponent indexes depth walk child) walk

def collectArea (indexes : RelationshipIndexes) : Nat → Walk → Str → Option Walk
  | 0, _, _ => none
  | depth + 1, walk, id => do
      let walk ← (indexes.areaToComponents.getD id []).foldlM (collectComponent indexes depth) walk
      (indexes.areaToSubareas.getD id []).foldlM (fun walk sub =>
        if areaMark sub ∈ walk.seen then some walk
        else collectArea indexes depth (walk.markArea sub) sub) walk

def getMembers (cache : EntityCache) (depth : Nat) (type : SovdEntityType) (id : Str) :
    Option (List Str) := do
  let indexes := cache.rebuildRelationshipIndexes
  let walk ← match type with
    | .area => collectArea indexes depth (Walk.markArea {} id) id
    | .component => collectComponent indexes depth {} id
    | .function => do
        let walk ← (indexes.functionToApps.getD id []).foldlM
          (fun walk app => some (walk.add app)) {}
        (indexes.functionToComponents.getD id []).foldlM (collectComponent indexes depth) walk
    | .app | .server | .unknown => some (Walk.add {} id)
  return walk.members

/-! ## What an entity contains -/

inductive Node
  | area (id : Str)
  | component (id : Str)
  | app (id : Str)
deriving DecidableEq

def Node.mark : Node → Str
  | area id => areaMark id
  | component id => id
  | app id => id

def Node.memberId : Node → Option Str
  | area _ => none
  | component id => some id
  | app id => some id

def nodes (cache : EntityCache) : List Node :=
  cache.areas.map (.area ·.id) ++ cache.components.map (.component ·.id) ++
    cache.apps.map (.app ·.id)

inductive Contains (cache : EntityCache) : Node → Node → Prop
  | subarea {area : Area} : area ∈ cache.areas →
      Contains cache (.area area.parentAreaId) (.area area.id)
  | component {comp : Component} : comp ∈ cache.components →
      Contains cache (.area comp.area) (.component comp.id)
  | subcomponent {comp : Component} : comp ∈ cache.components →
      Contains cache (.component comp.parentComponentId) (.component comp.id)
  | app {app : App} : app ∈ cache.apps → Contains cache (.component app.componentId) (.app app.id)

/-- The nodes that an entity stands for; a function stands for its hosts. -/
def roots (cache : EntityCache) : SovdEntityType → Str → Set Node
  | .area, id => {.area id}
  | .component, id => {.component id}
  | .function, id => {node | node ∈ cache.nodes ∧
      ∃ host, (node = .app host ∨ node = .component host) ∧
        ∃ func ∈ cache.functions, func.id = id ∧ host ∈ func.hosts}
  | _, id => {.app id}

def reach (cache : EntityCache) (roots : Set Node) : Set Node :=
  {n | n ∈ cache.nodes ∧ Reached cache.Contains roots n}

/-- Of what the roots reach, the ids are not empty, no component shares its id with an app, and
neither has the mark of an area for its id. -/
structure Separate (cache : EntityCache) (roots : Set Node) : Prop where
  area_ne : ∀ id, .area id ∈ cache.reach roots → id ≠ []
  component_ne : ∀ id, .component id ∈ cache.reach roots → id ≠ []
  app_ne : ∀ id, .app id ∈ cache.reach roots → id ≠ []
  component_app : ∀ id, .component id ∈ cache.reach roots → .app id ∉ cache.reach roots
  area_component : ∀ id, .area id ∈ cache.reach roots →
    .component (areaMark id) ∉ cache.reach roots
  area_app : ∀ id, .area id ∈ cache.reach roots → .app (areaMark id) ∉ cache.reach roots

section Walks

variable {cache : EntityCache} {roots : Set Node}

variable {n : Node} {walk walk' : Walk} {id : Str} {l : List Str} {depth : Nat}

theorem Contains.mem_nodes {m : Node} (h : cache.Contains n m) : m ∈ cache.nodes := by
  cases h with
  | subarea harea => simpa [nodes] using ⟨_, harea, rfl⟩
  | component hcomp => simpa [nodes] using ⟨_, hcomp, rfl⟩
  | subcomponent hcomp => simpa [nodes] using ⟨_, hcomp, rfl⟩
  | app happ => simpa [nodes] using ⟨_, happ, rfl⟩

theorem Contains.mem_reach {m : Node} (h : cache.Contains n m) (hn : n ∈ cache.reach roots) :
    m ∈ cache.reach roots :=
  ⟨h.mem_nodes, hn.2.tail h⟩

theorem Separate.mark_ne_nil (hsep : cache.Separate roots) (hn : n ∈ cache.reach roots) :
    n.mark ≠ [] := by
  cases n with
  | area id => exact List.append_ne_nil_of_left_ne_nil (by decide) id
  | component id => exact hsep.component_ne id hn
  | app id => exact hsep.app_ne id hn

theorem Separate.mark_inj (hsep : cache.Separate roots) {m : Node} (hn : n ∈ cache.reach roots)
    (hm : m ∈ cache.reach roots) (h : n.mark = m.mark) : n = m := by
  cases n <;> cases m <;> simp only [Node.mark] at h
  case area.area => exact congrArg Node.area (List.append_cancel_left h)
  case area.component => exact absurd (h ▸ hm) (hsep.area_component _ hn)
  case area.app => exact absurd (h ▸ hm) (hsep.area_app _ hn)
  case component.area => exact absurd (h ▸ hn) (hsep.area_component _ hm)
  case component.component => exact congrArg Node.component h
  case component.app => exact absurd (h ▸ hm) (hsep.component_app _ hn)
  case app.area => exact absurd (h ▸ hn) (hsep.area_app _ hm)
  case app.component => exact absurd (h ▸ hn) (hsep.component_app _ hm)
  case app.app => exact congrArg Node.app h

def visited (cache : EntityCache) (roots : Set Node) (walk : Walk) : Set Node :=
  {n | n ∈ cache.reach roots ∧ n.mark ∈ walk.seen}

structure Good (cache : EntityCache) (roots : Set Node) (walk : Walk) : Prop where
  nodup : walk.members.Nodup
  mem_iff : ∀ id, id ∈ walk.members ↔ ∃ n ∈ cache.visited roots walk, n.memberId = some id

theorem visited_empty : cache.visited roots {} = ∅ := by
  ext n
  simp [visited]

theorem good_empty : cache.Good roots {} :=
  ⟨List.nodup_nil, by simp [visited_empty]⟩

theorem visited_eq_insert (hsep : cache.Separate roots) (hn : n ∈ cache.reach roots)
    (hseen : walk'.seen = walk.seen.insert n.mark) :
    cache.visited roots walk' = insert n (cache.visited roots walk) := by
  ext m
  simp only [visited, hseen, OSet.mem_insert_iff, Set.mem_insert_iff, Set.mem_ofPred_eq]
  constructor
  · rintro ⟨hm, hmark | hmark⟩
    · exact .inl (hsep.mark_inj hm hn hmark)
    · exact .inr ⟨hm, hmark⟩
  · rintro (rfl | ⟨hm, hmark⟩)
    · exact ⟨hn, .inl rfl⟩
    · exact ⟨hm, .inr hmark⟩

theorem visited_markArea (hsep : cache.Separate roots) (hid : .area id ∈ cache.reach roots)
    (walk : Walk) :
    cache.visited roots (walk.markArea id) = insert (.area id) (cache.visited roots walk) :=
  visited_eq_insert hsep hid rfl

theorem Good.markArea (hsep : cache.Separate roots) (hid : .area id ∈ cache.reach roots)
    (h : cache.Good roots walk) : cache.Good roots (walk.markArea id) where
  nodup := h.nodup
  mem_iff x := by
    rw [visited_markArea hsep hid, Set.exists_mem_insert, ← h.mem_iff]
    simp [Node.memberId, Walk.markArea]

theorem Node.mark_eq (h : n.memberId = some id) : n.mark = id := by
  cases n with
  | area => cases h
  | component => exact Option.some.inj h
  | app => exact Option.some.inj h

theorem Good.mem_seen (h : cache.Good roots walk) (hid : id ∈ walk.members) : id ∈ walk.seen := by
  obtain ⟨n, hn, hmember⟩ := (h.mem_iff id).mp hid
  exact Node.mark_eq hmember ▸ hn.2

theorem Good.add (hsep : cache.Separate roots) (hn : n ∈ cache.reach roots)
    (hid : n.memberId = some id) (h : cache.Good roots walk) : cache.Good roots (walk.add id) ∧
      cache.visited roots (walk.add id) = insert n (cache.visited roots walk) := by
  have hmark := Node.mark_eq hid
  rw [Walk.add]
  split
  · rename_i hskip
    have hseen := hskip.resolve_left (hmark ▸ hsep.mark_ne_nil hn)
    have hvisited : n ∈ cache.visited roots walk := ⟨hn, hmark.symm ▸ hseen⟩
    exact ⟨h, (Set.insert_eq_of_mem hvisited).symm⟩
  · rename_i hadd
    have hvisited : cache.visited roots ⟨walk.members ++ [id], walk.seen.insert id⟩ =
        insert n (cache.visited roots walk) := visited_eq_insert hsep hn (by rw [hmark])
    refine ⟨⟨?_, fun x => ?_⟩, hvisited⟩
    · rw [← List.concat_eq_append, List.nodup_concat]
      exact ⟨fun hmem => hadd (.inr (h.mem_seen hmem)), h.nodup⟩
    · rw [hvisited, Set.exists_mem_insert, ← h.mem_iff, hid, List.mem_append,
        List.mem_singleton, Option.some_inj, or_comm, eq_comm]

/-! ## The walk -/

noncomputable def pending (cache : EntityCache) (roots : Set Node) (walk : Walk) : Nat :=
  (cache.reach roots \ cache.visited roots walk).ncard

theorem finite_reach : (cache.reach roots).Finite :=
  cache.nodes.finite_toSet.subset fun _ hn => hn.1

theorem pending_le (h : cache.visited roots walk ⊆ cache.visited roots walk') :
    cache.pending roots walk' ≤ cache.pending roots walk :=
  Set.ncard_le_ncard (Set.sdiff_subset_sdiff_right h) finite_reach.sdiff

theorem pending_le_of_insert
    (hvisited : cache.visited roots walk' = insert n (cache.visited roots walk)) :
    cache.pending roots walk' ≤ cache.pending roots walk :=
  pending_le (hvisited ▸ Set.subset_insert _ _)

theorem pending_lt (hn : n ∈ cache.reach roots) (hnew : n ∉ cache.visited roots walk)
    (hvisited : cache.visited roots walk' = insert n (cache.visited roots walk)) :
    cache.pending roots walk' < cache.pending roots walk := by
  refine Set.ncard_lt_ncard ?_ finite_reach.sdiff
  rw [hvisited, Set.ssubset_iff_of_subset (Set.sdiff_subset_sdiff_right (Set.subset_insert _ _))]
  exact ⟨n, ⟨hn, hnew⟩, fun h => h.2 (Set.mem_insert n _)⟩

structure Walked (cache : EntityCache) (roots : Set Node) (walk walk' : Walk) : Prop where
  good : cache.Good roots walk'
  explored : Explored cache.Contains roots (cache.visited roots walk) (cache.visited roots walk')

theorem Walked.trans {mid : Walk} (h : cache.Walked roots walk mid)
    (h' : cache.Walked roots mid walk') : cache.Walked roots walk walk' :=
  ⟨h'.good, h.explored.trans h'.explored⟩

theorem walked_foldlM {f : Walk → Str → Option Walk} (node : Str → Node) {bound : Nat}
    (hf : ∀ id ∈ l, ∀ walk, cache.Good roots walk → cache.pending roots walk ≤ bound →
      ∃ walk', f walk id = some walk' ∧ cache.Walked roots walk walk' ∧
        node id ∈ cache.visited roots walk') (hgood : cache.Good roots walk)
    (hbound : cache.pending roots walk ≤ bound) :
    ∃ walk', l.foldlM f walk = some walk' ∧ cache.Walked roots walk walk' ∧
      ∀ id ∈ l, node id ∈ cache.visited roots walk' := by
  induction l generalizing walk with
  | nil => exact ⟨walk, rfl, ⟨hgood, .refl _⟩, by simp⟩
  | cons id l ih =>
    obtain ⟨mid, hmid, hwalked, hnode⟩ := hf id List.mem_cons_self walk hgood hbound
    obtain ⟨walk', hrest, hwalked', hnodes⟩ :=
      ih (fun x hx => hf x (List.mem_cons_of_mem _ hx)) hwalked.good
        ((pending_le hwalked.explored.subset).trans hbound)
    refine ⟨walk', ?_, hwalked.trans hwalked', ?_⟩
    · rw [List.foldlM_cons, hmid]
      exact hrest
    · exact List.forall_mem_cons.mpr ⟨hwalked'.explored.subset hnode, hnodes⟩

section

variable (hsep : cache.Separate roots)

include hsep

theorem walked_add (hid : .app id ∈ cache.reach roots) (hgood : cache.Good roots walk) :
    cache.Walked roots walk (walk.add id) ∧ .app id ∈ cache.visited roots (walk.add id) := by
  obtain ⟨hgood', hvisited⟩ := hgood.add hsep hid rfl
  rw [hvisited]
  refine ⟨⟨hgood', ?_⟩, Set.mem_insert _ _⟩
  rw [hvisited]
  refine Explored.of_insert (.refl _) hid.2 fun m hm => ?_
  cases hm

theorem walked_addApps (hl : ∀ id ∈ l, .app id ∈ cache.reach roots)
    (hgood : cache.Good roots walk) :
    ∃ walk', l.foldlM (fun walk app => some (walk.add app)) walk = some walk' ∧
      cache.Walked roots walk walk' ∧ ∀ id ∈ l, .app id ∈ cache.visited roots walk' := by
  refine walked_foldlM .app ?_ hgood le_rfl
  intro id hid walk hgood _
  exact ⟨_, rfl, walked_add hsep (hl id hid) hgood⟩

theorem collectComponent_walked (hgood : cache.Good roots walk)
    (hid : .component id ∈ cache.reach roots) (hdepth : cache.pending roots (walk.add id) < depth) :
    ∃ walk', collectComponent cache.rebuildRelationshipIndexes depth walk id = some walk' ∧
      cache.Walked roots walk walk' ∧ .component id ∈ cache.visited roots walk' := by
  induction depth generalizing id walk with
  | zero => cases hdepth
  | succ depth ih =>
    have hne : id ≠ [] := hsep.mark_ne_nil hid
    obtain ⟨hgood₀, hvisited⟩ := hgood.add hsep hid rfl
    -- The apps, then the children that the apps and the earlier children have not brought.
    obtain ⟨walk₁, hwalk₁, hwalked₁, happs⟩ : ∃ walk₁,
        (cache.rebuildRelationshipIndexes.componentToApps.getD id []).foldlM
          (fun walk app => some (walk.add app)) (walk.add id) = some walk₁ ∧ _ ∧ _ := by
      refine walked_addApps hsep (fun app happ => ?_) hgood₀
      obtain ⟨x, hx, rfl, rfl⟩ := (mem_index_links hne).mp happ
      exact (Contains.app hx).mem_reach hid
    obtain ⟨walk', hwalk', hwalked', hchildren⟩ : ∃ walk',
        (cache.rebuildRelationshipIndexes.componentToSubcomponents.getD id []).foldlM
          (fun walk child => if child ∈ walk.seen then some walk
            else collectComponent cache.rebuildRelationshipIndexes depth walk child) walk₁ =
          some walk' ∧ _ ∧ _ := by
      refine walked_foldlM .component (fun child hchild walk hgood hbound => ?_)
        hwalked₁.good ((pending_le hwalked₁.explored.subset).trans (Nat.le_of_lt_succ hdepth))
      obtain ⟨x, hx, rfl, rfl⟩ := (mem_index_links hne).mp hchild
      have hnode := (Contains.subcomponent hx).mem_reach hid
      split
      · next hseen => exact ⟨walk, rfl, ⟨hgood, .refl _⟩, hnode, hseen⟩
      · rename_i hseen
        refine ih hgood hnode (Nat.lt_of_lt_of_le ?_ hbound)
        exact pending_lt hnode (fun h => hseen h.2) (hgood.add hsep hnode rfl).2
    have hwalked := hwalked₁.trans hwalked'
    refine ⟨walk', ?_, ⟨hwalked.good, ?_⟩, ?_⟩
    · rw [collectComponent, hwalk₁]
      exact hwalk'
    · refine Explored.of_insert (hvisited ▸ hwalked.explored) hid.2 fun m hm => ?_
      cases hm with
      | subcomponent hx => exact hchildren _ ((mem_index_links hne).mpr ⟨_, hx, rfl, rfl⟩)
      | app hx =>
        exact hwalked'.explored.subset (happs _ ((mem_index_links hne).mpr ⟨_, hx, rfl, rfl⟩))
    · exact hwalked.explored.subset (hvisited ▸ Set.mem_insert _ _)

theorem walked_collectComponents (hl : ∀ id ∈ l, .component id ∈ cache.reach roots)
    (hgood : cache.Good roots walk) (hdepth : cache.pending roots walk < depth) :
    ∃ walk', l.foldlM (collectComponent cache.rebuildRelationshipIndexes depth) walk =
        some walk' ∧
      cache.Walked roots walk walk' ∧ ∀ id ∈ l, .component id ∈ cache.visited roots walk' := by
  refine walked_foldlM .component ?_ hgood le_rfl
  intro id hid walk hgood hbound
  refine collectComponent_walked hsep hgood (hl id hid) ?_
  have hpending := pending_le_of_insert (hgood.add hsep (hl id hid) rfl).2
  exact hpending.trans_lt (hbound.trans_lt hdepth)

theorem collectArea_walked (hgood : cache.Good roots walk) (hid : .area id ∈ cache.reach roots)
    (hdepth : cache.pending roots walk + 1 < depth) :
    ∃ walk', collectArea cache.rebuildRelationshipIndexes depth walk id = some walk' ∧
      cache.Walked roots walk walk' ∧
      ∀ m, cache.Contains (.area id) m → m ∈ cache.visited roots walk' := by
  induction depth generalizing id walk with
  | zero => cases hdepth
  | succ depth ih =>
    have hne : id ≠ [] := hsep.area_ne id hid
    have hdepth : cache.pending roots walk < depth := Nat.lt_of_succ_lt_succ hdepth
    obtain ⟨walk₁, hwalk₁, hwalked₁, hcomponents⟩ : ∃ walk₁,
        (cache.rebuildRelationshipIndexes.areaToComponents.getD id []).foldlM
          (collectComponent cache.rebuildRelationshipIndexes depth) walk =
            some walk₁ ∧ _ ∧ _ := by
      refine walked_collectComponents hsep (fun comp hcomp => ?_) hgood hdepth
      obtain ⟨x, hx, rfl, rfl⟩ := (mem_index_links hne).mp hcomp
      exact (Contains.component hx).mem_reach hid
    obtain ⟨walk', hwalk', hwalked', hsubareas⟩ : ∃ walk',
        (cache.rebuildRelationshipIndexes.areaToSubareas.getD id []).foldlM
          (fun walk sub => if areaMark sub ∈ walk.seen then some walk
            else collectArea cache.rebuildRelationshipIndexes depth (walk.markArea sub) sub)
          walk₁ = some walk' ∧ _ ∧ _ := by
      refine walked_foldlM .area (fun sub hsub walk hgood hbound => ?_)
        hwalked₁.good (pending_le hwalked₁.explored.subset)
      obtain ⟨x, hx, rfl, rfl⟩ := (mem_index_links hne).mp hsub
      have hnode := (Contains.subarea hx).mem_reach hid
      have hvisited := visited_markArea hsep hnode walk
      split
      · next hseen => exact ⟨walk, rfl, ⟨hgood, .refl _⟩, hnode, hseen⟩
      · rename_i hseen
        have hlt := pending_lt hnode (fun h => hseen h.2) hvisited
        obtain ⟨walk', hwalk', hwalked, hclosed⟩ := ih (hgood.markArea hsep hnode) hnode
          (by omega)
        refine ⟨walk', hwalk', ⟨hwalked.good, ?_⟩, ?_⟩
        · exact Explored.of_insert (hvisited ▸ hwalked.explored) hnode.2 hclosed
        · exact hwalked.explored.subset (hvisited ▸ Set.mem_insert _ _)
    refine ⟨walk', ?_, hwalked₁.trans hwalked', fun m hm => ?_⟩
    · rw [collectArea, hwalk₁]
      exact hwalk'
    · cases hm with
      | subarea hx => exact hsubareas _ ((mem_index_links hne).mpr ⟨_, hx, rfl, rfl⟩)
      | component hx =>
        exact hwalked'.explored.subset
          (hcomponents _ ((mem_index_links hne).mpr ⟨_, hx, rfl, rfl⟩))

end

theorem mem_functionToApps {host : Str} :
    host ∈ cache.rebuildRelationshipIndexes.functionToApps.getD id [] ↔
      .app host ∈ cache.roots .function id := by
  rw [rebuildRelationshipIndexes, mem_index_hostLinks]
  simp [EntityCache.roots, isApp, nodes]

theorem mem_nodes_of_function {root : Node} (h : root ∈ cache.roots .function id) :
    root ∈ cache.nodes :=
  h.1

theorem mem_reach_roots {type : SovdEntityType}
    (hid : ∀ root ∈ cache.roots type id, root ∈ cache.nodes) {root : Node}
    (hroot : root ∈ cache.roots type id) : root ∈ cache.reach (cache.roots type id) :=
  ⟨hid root hroot, root, hroot, .refl⟩

theorem mem_functionToComponents {host : Str} (hsep : cache.Separate (cache.roots .function id)) :
    host ∈ cache.rebuildRelationshipIndexes.functionToComponents.getD id [] ↔
      .component host ∈ cache.roots .function id := by
  have hcomponent : cache.isComponent host = true ↔ .component host ∈ cache.nodes := by
    simp [isComponent, nodes]
  have happ : cache.isApp host = true ↔ .app host ∈ cache.nodes := by simp [isApp, nodes]
  rw [rebuildRelationshipIndexes, mem_index_hostLinks, Bool.and_eq_true, hcomponent]
  constructor
  · exact fun h => ⟨h.1.2, host, .inr rfl, h.2⟩
  · intro hroot
    obtain ⟨hnode, x, hx, hfunc⟩ := hroot
    obtain rfl : host = x := by simpa using hx
    refine ⟨⟨?_, hnode⟩, hfunc⟩
    rw [Bool.not_eq_true', Bool.eq_false_iff, ne_eq, happ]
    intro hclash
    have hreach := @mem_reach_roots cache id .function fun _ => mem_nodes_of_function
    exact hsep.component_app host (hreach ⟨hnode, host, .inr rfl, hfunc⟩)
      (hreach ⟨hclash, host, .inl rfl, hfunc⟩)

theorem function_walked (hsep : cache.Separate (cache.roots .function id))
    (hdepth : cache.pending (cache.roots .function id) {} < depth) :
    ∃ walk₁ walk, (cache.rebuildRelationshipIndexes.functionToApps.getD id []).foldlM
        (fun walk app => some (walk.add app)) {} = some walk₁ ∧
      (cache.rebuildRelationshipIndexes.functionToComponents.getD id []).foldlM
        (collectComponent cache.rebuildRelationshipIndexes depth) walk₁ = some walk ∧
      cache.Walked (cache.roots .function id) {} walk ∧
      cache.roots .function id ⊆ cache.visited (cache.roots .function id) walk := by
  have hroot : ∀ node ∈ cache.roots .function id, node ∈ cache.reach (cache.roots .function id) :=
    fun node hnode => mem_reach_roots (fun _ => mem_nodes_of_function) hnode
  obtain ⟨walk₁, hwalk₁, hwalked₁, happs⟩ := walked_addApps hsep
    (fun host hhost => hroot _ (mem_functionToApps.mp hhost)) good_empty
  obtain ⟨walk, hwalk, hwalked, hcomponents⟩ := walked_collectComponents hsep
    (fun host hhost => hroot _ ((mem_functionToComponents hsep).mp hhost)) hwalked₁.good
    ((pending_le hwalked₁.explored.subset).trans_lt hdepth)
  refine ⟨walk₁, walk, hwalk₁, hwalk, hwalked₁.trans hwalked, fun node hnode => ?_⟩
  obtain ⟨host, hhost, -⟩ := hnode.2
  rcases hhost with rfl | rfl
  · exact hwalked.explored.subset (happs host (mem_functionToApps.mpr hnode))
  · exact hcomponents host ((mem_functionToComponents hsep).mpr hnode)

theorem getMembers_walked {type : SovdEntityType} (hsep : cache.Separate (cache.roots type id))
    (hid : ∀ root ∈ cache.roots type id, root ∈ cache.nodes)
    (hdepth : cache.pending (cache.roots type id) {} + 1 < depth) :
    ∃ walk, cache.getMembers depth type id = some walk.members ∧
      cache.Walked (cache.roots type id) {} walk ∧
      cache.roots type id ⊆ cache.visited (cache.roots type id) walk := by
  have hleaf : cache.roots type id = {.app id} →
      cache.Walked (cache.roots type id) {} (Walk.add {} id) ∧
        cache.roots type id ⊆ cache.visited (cache.roots type id) (Walk.add {} id) := by
    intro hroots
    have hroot : .app id ∈ cache.roots type id := hroots ▸ rfl
    obtain ⟨hwalked, hvisited⟩ := walked_add hsep (mem_reach_roots hid hroot) good_empty
    refine ⟨hwalked, fun root hmem => ?_⟩
    rw [hroots] at hmem
    exact hmem ▸ hvisited
  cases type with
  | area =>
    have hnode := mem_reach_roots hid rfl
    have hvisited := visited_markArea hsep hnode {}
    have hpending := pending_le_of_insert hvisited
    obtain ⟨walk, hwalk, hwalked, hclosed⟩ := collectArea_walked hsep
      (good_empty.markArea hsep hnode) hnode
      (Nat.lt_of_le_of_lt (Nat.add_le_add_right hpending 1) hdepth)
    refine ⟨walk, ?_, ⟨hwalked.good, ?_⟩, ?_⟩
    · simp only [getMembers, hwalk]
      rfl
    · exact Explored.of_insert (hvisited ▸ hwalked.explored) hnode.2 hclosed
    · exact Set.singleton_subset_iff.mpr (hwalked.explored.subset (hvisited ▸ Set.mem_insert _ _))
  | component =>
    have hnode := mem_reach_roots hid rfl
    have hpending := pending_le_of_insert (good_empty.add hsep hnode rfl).2
    obtain ⟨walk, hwalk, hwalked, hroots⟩ :=
      collectComponent_walked hsep good_empty hnode
        (hpending.trans_lt (Nat.lt_of_succ_lt hdepth))
    refine ⟨walk, ?_, hwalked, Set.singleton_subset_iff.mpr hroots⟩
    simp only [getMembers, hwalk]
    rfl
  | function =>
    obtain ⟨walk₁, walk, hwalk₁, hwalk, hwalked, hroots⟩ :=
      function_walked hsep (Nat.lt_of_succ_lt hdepth)
    refine ⟨walk, ?_, hwalked, hroots⟩
    simp only [getMembers, hwalk₁, hwalk, Option.bind_eq_bind, Option.bind_some]
    rfl
  | app => exact ⟨_, rfl, hleaf rfl⟩
  | server => exact ⟨_, rfl, hleaf rfl⟩
  | unknown => exact ⟨_, rfl, hleaf rfl⟩

end Walks

def rig : EntityCache where
  components := [{ id := str "base" }, { id := str "arm", parentComponentId := str "base" },
    { id := str "cam" }]
  apps := [{ id := str "driver", componentId := str "arm" },
    { id := str "cam", componentId := str "rig" }]

def rigReach : List Node := [.component (str "base"), .component (str "arm"), .app (str "driver")]

theorem reach_rig {n : Node} (h : n ∈ rig.reach (rig.roots .component (str "base"))) :
    n ∈ rigReach := by
  obtain ⟨-, root, rfl, hpath⟩ := h
  induction hpath with
  | refl => decide
  | tail _ hstep ih =>
    cases hstep with
    | subarea harea => exact absurd harea List.not_mem_nil
    | component hcomp => exact absurd ih (by simp [rigReach])
    | subcomponent hcomp =>
      exact (by decide : ∀ comp ∈ rig.components,
        .component comp.parentComponentId ∈ rigReach → .component comp.id ∈ rigReach) _ hcomp ih
    | app happ =>
      exact (by decide : ∀ app ∈ rig.apps,
        .component app.componentId ∈ rigReach → .app app.id ∈ rigReach) _ happ ih

theorem separate_rig : rig.Separate (rig.roots .component (str "base")) := by
  have harea : ∀ id, .area id ∉ rigReach := by simp [rigReach]
  have hcomponent : ∀ id, .component id ∈ rigReach → id = str "base" ∨ id = str "arm" := by
    simp [rigReach]
  have happ : ∀ id, .app id ∈ rigReach → id = str "driver" := by simp [rigReach]
  refine ⟨fun id h => absurd (reach_rig h) (harea id), fun id h => ?_, fun id h => ?_,
    fun id h h' => ?_, fun id h => absurd (reach_rig h) (harea id),
    fun id h => absurd (reach_rig h) (harea id)⟩
  · rcases hcomponent id (reach_rig h) with rfl | rfl <;> decide
  · rw [happ id (reach_rig h)]
    decide
  · rw [happ id (reach_rig h')] at h
    rcases hcomponent _ (reach_rig h) with h | h <;> exact absurd h (by decide)

def arms : EntityCache where
  components := [{ id := str "base" }, { id := str "arm", parentComponentId := str "base" }]
  apps := [{ id := str "arm", componentId := str "base" },
    { id := str "driver", componentId := str "arm" }]

end EntityCache

end Medkit.Gateway
