import Medkit.Lib.GapFill
import Medkit.Gateway.MergePipeline

/-! What merging returns: every contributed id once, and in each text field the value of
the layer with the highest policy for its group, unless a layer took over the group
without supplying a value. -/
namespace Medkit.Gateway

open Lib

/-! ## Collecting by id -/

section Collect

variable {α : Type} (kind : MergeKind α)

def entriesOf (all : List (LayerEntity α)) (id : Str) : List (LayerEntity α) :=
  all.filter fun entry => kind.id entry.entity = id

structure CollectsAll (all : List (LayerEntity α)) (collected : Collected α) : Prop where
  byId : ∀ id : Str, (collected.byId[id]?).getD [] = entriesOf kind all id
  known : ∀ id : Str, id ∈ collected.byId ↔ entriesOf kind all id ≠ []
  order : ∀ id, id ∈ collected.insertionOrder ↔ entriesOf kind all id ≠ []
  nodup : collected.insertionOrder.Nodup

variable {kind}

theorem entriesOf_concat (all : List (LayerEntity α)) (entry : LayerEntity α) (id : Str) :
    entriesOf kind (all ++ [entry]) id =
      entriesOf kind all id ++ if kind.id entry.entity = id then [entry] else [] := by
  unfold entriesOf
  by_cases h : kind.id entry.entity = id <;> simp [h]

theorem CollectsAll.step {all : List (LayerEntity α)} {collected : Collected α}
    (h : CollectsAll kind all collected) (entry : LayerEntity α) :
    CollectsAll kind (all ++ [entry]) (collect kind collected entry) := by
  have hself := h.byId (kind.id entry.entity)
  refine ⟨?_, ?_, ?_, ?_⟩
  · intro id
    rw [entriesOf_concat]
    by_cases hid : kind.id entry.entity = id
    · subst hid
      simp [collect, hself]
    · rw [if_neg hid, List.append_nil, ← h.byId id]
      exact congrArg (Option.getD · []) (OMap.getElem?_insert_of_ne hid _)
  · intro id
    rw [entriesOf_concat]
    by_cases hid : kind.id entry.entity = id
    · simp [collect, hid]
    · rw [if_neg hid, List.append_nil, ← h.known id]
      simp [collect, Std.ExtTreeMap.mem_insert, hid]
  · intro id
    rw [entriesOf_concat]
    by_cases hid : kind.id entry.entity = id
    · subst hid
      by_cases hknown : kind.id entry.entity ∈ collected.byId
      · simpa [collect, hknown] using (h.order _).mpr ((h.known _).mp hknown)
      · simp [collect, hknown]
    · rw [if_neg hid, List.append_nil, ← h.order id]
      by_cases hknown : kind.id entry.entity ∈ collected.byId
      · simp [collect, hknown]
      · simp [collect, hknown, Ne.symm hid]
  · by_cases hknown : kind.id entry.entity ∈ collected.byId
    · simpa [collect, hknown] using h.nodup
    · simp only [collect, hknown, if_false]
      rw [List.nodup_append']
      refine ⟨h.nodup, List.nodup_singleton _, ?_⟩
      intro id hid hid'
      rw [List.mem_singleton.mp hid'] at hid
      exact hknown ((h.known _).mpr ((h.order _).mp hid))

theorem collectsAll (kind : MergeKind α) (all : List (LayerEntity α)) :
    CollectsAll kind all (all.foldl (collect kind) {}) := by
  induction all using List.reverseRecOn with
  | nil => exact ⟨by simp [entriesOf], by simp [entriesOf], by simp [entriesOf], List.nodup_nil⟩
  | append_singleton all entry ih =>
    rw [List.foldl_append, List.foldl_cons, List.foldl_nil]
    exact ih.step entry

end Collect

/-! ## One entity per id -/

section Ids

variable {α : Type} {kind : MergeKind α} {config : IdentityMergeConfig}
  {layers : List DiscoveryLayer}

theorem id_mergeEntry (id : Str) (state : Merging α) (entry : LayerEntity α) :
    kind.id (mergeEntry kind config layers id state entry).merged = kind.id state.merged := by
  simp only [mergeEntry, allFieldGroups, List.foldl_cons, List.foldl_nil, mergeGroup, kind.id_apply]

theorem id_mergeEntries (id : Str) (first : LayerEntity α) (rest : List (LayerEntity α))
    (report : MergeReport) :
    kind.id (mergeEntries kind config layers id first rest report).merged =
      kind.id first.entity := by
  unfold mergeEntries
  generalize hstart : Merging.mk (kind.seed first.entity) _ _ = start
  have hid : kind.id start.merged = kind.id first.entity := by
    rw [← hstart]
    exact kind.id_seed _
  rw [← hid]
  clear hid hstart
  induction rest generalizing start with
  | nil => rfl
  | cons entry rest ih => rw [List.foldl_cons, ih, id_mergeEntry]

variable (kind config layers)

def MergedFrom (all : List (LayerEntity α)) (e : α) : Prop :=
  ∃ first rest report, entriesOf kind all (kind.id e) = first :: rest ∧
    e = (mergeEntries kind config layers (kind.id e) first rest report).merged

def ownedByProtecting (all : List (LayerEntity α)) (id : Str) : Bool :=
  match entriesOf kind all id with
  | [] => false
  | first :: _ => (layerAt layers first.layerIdx).ownsProtectedEntities

structure MergesIds (all : List (LayerEntity α)) (ids : List Str)
    (before after : MergedEntities α) : Prop where
  added : ∃ added, after.entities = before.entities ++ added ∧ added.map kind.id = ids ∧
    ∀ e ∈ added, MergedFrom kind config layers all e
  protects : ∀ id, id ∈ after.protectedEntityIds ↔
    id ∈ before.protectedEntityIds ∨ (id ∈ ids ∧ ownedByProtecting kind layers all id = true)

variable {kind config layers}

theorem mergesIds_mergeId {all : List (LayerEntity α)} {collected : Collected α}
    (hcollected : CollectsAll kind all collected) (state : MergedEntities α) {id : Str}
    (hid : id ∈ collected.insertionOrder) :
    MergesIds kind config layers all [id] state
      (mergeId kind config layers collected state id) := by
  have hentries := hcollected.byId id
  cases hsplit : entriesOf kind all id with
  | nil => exact absurd hsplit ((hcollected.order id).mp hid)
  | cons first rest =>
    rw [hsplit] at hentries
    have hfirst : kind.id first.entity = id := by
      have hmem : first ∈ entriesOf kind all id := hsplit ▸ List.mem_cons_self
      exact of_decide_eq_true (List.mem_filter.mp hmem).2
    have hmerged : kind.id
        (mergeEntries kind config layers id first rest state.report).merged = id :=
      (id_mergeEntries id first rest state.report).trans hfirst
    simp only [mergeId, hentries]
    refine ⟨⟨[(mergeEntries kind config layers id first rest state.report).merged], rfl,
      by simp [hmerged], ?_⟩, ?_⟩
    · intro e he
      rw [List.mem_singleton.mp he]
      refine ⟨first, rest, state.report, ?_, ?_⟩
      · rw [hmerged, hsplit]
      · rw [hmerged]
    · intro id'
      have howned : ownedByProtecting kind layers all id =
          (layerAt layers first.layerIdx).ownsProtectedEntities := by
        rw [ownedByProtecting, hsplit]
      split
      · rename_i howns
        rw [OSet.mem_insert_iff, List.mem_singleton]
        constructor
        · rintro (rfl | h)
          · exact .inr ⟨rfl, howned.trans howns⟩
          · exact .inl h
        · rintro (h | ⟨rfl, -⟩)
          · exact .inr h
          · exact .inl rfl
      · rename_i howns
        rw [List.mem_singleton]
        constructor
        · exact .inl
        · rintro (h | ⟨rfl, h⟩)
          · exact h
          · exact absurd (howned.symm.trans h) howns

theorem MergesIds.append {all : List (LayerEntity α)} {ids ids' : List Str}
    {before middle after : MergedEntities α} (h : MergesIds kind config layers all ids before middle)
    (h' : MergesIds kind config layers all ids' middle after) :
    MergesIds kind config layers all (ids ++ ids') before after := by
  obtain ⟨added, hmiddle, hids, hfrom⟩ := h.added
  obtain ⟨added', hafter, hids', hfrom'⟩ := h'.added
  refine ⟨⟨added ++ added', ?_, ?_, ?_⟩, ?_⟩
  · rw [hafter, hmiddle, List.append_assoc]
  · rw [List.map_append, hids, hids']
  · intro e he
    rcases List.mem_append.mp he with he | he
    · exact hfrom e he
    · exact hfrom' e he
  · intro id
    rw [h'.protects, h.protects, List.mem_append]
    tauto

theorem mergesIds_mergeEntities (kind : MergeKind α) (config : IdentityMergeConfig)
    (layers : List DiscoveryLayer) (layerEntities : List (Nat × List α)) (report : MergeReport)
    (protectedEntityIds : OSet Str) :
    ∃ ids : List Str, ids.Nodup ∧
      (∀ id, id ∈ ids ↔ entriesOf kind (contributions layerEntities) id ≠ []) ∧
      MergesIds kind config layers (contributions layerEntities) ids
        { report := report, protectedEntityIds := protectedEntityIds }
        (mergeEntities kind config layers layerEntities report protectedEntityIds) := by
  have hcollected := collectsAll kind (contributions layerEntities)
  refine ⟨_, hcollected.nodup, hcollected.order, ?_⟩
  unfold mergeEntities
  simp only
  have hall : ∀ (ids : List Str) (state : MergedEntities α),
      (∀ id ∈ ids, id ∈ ((contributions layerEntities).foldl (collect kind) {}).insertionOrder) →
      MergesIds kind config layers (contributions layerEntities) ids state
        (ids.foldl (mergeId kind config layers
          ((contributions layerEntities).foldl (collect kind) {})) state) := by
    intro ids
    induction ids with
    | nil =>
      intro state _
      exact ⟨⟨[], by simp, rfl, by simp⟩, by simp⟩
    | cons id ids ih =>
      intro state hids
      exact (mergesIds_mergeId hcollected state (hids id List.mem_cons_self)).append
        (ih _ fun id' hid' => hids id' (List.mem_cons_of_mem _ hid'))
  exact hall _ _ fun _ hid => hid

end Ids

/-! ## Text fields -/

section Scalars

variable {α : Type} {kind : MergeKind α} {config : IdentityMergeConfig}
  {layers : List DiscoveryLayer}

def offer (layers : List DiscoveryLayer) (field : ScalarField kind) (entry : LayerEntity α) :
    Nat × Str :=
  (policyPriority ((layerAt layers entry.layerIdx).policyFor field.group), field.get entry.entity)

def fieldCell (layers : List DiscoveryLayer) (field : ScalarField kind) (state : Merging α) :
    Str × Nat :=
  (field.get state.merged,
    policyPriority ((layerAt layers (state.fgOwner field.group)).policyFor field.group))

theorem mergeScalar_resolve (target source : Str) (targetPolicy sourcePolicy : MergePolicy) :
    mergeScalar target source (resolvePolicies targetPolicy sourcePolicy).scalar =
      (fillCell [] (target, policyPriority targetPolicy) (policyPriority sourcePolicy, source)).1 := by
  by_cases ht : target = [] <;> by_cases hs : source = [] <;> cases targetPolicy <;>
    cases sourcePolicy <;>
    simp [resolvePolicies, mergeScalar, fillCell, policyPriority, ht, hs]

theorem takesOver_iff (targetPolicy sourcePolicy : MergePolicy) :
    (¬ (resolvePolicies targetPolicy sourcePolicy).isConflict ∧
      policyPriority sourcePolicy > policyPriority targetPolicy) ↔
    policyPriority targetPolicy < policyPriority sourcePolicy := by
  cases targetPolicy <;> cases sourcePolicy <;> simp [resolvePolicies, policyPriority]

theorem fieldCell_mergeGroup_self (field : ScalarField kind) (id : Str) (entry : LayerEntity α)
    (state : Merging α) :
    fieldCell layers field (mergeGroup kind config layers id entry state field.group) =
      fillCell [] (fieldCell layers field state) (offer layers field entry) := by
  simp only [fieldCell, mergeGroup, takesOver_iff, field.get_apply, if_true, mergeScalar_resolve]
  refine Prod.ext rfl ?_
  simp only [fillCell, offer]
  split
  · next hlt => simp [max_eq_right hlt.le]
  · next hge => simp [max_eq_left (not_lt.mp hge)]

theorem fieldCell_mergeGroup_of_ne (field : ScalarField kind) (id : Str) (entry : LayerEntity α)
    (state : Merging α) {fg : FieldGroup} (h : fg ≠ field.group) :
    fieldCell layers field (mergeGroup kind config layers id entry state fg) =
      fieldCell layers field state := by
  simp only [fieldCell, mergeGroup, field.get_apply, if_neg h]
  refine Prod.ext rfl ?_
  simp only
  split
  · rw [Function.update_of_ne h.symm]
  · rfl

theorem fieldCell_mergeEntry (field : ScalarField kind) (id : Str) (entry : LayerEntity α)
    (state : Merging α) :
    fieldCell layers field (mergeEntry kind config layers id state entry) =
      fillCell [] (fieldCell layers field state) (offer layers field entry) := by
  have hfold : ∀ (groups : List FieldGroup) (s : Merging α), groups.Nodup →
      fieldCell layers field (groups.foldl (mergeGroup kind config layers id entry) s) =
        if field.group ∈ groups then fillCell [] (fieldCell layers field s) (offer layers field entry)
        else fieldCell layers field s := by
    intro groups
    induction groups with
    | nil => intro s _; rfl
    | cons fg groups ih =>
      intro s hnodup
      obtain ⟨hnot, hnodup⟩ := List.nodup_cons.mp hnodup
      rw [List.foldl_cons, ih _ hnodup]
      by_cases hfg : fg = field.group
      · subst hfg
        rw [if_neg hnot, if_pos List.mem_cons_self, fieldCell_mergeGroup_self]
      · rw [fieldCell_mergeGroup_of_ne field id entry s hfg]
        simp [Ne.symm hfg]
  have hmem : field.group ∈ allFieldGroups := by
    cases field.group <;> decide
  rw [mergeEntry, hfold _ _ (by decide), if_pos hmem]
  rfl

theorem get_mergeEntries (field : ScalarField kind) (id : Str) (first : LayerEntity α)
    (rest : List (LayerEntity α)) (report : MergeReport) :
    field.get (mergeEntries kind config layers id first rest report).merged =
      (fillAll [] (offer layers field first) (rest.map (offer layers field))).1 := by
  have hfold : ∀ (rest : List (LayerEntity α)) (s : Merging α),
      fieldCell layers field (rest.foldl (mergeEntry kind config layers id) s) =
        (rest.map (offer layers field)).foldl (fillCell []) (fieldCell layers field s) := by
    intro rest
    induction rest with
    | nil => intro s; rfl
    | cons entry rest ih =>
      intro s
      rw [List.foldl_cons, ih, fieldCell_mergeEntry]
      rfl
  change (fieldCell layers field (mergeEntries kind config layers id first rest report)).1 = _
  unfold mergeEntries
  rw [hfold, fieldCell]
  simp only [field.get_seed]
  rfl

end Scalars

/-! ## The four kinds -/

inductive EntityKind where
  | area
  | component
  | app
  | function

def EntityKind.Entity : EntityKind → Type
  | .area => Area
  | .component => Component
  | .app => App
  | .function => SovdFunction

def EntityKind.merge : (kind : EntityKind) → MergeKind kind.Entity
  | .area => areaKind
  | .component => componentKind
  | .app => appKind
  | .function => functionKind

def areaField (group : FieldGroup) (get : Area → Str)
    (h : ∀ target src g res, get (mergeAreaGroup {} target src g res) =
      if g = group then mergeScalar (get target) (get src) res.scalar else get target) :
    ScalarField areaKind where
  group := group
  get := get
  get_seed _ := rfl
  get_apply _ := h

def componentField (group : FieldGroup) (get : Component → Str)
    (hseed : ∀ e, get (componentKind.seed e) = get e)
    (h : ∀ config target src g res, get (mergeComponentGroup config target src g res) =
      if g = group then mergeScalar (get target) (get src) res.scalar else get target) :
    ScalarField componentKind where
  group := group
  get := get
  get_seed := hseed
  get_apply := h

def appField (group : FieldGroup) (get : App → Str)
    (h : ∀ target src g res, get (mergeAppGroup {} target src g res) =
      if g = group then mergeScalar (get target) (get src) res.scalar else get target) :
    ScalarField appKind where
  group := group
  get := get
  get_seed _ := rfl
  get_apply _ := h

def functionField (group : FieldGroup) (get : SovdFunction → Str)
    (h : ∀ target src g res, get (mergeFunctionGroup {} target src g res) =
      if g = group then mergeScalar (get target) (get src) res.scalar else get target) :
    ScalarField functionKind where
  group := group
  get := get
  get_seed _ := rfl
  get_apply _ := h

def EntityKind.scalars : (kind : EntityKind) → List (ScalarField kind.merge)
  | .area =>
      [areaField .identity Area.name fun _ _ g _ => by cases g <;> rfl,
        areaField .identity Area.translationId fun _ _ g _ => by cases g <;> rfl,
        areaField .identity Area.description fun _ _ g _ => by cases g <;> rfl,
        areaField .hierarchy Area.namespacePath fun _ _ g _ => by cases g <;> rfl,
        areaField .hierarchy Area.parentAreaId fun _ _ g _ => by cases g <;> rfl]
  | .component =>
      [componentField .identity Component.name (fun _ => rfl) fun _ _ _ g _ => by cases g <;> rfl,
        componentField .identity Component.translationId (fun _ => rfl)
          fun _ _ _ g _ => by cases g <;> rfl,
        componentField .identity Component.description (fun _ => rfl)
          fun _ _ _ g _ => by cases g <;> rfl,
        componentField .hierarchy Component.namespacePath (fun _ => rfl)
          fun _ _ _ g _ => by cases g <;> rfl,
        componentField .hierarchy Component.fqn (fun _ => rfl) fun _ _ _ g _ => by cases g <;> rfl,
        componentField .hierarchy Component.area (fun _ => rfl) fun _ _ _ g _ => by cases g <;> rfl,
        componentField .hierarchy Component.parentComponentId (fun _ => rfl)
          fun _ _ _ g _ => by cases g <;> rfl,
        componentField .metadata Component.variant (fun _ => rfl)
          fun _ _ _ g _ => by cases g <;> rfl]
  | .app =>
      [appField .identity App.name fun _ _ g _ => by cases g <;> rfl,
        appField .identity App.translationId fun _ _ g _ => by cases g <;> rfl,
        appField .identity App.description fun _ _ g _ => by cases g <;> rfl,
        appField .hierarchy App.componentId fun _ _ g _ => by cases g <;> rfl]
  | .function =>
      [functionField .identity SovdFunction.name fun _ _ g _ => by cases g <;> rfl,
        functionField .identity SovdFunction.translationId fun _ _ g _ => by cases g <;> rfl,
        functionField .identity SovdFunction.description fun _ _ g _ => by cases g <;> rfl]

def offers {kind : EntityKind} (layers : List DiscoveryLayer)
    (layerEntities : List (Nat × List kind.Entity)) (field : ScalarField kind.merge) (id : Str) :
    List (Nat × Str) :=
  (entriesOf kind.merge (contributions layerEntities) id).map (offer layers field)

/-- Merging returns every contributed id once. A text field is empty only if every
contribution is. It is the value of highest priority, the earlier layer winning ties, exactly
if that one gets in, which an empty contribution of its priority prevents once there is a
value, or the last one before it that got in is the same text. -/
theorem merged_fields_follow_policies (kind : EntityKind) (config : IdentityMergeConfig)
    (layers : List DiscoveryLayer) (layerEntities : List (Nat × List kind.Entity))
    (report : MergeReport) (protectedEntityIds : OSet Str) :
    let merged :=
      (mergeEntities kind.merge config layers layerEntities report protectedEntityIds).entities
    (merged.map kind.merge.id).Nodup ∧
    (∀ id, id ∈ merged.map kind.merge.id ↔
      ∃ entry ∈ contributions layerEntities, kind.merge.id entry.entity = id) ∧
    ∀ e ∈ merged, ∀ field ∈ kind.scalars,
      let given := offers layers layerEntities field (kind.merge.id e)
      (field.get e = [] ↔ ∀ c ∈ given, c.2 = []) ∧
      (field.get e ≠ [] → ∃ earlier c later, given = earlier ++ c :: later ∧
        Leads [] earlier c later) ∧
      ∀ earlier c later, given = earlier ++ c :: later → Leads [] earlier c later →
        (field.get e = c.2 ↔
          Enters [] earlier c ∨ (lastEntered [] earlier.reverse).map Prod.snd = some c.2) := by
  obtain ⟨ids, hnodup, hids, hmerges⟩ := mergesIds_mergeEntities kind.merge config layers
    layerEntities report protectedEntityIds
  obtain ⟨added, hentities, hmap, hfrom⟩ := hmerges.added
  rw [List.nil_append] at hentities
  intro merged
  have hmerged : merged = added := hentities
  refine ⟨?_, ?_, ?_⟩
  · rw [hmerged, hmap]
    exact hnodup
  · intro id
    rw [hmerged, hmap, hids, entriesOf, ne_eq, List.filter_eq_nil_iff]
    simp
  · intro e he field _ given
    obtain ⟨first, rest, report, hentries, hmergedFrom⟩ := hfrom e (hmerged ▸ he)
    have hgiven : given = offer layers field first :: rest.map (offer layers field) := by
      simp only [given, offers, hentries, List.map_cons]
    have hget : field.get e =
        (fillAll [] (offer layers field first) (rest.map (offer layers field))).1 := by
      rw [hmergedFrom]
      exact get_mergeEntries field _ first rest report
    have hempty := fillAll_eq_empty_iff [] (offer layers field first) (rest.map (offer layers field))
    rw [hgiven, hget]
    refine ⟨hempty, fun hvalue => exists_leads ?_, fun _ _ _ => fillAll_eq_leading_iff⟩
    rw [ne_eq, hempty] at hvalue
    push Not at hvalue
    exact hvalue

/-- Three layers that describe a camera: one adds details, one knows better in general,
one knows better and has a name. -/
def cameraLayer (policy : MergePolicy) : DiscoveryLayer := { policyFor := fun _ => policy }

def namedCamera (name : Str) : App := { id := str "camera", name := name }

/-- The second layer owns the group without a name, and keeps out the name of the third. -/
theorem nameless_layer_shadows_name :
    let layers := [cameraLayer .enrichment, cameraLayer .authoritative, cameraLayer .authoritative]
    let merged := mergeEntities appKind {} layers
      [(0, [namedCamera (str "a")]), (1, [namedCamera []]), (2, [namedCamera (str "c")])] {} ∅
    merged.entities.map App.name = [str "a"] ∧
    policyPriority ((layerAt layers 0).policyFor .identity) <
      policyPriority ((layerAt layers 2).policyFor .identity) := by
  decide

end Medkit.Gateway
