import Medkit.Gateway.RuntimeLinker

/-! Which node each app is linked to: the apps are taken in order, and each gets the least
node that its binding accepts and no app before it took. -/
namespace Medkit.Gateway.RuntimeLinker

open Lib Std

def Least (P : Str → Prop) (fqn : Str) : Prop :=
  P fqn ∧ ∀ other, P other → (compare fqn other).isLE

variable {P : Str → Prop} {choice : Option Str}

theorem Least.unique {a b : Str} (ha : Least P a) (hb : Least P b) : a = b :=
  LawfulEqCmp.eq_of_compare (OrientedCmp.isLE_antisymm (ha.2 b hb.1) (hb.2 a ha.1))

def Chosen (P : Str → Prop) : Option Str → Prop
  | some fqn => Least P fqn
  | none => ∀ fqn, ¬ P fqn

theorem Chosen.congr {Q : Str → Prop} (hchosen : Chosen P choice) (h : ∀ fqn, P fqn ↔ Q fqn) :
    Chosen Q choice := by
  rwa [show P = Q from funext fun fqn => propext (h fqn)] at hchosen

theorem Chosen.eq_some_iff (h : Chosen P choice) {fqn : Str} : choice = some fqn ↔ Least P fqn := by
  cases choice with
  | none => exact ⟨fun heq => absurd heq (by simp), fun hleast => absurd hleast.1 (h fqn)⟩
  | some chosen =>
    rw [Option.some.injEq]
    refine ⟨?_, h.unique⟩
    rintro rfl
    exact h

theorem Chosen.eq_none_iff (h : Chosen P choice) : choice = none ↔ ∀ fqn, ¬ P fqn := by
  cases choice with
  | none => exact ⟨fun _ => h, fun _ => rfl⟩
  | some chosen => exact ⟨fun heq => absurd heq (by simp), fun hnone => absurd h.1 (hnone chosen)⟩

def Offers (runtimeApps : List App) (app : App) (fqn : Str) : Prop :=
  app.external.getD false = false ∧ ∃ binding, app.rosBinding = some binding ∧
    ∃ rtApp ∈ runtimeApps, rtApp.boundFqn = some fqn ∧ accepts binding rtApp fqn = true

/-! ## One app -/

section Candidates

variable {candidates : List (App × Str)} {binding : RosBinding} {runtimeApps : List App}
  {matchedNodes : OSet Str}

theorem foldl_least (candidates : List (App × Str)) (start : App × Str) :
    let best := candidates.foldl (fun best c => if compare c.2 best.2 = .lt then c else best) start
    best ∈ start :: candidates ∧ ∀ c ∈ start :: candidates, (compare best.2 c.2).isLE := by
  induction candidates generalizing start with
  | nil => simp
  | cons c candidates ih =>
    rw [List.foldl_cons]
    split
    · rename_i hlt
      obtain ⟨hmem, hle⟩ := ih c
      refine ⟨List.mem_cons_of_mem _ hmem, ?_⟩
      intro other hother
      rcases List.mem_cons.mp hother with rfl | hother
      · refine TransCmp.isLE_trans (hle c List.mem_cons_self) ?_
        rw [hlt]
        rfl
      · exact hle other hother
    · rename_i hge
      obtain ⟨hmem, hle⟩ := ih start
      refine ⟨?_, ?_⟩
      · rcases List.mem_cons.mp hmem with heq | hmem
        · rw [heq]
          exact List.mem_cons_self
        · exact List.mem_cons_of_mem _ (List.mem_cons_of_mem _ hmem)
      · intro other hother
        simp only [List.mem_cons] at hother
        rcases hother with rfl | rfl | hother
        · exact hle _ List.mem_cons_self
        · exact TransCmp.isLE_trans (hle _ List.mem_cons_self)
            (OrientedCmp.isLE_of_isGE (Ordering.isGE_iff_ne_lt.mpr hge))
        · exact hle other (List.mem_cons_of_mem _ hother)

theorem firstByFqn_eq_none (h : firstByFqn candidates = none) : candidates = [] := by
  cases candidates with
  | nil => rfl
  | cons c candidates => cases h

theorem firstByFqn_eq_some {c : App × Str} (h : firstByFqn candidates = some c) :
    c ∈ candidates ∧ ∀ other ∈ candidates, (compare c.2 other.2).isLE := by
  cases candidates with
  | nil => cases h
  | cons start candidates =>
    cases h
    exact foldl_least candidates start

theorem mem_acceptedNodes {rtApp : App} {fqn : Str} :
    (rtApp, fqn) ∈ acceptedNodes binding runtimeApps matchedNodes false ↔
      rtApp ∈ runtimeApps ∧ rtApp.boundFqn = some fqn ∧ accepts binding rtApp fqn = true ∧
        fqn ∉ matchedNodes := by
  unfold acceptedNodes
  rw [List.mem_filterMap]
  constructor
  · rintro ⟨app, happ, heq⟩
    split at heq
    · cases heq
    · rename_i node hnode
      split at heq
      · rename_i haccepted
        cases heq
        exact ⟨happ, hnode, haccepted.2, by simp [ExtTreeSet.mem_iff_contains, haccepted.1]⟩
      · cases heq
  · rintro ⟨happ, hnode, haccepts, hfree⟩
    exact ⟨rtApp, happ, by simp [hnode, haccepts, hfree]⟩

theorem not_accepts_of_isEmpty (h : binding.isEmpty = true) (rtApp : App) (fqn : Str) :
    accepts binding rtApp fqn = false := by
  simp only [RosBinding.isEmpty, Bool.and_eq_true, decide_eq_true_eq] at h
  simp [accepts, matchesBinding, h]

end Candidates

structure Links (runtimeApps : List App) (before after : Linking) (app : App)
    (choice : Option Str) (linked : App) : Prop where
  chosen : Chosen (fun fqn => Offers runtimeApps app fqn ∧ fqn ∉ before.matchedNodes) choice
  keeps : Keeps app linked
  bound : ∀ fqn, choice = some fqn → linked.boundFqn = some fqn
  matchedNodes : ∀ fqn, fqn ∈ after.matchedNodes ↔ choice = some fqn ∨ fqn ∈ before.matchedNodes
  appToNode : after.result.appToNode =
    choice.elim before.result.appToNode (before.result.appToNode.insert app.id)
  nodeToApp : after.result.nodeToApp =
    choice.elim before.result.nodeToApp (before.result.nodeToApp.insert · app.id)
  linkedApps : after.result.linkedApps = before.result.linkedApps ++ [linked]
  unlinked : ∀ id, id ∈ after.result.unlinkedAppIds ↔ id ∈ before.result.unlinkedAppIds ∨
    (id = app.id ∧ app.external.getD false = false ∧ choice = none)

theorem links_none {runtimeApps : List App} {before after : Linking} {app : App}
    (hnone : ∀ fqn, Offers runtimeApps app fqn → fqn ∈ before.matchedNodes)
    (hmatched : after.matchedNodes = before.matchedNodes)
    (happ : after.result.appToNode = before.result.appToNode)
    (hnode : after.result.nodeToApp = before.result.nodeToApp) (hlinked : after.result.linkedApps =
      before.result.linkedApps ++ [{ app with isOnline := false }])
    (hunlinked : ∀ id, id ∈ after.result.unlinkedAppIds ↔ id ∈ before.result.unlinkedAppIds ∨
      (id = app.id ∧ app.external.getD false = false)) :
    Links runtimeApps before after app none { app with isOnline := false } where
  chosen fqn hleft := hleft.2 (hnone fqn hleft.1)
  keeps := rfl
  bound _ h := by cases h
  matchedNodes fqn := by simp [hmatched]
  appToNode := happ
  nodeToApp := hnode
  linkedApps := hlinked
  unlinked id := by simp [hunlinked]

theorem noteConflict_maps (app : App) (taken : List (App × Str)) (result : LinkingResult) :
    (noteConflict app taken result).appToNode = result.appToNode ∧
      (noteConflict app taken result).nodeToApp = result.nodeToApp ∧
      (noteConflict app taken result).unlinkedAppIds = result.unlinkedAppIds := by
  unfold noteConflict
  split <;> exact ⟨rfl, rfl, rfl⟩

theorem links_linkApp (runtimeApps : List App) (config : ManifestConfig) (state : Linking)
    (app : App) :
    ∃ choice linked, Links runtimeApps state (linkApp runtimeApps config state app) app choice
      linked := by
  unfold linkApp
  simp only
  split
  · rename_i hexternal
    refine ⟨none, _, links_none ?_ rfl rfl rfl rfl (by simp [hexternal])⟩
    intro fqn hoffers
    cases hexternal.symm.trans hoffers.1
  · rename_i hexternal
    have hinternal : app.external.getD false = false := by simpa using hexternal
    split
    · rename_i hbinding
      refine ⟨none, _, links_none ?_ rfl rfl rfl rfl (by simp [hinternal])⟩
      rintro fqn ⟨-, binding, hsome, -⟩
      rw [hbinding] at hsome
      cases hsome
    · rename_i binding hbinding
      have hoffers (fqn : Str) : Offers runtimeApps app fqn ∧ fqn ∉ state.matchedNodes ↔
          ∃ rtApp, (rtApp, fqn) ∈
            acceptedNodes binding runtimeApps state.matchedNodes false := by
        simp only [Offers, hinternal, hbinding, Option.some.injEq, mem_acceptedNodes]
        grind
      split
      · rename_i hempty
        refine ⟨none, _, links_none ?_ rfl rfl rfl rfl (by simp [hinternal])⟩
        rintro fqn ⟨-, binding', hsome, rtApp, -, -, haccepts⟩
        rw [hbinding] at hsome
        cases hsome
        rw [not_accepts_of_isEmpty hempty] at haccepts
        cases haccepts
      · split
        · rename_i hfirst
          obtain ⟨happ, hnode, hunlinked⟩ := noteConflict_maps app
            (acceptedNodes binding runtimeApps state.matchedNodes true) state.result
          refine ⟨none, _, links_none ?_ rfl happ hnode ?_ (by simp [hunlinked, hinternal])⟩
          · intro fqn hoffer
            by_contra hfree
            obtain ⟨rtApp, hmem⟩ := (hoffers fqn).mp ⟨hoffer, hfree⟩
            rw [firstByFqn_eq_none hfirst] at hmem
            cases hmem
          · rw [linkedApps_noteConflict]
        · rename_i matched fqn hfirst
          obtain ⟨hmem, hle⟩ := firstByFqn_eq_some hfirst
          have hleast : Least (fun fqn => Offers runtimeApps app fqn ∧
              fqn ∉ state.matchedNodes) fqn := by
            refine ⟨(hoffers fqn).mpr ⟨matched, hmem⟩, ?_⟩
            intro other hother
            obtain ⟨rtApp, hmem⟩ := (hoffers other).mp hother
            exact hle _ hmem
          refine ⟨some fqn, bindApp config app matched fqn, hleast, Keeps.bindApp _ _ _ _,
            ?_, ?_, rfl, rfl, rfl, by simp⟩
          · rintro other heq
            cases heq
            unfold bindApp
            dsimp only
            split <;> rfl
          · intro other
            rw [OSet.mem_insert_iff, Option.some.injEq, eq_comm]

/-! ## All apps -/

structure Linked (runtimeApps : List App) (apps : List App) (state : Linking) : Prop where
  inverse : ∀ id fqn : Str, state.result.appToNode[id]? = some fqn ↔
    state.result.nodeToApp[fqn]? = some id
  ids : ∀ id fqn : Str, state.result.appToNode[id]? = some fqn → id ∈ apps.map (·.id)
  matchedNodes : ∀ fqn, fqn ∈ state.matchedNodes ↔
    ∃ id : Str, state.result.appToNode[id]? = some fqn
  chosen : ∀ earlier app later, apps = earlier ++ app :: later →
    Chosen (fun fqn => Offers runtimeApps app fqn ∧
      ∀ other ∈ earlier, state.result.appToNode[other.id]? ≠ some fqn)
      state.result.appToNode[app.id]?
  unlinked : ∀ id, id ∈ state.result.unlinkedAppIds ↔ ∃ app ∈ apps, app.id = id ∧
    app.external.getD false = false ∧ state.result.appToNode[app.id]? = none
  entries : ∀ app ∈ apps, ∃ linked ∈ state.result.linkedApps, Keeps app linked ∧
    ∀ fqn, state.result.appToNode[app.id]? = some fqn → linked.boundFqn = some fqn

section Step

variable {runtimeApps apps : List App} {before after : Linking} {app linked : App}
  {choice : Option Str} (h : Linked runtimeApps apps before) (hfresh : app.id ∉ apps.map (·.id))
  (hlinks : Links runtimeApps before after app choice linked)

include hlinks

theorem getElem?_other {id : Str} (hid : id ≠ app.id) :
    after.result.appToNode[id]? = before.result.appToNode[id]? := by
  rw [hlinks.appToNode]
  cases choice with
  | none => rfl
  | some fqn => exact OMap.getElem?_insert_of_ne (Ne.symm hid) _

include hfresh in
theorem getElem?_earlier {other : App} (hmem : other ∈ apps) :
    after.result.appToNode[other.id]? = before.result.appToNode[other.id]? := by
  apply getElem?_other hlinks
  rintro heq
  exact hfresh (heq ▸ List.mem_map_of_mem hmem)

include h hfresh

omit hlinks in
theorem getElem?_fresh : before.result.appToNode[app.id]? = none := by
  cases hget : before.result.appToNode[app.id]? with
  | none => rfl
  | some fqn => exact absurd (h.ids _ _ hget) hfresh

theorem getElem?_own : after.result.appToNode[app.id]? = choice := by
  rw [hlinks.appToNode]
  cases choice with
  | none => exact getElem?_fresh h hfresh
  | some fqn => exact ExtTreeMap.getElem?_insert_self

theorem inverse_step (id fqn : Str) : after.result.appToNode[id]? = some fqn ↔
    after.result.nodeToApp[fqn]? = some id := by
  rw [hlinks.nodeToApp, hlinks.appToNode]
  cases hchoice : choice with
  | none => exact h.inverse id fqn
  | some node =>
    -- the node and the app are new to both maps
    have hnone := getElem?_fresh h hfresh
    have hfree : node ∉ before.matchedNodes := (hlinks.chosen.eq_some_iff.mp hchoice).1.2
    have hnew (id : Str) : before.result.appToNode[id]? ≠ some node :=
      fun hget => hfree ((h.matchedNodes node).mpr ⟨id, hget⟩)
    simp only [Option.elim_some, ExtTreeMap.getElem?_insert, LawfulEqCmp.compare_eq_iff_eq]
    have := h.inverse id fqn
    have := h.inverse id node
    grind

theorem mem_matchedNodes_step (fqn : Str) : fqn ∈ after.matchedNodes ↔
    ∃ id : Str, after.result.appToNode[id]? = some fqn := by
  rw [hlinks.matchedNodes, h.matchedNodes]
  constructor
  · rintro (hchoice | ⟨id, hget⟩)
    · exact ⟨app.id, (getElem?_own h hfresh hlinks).trans hchoice⟩
    · have hid : id ≠ app.id := by
        rintro rfl
        rw [getElem?_fresh h hfresh] at hget
        cases hget
      exact ⟨id, (getElem?_other hlinks hid).trans hget⟩
  · rintro ⟨id, hget⟩
    by_cases hid : id = app.id
    · rw [hid, getElem?_own h hfresh hlinks] at hget
      exact .inl hget
    · rw [getElem?_other hlinks hid] at hget
      exact .inr ⟨id, hget⟩

theorem chosen_step {earlier later : List App} {a : App}
    (happs : apps ++ [app] = earlier ++ a :: later) :
    Chosen (fun fqn => Offers runtimeApps a fqn ∧
      ∀ other ∈ earlier, after.result.appToNode[other.id]? ≠ some fqn)
      after.result.appToNode[a.id]? := by
  have hkept : ∀ other ∈ apps, after.result.appToNode[other.id]? =
      before.result.appToNode[other.id]? := fun _ => getElem?_earlier hfresh hlinks
  have hmatched (fqn : Str) : fqn ∈ before.matchedNodes ↔
      ∃ other ∈ apps, before.result.appToNode[other.id]? = some fqn := by
    rw [h.matchedNodes]
    constructor
    · rintro ⟨id, hid⟩
      obtain ⟨other, hmem, rfl⟩ := List.mem_map.mp (h.ids _ _ hid)
      exact ⟨other, hmem, hid⟩
    · rintro ⟨other, -, hget⟩
      exact ⟨_, hget⟩
  rcases List.eq_nil_or_concat' later with rfl | ⟨later, last, rfl⟩
  · obtain ⟨rfl, rfl⟩ := List.append_singleton_inj.mp happs
    rw [getElem?_own h hfresh hlinks]
    refine hlinks.chosen.congr fun fqn => ?_
    rw [hmatched]
    refine and_congr_right fun _ => ?_
    push Not
    refine forall₂_congr fun other hmem => ?_
    rw [hkept other hmem]
  · rw [← List.cons_append, ← List.append_assoc] at happs
    obtain ⟨rfl, rfl⟩ := List.append_singleton_inj.mp happs
    rw [hkept a (by simp)]
    refine (h.chosen earlier a later rfl).congr fun fqn => ?_
    refine and_congr_right fun _ => forall₂_congr fun other hmem => ?_
    rw [hkept other (List.mem_append_left _ hmem)]

theorem Linked.step : Linked runtimeApps (apps ++ [app]) after where
  inverse := inverse_step h hfresh hlinks
  ids id fqn hget := by
    rw [List.map_append, List.mem_append]
    by_cases hid : id = app.id
    · exact .inr (by simp [hid])
    · rw [getElem?_other hlinks hid] at hget
      exact .inl (h.ids id fqn hget)
  matchedNodes := mem_matchedNodes_step h hfresh hlinks
  chosen _ _ _ := chosen_step h hfresh hlinks
  unlinked id := by
    rw [hlinks.unlinked, h.unlinked]
    simp only [List.mem_append, List.mem_singleton, or_and_right, exists_or, exists_eq_left,
      getElem?_own h hfresh hlinks]
    refine or_congr ?_ (and_congr_left fun _ => eq_comm)
    refine exists_congr fun other => and_congr_right fun hmem => ?_
    rw [getElem?_earlier hfresh hlinks hmem]
  entries other hmem := by
    rw [hlinks.linkedApps]
    rcases List.mem_append.mp hmem with hmem | hmem
    · obtain ⟨entry, hentry, hkeeps, hbound⟩ := h.entries other hmem
      refine ⟨entry, List.mem_append_left _ hentry, hkeeps, ?_⟩
      rw [getElem?_earlier hfresh hlinks hmem]
      exact hbound
    · obtain rfl := List.mem_singleton.mp hmem
      refine ⟨linked, List.mem_append_right _ List.mem_cons_self, hlinks.keeps, ?_⟩
      rw [getElem?_own h hfresh hlinks]
      exact hlinks.bound

end Step

theorem linked_foldl (runtimeApps : List App) (config : ManifestConfig) {apps : List App}
    (hids : (apps.map (·.id)).Nodup) :
    Linked runtimeApps apps (apps.foldl (linkApp runtimeApps config) {}) := by
  induction apps using List.reverseRecOn with
  | nil => constructor <;> simp
  | append_singleton apps app ih =>
    rw [List.map_append, List.nodup_append] at hids
    have hfresh : app.id ∉ apps.map (·.id) :=
      fun hmem => hids.2.2 _ hmem app.id (by simp) rfl
    rw [List.foldl_concat]
    obtain ⟨choice, linked, hlinks⟩ := links_linkApp runtimeApps config _ app
    exact (ih hids.1).step hfresh hlinks

/-- Over all lists of apps: the two maps are inverse to each other, the apps in order get the
least nodes that are left, and what is listed and kept follows from that. -/
theorem apps_linked_in_order {manifestApps runtimeApps : List App} {config : ManifestConfig}
    {protectedIds : OSet Str} (hids : (manifestApps.map (·.id)).Nodup)
    (hprotected : ∀ app ∈ manifestApps, app.rosBinding ≠ none →
      isProtectedEntity app.id app.source protectedIds = true) :
    let r := link manifestApps runtimeApps config protectedIds
    (∀ id fqn : Str, r.appToNode[id]? = some fqn ↔ r.nodeToApp[fqn]? = some id) ∧
    (∀ earlier app later, manifestApps = earlier ++ app :: later →
      let left fqn := Offers runtimeApps app fqn ∧
        ∀ other ∈ earlier, r.appToNode[other.id]? ≠ some fqn
      (∀ fqn, r.appToNode[app.id]? = some fqn ↔ Least left fqn) ∧
      (app.external.getD false = false →
        (app.id ∈ r.unlinkedAppIds ↔ ∀ fqn, ¬ left fqn))) ∧
    (∀ fqn, fqn ∈ r.orphanNodes ↔ (∃ rtApp ∈ runtimeApps, rtApp.boundFqn = some fqn) ∧
      ∀ app ∈ manifestApps, r.appToNode[app.id]? ≠ some fqn) ∧
    (∀ app ∈ manifestApps, app.id ∈ r.appToNode ∨
        isProtectedEntity app.id app.source protectedIds = true →
      ∃ linked ∈ r.linkedApps, Keeps app linked ∧
        ∀ fqn, r.appToNode[app.id]? = some fqn → linked.boundFqn = some fqn) ∧
    ∀ linked ∈ r.linkedApps, isProtectedEntity linked.id linked.source protectedIds = false →
      ∀ fqn, linked.boundFqn = some fqn → ∀ id : Str, r.appToNode[id]? ≠ some fqn := by
  intro r
  have h := linked_foldl runtimeApps config hids
  refine ⟨h.inverse, ?_, ?_, ?_, ?_⟩
  · intro earlier app later happs left
    have hchosen := h.chosen earlier app later happs
    refine ⟨fun fqn => hchosen.eq_some_iff, fun hinternal => ?_⟩
    have happ : app ∈ manifestApps := happs ▸ List.mem_append_right _ List.mem_cons_self
    refine Iff.trans ?_ hchosen.eq_none_iff
    refine (h.unlinked app.id).trans ⟨?_, fun hnone => ⟨app, happ, rfl, hinternal, hnone⟩⟩
    rintro ⟨other, -, hid, -, hnone⟩
    rwa [hid] at hnone
  · intro fqn
    have hmem : fqn ∈ r.orphanNodes ↔ (∃ rtApp ∈ runtimeApps, rtApp.boundFqn = some fqn) ∧
        fqn ∉ (manifestApps.foldl (linkApp runtimeApps config) {}).matchedNodes := by
      simp only [r, link, List.mem_filterMap, ExtTreeSet.mem_iff_contains]
      grind
    rw [hmem, h.matchedNodes, not_exists]
    refine and_congr_right fun _ => ⟨fun hfree app _ => hfree app.id, fun hfree id hget => ?_⟩
    obtain ⟨app, happ, rfl⟩ := List.mem_map.mp (h.ids _ _ hget)
    exact hfree app happ hget
  · intro app happ hkept
    obtain ⟨linked, hlinked, hkeeps, hbound⟩ := h.entries app happ
    refine ⟨linked, List.mem_filter.mpr ⟨hlinked, ?_⟩, hkeeps, hbound⟩
    have hsafe : isProtectedEntity linked.id linked.source protectedIds = true := by
      rw [hkeeps.id, hkeeps.source]
      refine hkept.elim (fun hmem => hprotected app happ ?_) id
      obtain ⟨earlier, later, happs⟩ := List.append_of_mem happ
      rw [ExtTreeMap.mem_iff_isSome_getElem?, Option.isSome_iff_exists] at hmem
      obtain ⟨fqn, hget⟩ := hmem
      have hleast := (h.chosen earlier app later happs).eq_some_iff.mp hget
      obtain ⟨⟨-, binding, hbinding, -⟩, -⟩ := hleast.1
      rw [hbinding]
      exact Option.some_ne_none _
    rw [duplicatesLinked, if_pos hsafe]
    rfl
  · intro linked hlinked hunprotected fqn hfqn id hget
    have hkept := (List.mem_filter.mp hlinked).2
    rw [duplicatesLinked, if_neg (by simp [hunprotected]), hfqn] at hkept
    simp only [OMap.values_eq_map, Bool.not_eq_true', List.contains_eq_mem,
      decide_eq_false_iff_not, OMap.mem_values] at hkept
    exact hkept ⟨id, hget⟩

theorem apps_linked_in_order_for_cameras :
    let camera (id : Str) : App := { id, rosBinding := some ⟨str "camera", str "*", []⟩ }
    let node (fqn : Str) : App := { id := fqn, boundFqn := some fqn, source := str "node" }
    let r := link [camera (str "front"), camera (str "rear")]
      [node (str "/b/camera"), node (str "/a/camera"), node (str "/lidar")] {} ∅
    (∀ id fqn : Str, r.appToNode[id]? = some fqn ↔ r.nodeToApp[fqn]? = some id) ∧
      r.appToNode.toList = [(str "front", str "/a/camera"), (str "rear", str "/b/camera")] ∧
      r.orphanNodes = [str "/lidar"] :=
  ⟨(apps_linked_in_order (by decide) (by decide)).1, by decide, by decide⟩

end Medkit.Gateway.RuntimeLinker
