import Medkit.Gateway.Entities
import Medkit.Lib.FunctionalGraph

/-! The manifest validator's search for circular dependencies: an iterative depth-first walk that
looks at the dependencies of the entity on top of its stack again after each entity above it is
done. -/
namespace Medkit.Gateway.ManifestValidator

open Lib Relation

abbrev Graph := OMap Str (List Str)

structure Search where
  visited : OSet Str := ∅
  inStack : OSet Str
  /-- The top is the head. -/
  stack : List Str

def Search.start (id : Str) : Search where
  inStack := (∅ : OSet Str).insert id
  stack := [id]

def Search.push (s : Search) (dep : Str) : Search :=
  { s with inStack := s.inStack.insert dep, stack := dep :: s.stack }

def Search.pop (s : Search) (current : Str) (rest : List Str) : Search where
  visited := s.visited.insert current
  inStack := s.inStack.erase current
  stack := rest

inductive Scan where
  | cycle
  | unvisited (dep : Str)
  | nothing

def scan (graph : Graph) (s : Search) : List Str → Scan
  | [] => .nothing
  | dep :: deps =>
      if dep ∈ s.inStack then .cycle
      else if dep ∉ s.visited ∧ dep ∈ graph then .unvisited dep
      else scan graph s deps

/-- The `while` loop of `has_cycle`; `none` if the fuel does not suffice. -/
def search (graph : Graph) : Nat → Search → Option Bool
  | 0, _ => none
  | fuel + 1, s =>
      match s.stack with
      | [] => some false
      | current :: rest =>
          match graph[current]? with
          | none => search graph fuel (s.pop current rest)
          | some deps =>
              if current ∈ s.visited then search graph fuel (s.pop current rest)
              else
                match scan graph s deps with
                | .cycle => some true
                | .unvisited dep => search graph fuel (s.push dep)
                | .nothing => search graph fuel (s.pop current rest)

def hasCycle (fuel : Nat) (start : Str) (graph : Graph) : Option Bool :=
  search graph fuel (.start start)

inductive ValidationSeverity where
  | error
  | warning

structure ValidationError where
  ruleId : Str
  severity : ValidationSeverity
  message : Str
  path : Str

def firstInvolved (fuel : Nat) (graph : Graph) : List Str → Option (Option Str)
  | [] => some none
  | id :: ids =>
      match hasCycle fuel id graph with
      | none => none
      | some true => some (some id)
      | some false => firstInvolved fuel graph ids

/-- The ids of the entities of one kind with their `depends_on`. -/
abbrev Declarations := List (Str × List Str)

def graphOf (declared : Declarations) : Graph :=
  declared.foldl (fun graph d => graph.insert d.1 d.2) ∅

def circularErrors (fuel : Nat) (kind collection : Str) (declared : Declarations) :
    Option (List ValidationError) :=
  match firstInvolved fuel (graphOf declared) (declared.map Prod.fst) with
  | none => none
  | some none => some []
  | some (some id) =>
      some [{ ruleId := str "R011", severity := .error,
              message := str "Circular dependency detected involving " ++ kind ++ str ": " ++ id,
              path := collection ++ str "/" ++ id ++ str "/depends_on" }]

structure Manifest where
  apps : List App := []
  functions : List SovdFunction := []

def Manifest.appDeclarations (manifest : Manifest) : Declarations :=
  manifest.apps.map fun app => (app.id, app.dependsOn)

def Manifest.functionDeclarations (manifest : Manifest) : Declarations :=
  manifest.functions.map fun func => (func.id, func.dependsOn)

def validateCircularDependencies (fuel : Nat) (manifest : Manifest) :
    Option (List ValidationError) :=
  match circularErrors fuel (str "app") (str "apps") manifest.appDeclarations,
      circularErrors fuel (str "function") (str "functions") manifest.functionDeclarations with
  | some appErrors, some functionErrors => some (appErrors ++ functionErrors)
  | _, _ => none

/-! ## The search -/

def Depends (graph : Graph) (id dep : Str) : Prop :=
  ∃ deps, graph[id]? = some deps ∧ dep ∈ deps ∧ dep ∈ graph

section Search

variable {graph : Graph} {s : Search} {current : Str} {rest : List Str}

def Scan.Means (graph : Graph) (s : Search) (deps : List Str) : Scan → Prop
  | .cycle => ∃ dep ∈ deps, dep ∈ s.inStack
  | .unvisited dep => dep ∈ deps ∧ dep ∉ s.inStack ∧ dep ∉ s.visited ∧ dep ∈ graph
  | .nothing => ∀ dep ∈ deps, dep ∈ graph → dep ∈ s.visited

theorem scan_means (graph : Graph) (s : Search) (deps : List Str) :
    (scan graph s deps).Means graph s deps := by
  fun_induction scan graph s deps with
  | case1 => exact fun dep hdep => absurd hdep List.not_mem_nil
  | case2 dep deps hin => exact ⟨dep, List.mem_cons_self, hin⟩
  | case3 dep deps hin hnew => exact ⟨List.mem_cons_self, hin, hnew⟩
  | case4 dep deps hin hold ih =>
    cases hscan : scan graph s deps with
    | cycle =>
      rw [hscan] at ih
      obtain ⟨found, hfound, hstack⟩ := ih
      exact ⟨found, List.mem_cons_of_mem _ hfound, hstack⟩
    | unvisited found =>
      rw [hscan] at ih
      exact ⟨List.mem_cons_of_mem _ ih.1, ih.2⟩
    | nothing =>
      rw [hscan] at ih
      intro other hother hgraph
      rcases List.mem_cons.mp hother with rfl | hother
      · exact not_not.mp fun hvisited => hold ⟨hvisited, hgraph⟩
      · exact ih other hother hgraph

/-- The stack is a chain of dependencies without repetition, and no entity that has been popped
leads to a cycle. -/
structure Invariant (graph : Graph) (s : Search) : Prop where
  chain : s.stack.IsChain fun later earlier => Depends graph earlier later
  inStack : ∀ id, id ∈ s.inStack ↔ id ∈ s.stack
  nodup : s.stack.Nodup
  declared : ∀ id ∈ s.stack, id ∈ graph
  unvisited : ∀ id ∈ s.stack, id ∉ s.visited
  closed : ∀ id dep, id ∈ s.visited → Depends graph id dep → dep ∈ s.visited
  acyclic : ∀ id ∈ s.visited, ¬ OnCycle (Depends graph) id

theorem Invariant.start {id : Str} (h : id ∈ graph) : Invariant graph (.start id) where
  chain := List.isChain_singleton _
  inStack other := by rw [Search.start, OSet.mem_insert_iff]; simp
  nodup := List.nodup_singleton _
  declared other hother := by rwa [List.mem_singleton.mp hother]
  unvisited _ _ := Std.ExtTreeSet.not_mem_empty
  closed _ _ h := absurd h Std.ExtTreeSet.not_mem_empty
  acyclic _ h := absurd h Std.ExtTreeSet.not_mem_empty

theorem Invariant.push (h : Invariant graph s) (hstack : s.stack = current :: rest) {dep : Str}
    (hdepends : Depends graph current dep) (hin : dep ∉ s.inStack) (hvisited : dep ∉ s.visited) :
    Invariant graph (s.push dep) where
  chain := by
    rw [Search.push, hstack]
    exact List.isChain_cons_cons.mpr ⟨hdepends, hstack ▸ h.chain⟩
  inStack id := by
    simp only [Search.push, OSet.mem_insert_iff, List.mem_cons, h.inStack]
  nodup := List.nodup_cons.mpr ⟨fun hmem => hin ((h.inStack dep).mpr hmem), h.nodup⟩
  declared := by
    obtain ⟨_, _, _, hgraph⟩ := hdepends
    exact List.forall_mem_cons.mpr ⟨hgraph, h.declared⟩
  unvisited := List.forall_mem_cons.mpr ⟨hvisited, h.unvisited⟩
  closed := h.closed
  acyclic := h.acyclic

theorem Invariant.not_onCycle (h : Invariant graph s) (hvisited : current ∉ s.visited)
    (hdeps : ∀ dep, Depends graph current dep → dep ∈ s.visited) :
    ¬ OnCycle (Depends graph) current := by
  intro hcycle
  obtain ⟨dep, hdep, hback⟩ := TransGen.head'_iff.mp hcycle
  exact hvisited (mem_of_reaches h.closed (hdeps dep hdep) hback)

theorem Invariant.pop (h : Invariant graph s) (hstack : s.stack = current :: rest)
    (hdeps : ∀ dep, Depends graph current dep → dep ∈ s.visited) :
    Invariant graph (s.pop current rest) := by
  have hnodup := hstack ▸ h.nodup
  have hmem : ∀ id ∈ rest, id ∈ s.stack := fun id hid => hstack ▸ List.mem_cons_of_mem _ hid
  have hcurrent : current ∉ s.visited := h.unvisited _ (hstack ▸ List.mem_cons_self)
  have hne : ∀ id ∈ rest, id ≠ current := by
    rintro id hid rfl
    exact (List.nodup_cons.mp hnodup).1 hid
  refine ⟨(hstack ▸ h.chain).of_cons, ?_, hnodup.of_cons, fun id hid => h.declared id (hmem id hid),
    ?_, ?_, ?_⟩
  · intro id
    simp only [Search.pop, Std.ExtTreeSet.mem_erase, Std.LawfulEqOrd.compare_eq_iff_eq,
      h.inStack, hstack, List.mem_cons, ne_eq]
    grind
  · intro id hid hvisited
    rcases OSet.mem_insert_iff.mp hvisited with rfl | hvisited
    · exact hne id hid rfl
    · exact h.unvisited id (hmem id hid) hvisited
  · intro id dep hid hdep
    refine OSet.mem_insert_iff.mpr (.inr ?_)
    rcases OSet.mem_insert_iff.mp hid with rfl | hid
    · exact hdeps dep hdep
    · exact h.closed id dep hid hdep
  · intro id hid
    rcases OSet.mem_insert_iff.mp hid with rfl | hid
    · exact h.not_onCycle hcurrent hdeps
    · exact h.acyclic id hid

theorem Invariant.onCycle_of_back (h : Invariant graph s) (hstack : s.stack = current :: rest)
    {dep : Str} (hdepends : Depends graph current dep) (hin : dep ∈ s.inStack) :
    OnCycle (Depends graph) current := by
  have hreach := reaches_of_isChain (hstack ▸ h.chain) (hstack ▸ (h.inStack dep).mp hin)
  exact TransGen.head' hdepends (reflTransGen_swap.mp hreach)

/-! ## Its end -/

def pendingIds (graph : Graph) (s : Search) : List Str :=
  graph.keys.filter fun id => decide (id ∉ s.visited)

theorem mem_pendingIds {id : Str} : id ∈ pendingIds graph s ↔ id ∈ graph ∧ id ∉ s.visited := by
  simp [pendingIds]

theorem Invariant.stack_length_le (h : Invariant graph s) :
    s.stack.length ≤ (pendingIds graph s).length := by
  refine (h.nodup.subperm fun id hid => ?_).length_le
  exact mem_pendingIds.mpr ⟨h.declared id hid, h.unvisited id hid⟩

theorem Invariant.pendingIds_pop_lt (h : Invariant graph s) (hstack : s.stack = current :: rest) :
    (pendingIds graph (s.pop current rest)).length < (pendingIds graph s).length := by
  have hcurrent : current ∈ s.stack := hstack ▸ List.mem_cons_self
  have hnodup : (current :: pendingIds graph (s.pop current rest)).Nodup := by
    refine List.nodup_cons.mpr ⟨fun hmem => ?_, (Std.ExtTreeMap.nodup_keys).filter _⟩
    exact (mem_pendingIds.mp hmem).2 (OSet.mem_insert_iff.mpr (.inl rfl))
  refine Nat.lt_of_succ_le (hnodup.subperm (List.forall_mem_cons.mpr ⟨?_, ?_⟩)).length_le
  · exact mem_pendingIds.mpr ⟨h.declared _ hcurrent, h.unvisited _ hcurrent⟩
  · intro id hid
    obtain ⟨hgraph, hvisited⟩ := mem_pendingIds.mp hid
    exact mem_pendingIds.mpr ⟨hgraph, fun hold => hvisited (OSet.mem_insert_iff.mpr (.inr hold))⟩

/-- An entity is pushed and popped once at most, so twice the pending ones, less those on the
stack, bounds the turns that are left. -/
theorem search_spec (fuel : Nat) (h : Invariant graph s)
    (hfuel : 2 * (pendingIds graph s).length < fuel + s.stack.length) :
    ∃ answer, search graph fuel s = some answer ∧
      (answer = true → ∃ id, OnCycle (Depends graph) id) ∧
      (answer = false → ∀ id ∈ s.stack, ¬ OnCycle (Depends graph) id) := by
  induction fuel generalizing s with
  | zero =>
    have := h.stack_length_le
    omega
  | succ fuel ih =>
    unfold search
    cases hstack : s.stack with
    | nil =>
      refine ⟨false, rfl, fun h => absurd h (by decide), ?_⟩
      exact fun _ _ hid => absurd hid List.not_mem_nil
    | cons current rest =>
      have hcurrent : current ∈ s.stack := hstack ▸ List.mem_cons_self
      obtain ⟨deps, hdeps⟩ : ∃ deps, graph[current]? = some deps :=
        Option.isSome_iff_exists.mp
          (Std.ExtTreeMap.mem_iff_isSome_getElem?.mp (h.declared _ hcurrent))
      have hscan := scan_means graph s deps
      simp only [hdeps, if_neg (h.unvisited _ hcurrent)]
      rw [hstack, List.length_cons] at hfuel
      cases hresult : scan graph s deps with
      | cycle =>
        rw [hresult] at hscan
        obtain ⟨dep, hdep, hin⟩ := hscan
        have hgraph := h.declared dep ((h.inStack dep).mp hin)
        exact ⟨true, rfl, fun _ => ⟨current, h.onCycle_of_back hstack
          ⟨deps, hdeps, hdep, hgraph⟩ hin⟩, fun h => absurd h (by decide)⟩
      | unvisited dep =>
        rw [hresult] at hscan
        obtain ⟨hdep, hin, hvisited, hgraph⟩ := hscan
        obtain ⟨answer, hanswer, htrue, hfalse⟩ :=
          ih (h.push hstack ⟨deps, hdeps, hdep, hgraph⟩ hin hvisited) (by
            change 2 * (pendingIds graph s).length < fuel + (s.stack.length + 1)
            rw [hstack, List.length_cons]
            omega)
        refine ⟨answer, hanswer, htrue, fun hno id hid => ?_⟩
        exact hfalse hno id (List.mem_cons_of_mem _ (hstack ▸ hid))
      | nothing =>
        rw [hresult] at hscan
        have hpop := h.pop hstack (by
          rintro dep ⟨deps', hdeps', hdep, hgraph⟩
          cases hdeps.symm.trans hdeps'
          exact hscan dep hdep hgraph)
        have hlt := h.pendingIds_pop_lt hstack
        obtain ⟨answer, hanswer, htrue, hfalse⟩ := ih hpop (by
          change 2 * _ < fuel + rest.length
          omega)
        refine ⟨answer, hanswer, htrue, fun hno => List.forall_mem_cons.mpr ⟨?_, hfalse hno⟩⟩
        exact hpop.acyclic current (OSet.mem_insert_iff.mpr (.inl rfl))

end Search

theorem hasCycle_spec {graph : Graph} {id : Str} {fuel : Nat} (hid : id ∈ graph)
    (hfuel : 2 * graph.size ≤ fuel) :
    ∃ answer, hasCycle fuel id graph = some answer ∧
      (answer = true → ∃ other, OnCycle (Depends graph) other) ∧
      (answer = false → ¬ OnCycle (Depends graph) id) := by
  have hlength : (pendingIds graph (.start id)).length ≤ graph.size :=
    (List.length_filter_le _ _).trans Std.ExtTreeMap.length_keys.le
  obtain ⟨answer, hanswer, htrue, hfalse⟩ := search_spec fuel (.start hid)
    (by change _ < fuel + 1; omega)
  exact ⟨answer, hanswer, htrue, fun hno => hfalse hno id (List.mem_singleton_self id)⟩

/-! ## The report -/

theorem firstInvolved_spec {graph : Graph} {fuel : Nat} (hfuel : 2 * graph.size ≤ fuel)
    (ids : List Str) (hids : ∀ id ∈ ids, id ∈ graph) :
    ∃ found, firstInvolved fuel graph ids = some found ∧
      (found ≠ none → ∃ id, OnCycle (Depends graph) id) ∧
      (found = none → ∀ id ∈ ids, ¬ OnCycle (Depends graph) id) := by
  induction ids with
  | nil => exact ⟨none, rfl, fun h => absurd rfl h, fun _ _ hid => absurd hid List.not_mem_nil⟩
  | cons id ids ih =>
    obtain ⟨hid, hids⟩ := List.forall_mem_cons.mp hids
    obtain ⟨answer, hanswer, htrue, hfalse⟩ := hasCycle_spec hid hfuel
    obtain ⟨found, hfound, hsome, hnone⟩ := ih hids
    cases answer with
    | true =>
      refine ⟨some id, by simp only [firstInvolved, hanswer], fun _ => htrue rfl, fun h => ?_⟩
      cases h
    | false =>
      refine ⟨found, by simp only [firstInvolved, hanswer, hfound], hsome, fun hno => ?_⟩
      exact List.forall_mem_cons.mpr ⟨hfalse rfl, hnone hno⟩

def DependsOn (declared : Declarations) (id dep : Str) : Prop :=
  ∃ deps, (id, deps) ∈ declared ∧ dep ∈ deps ∧ dep ∈ declared.map Prod.fst

theorem getElem?_foldl_insert (declared : Declarations) (graph : Graph)
    (hnodup : (declared.map Prod.fst).Nodup) (id : Str) (deps : List Str) :
    (declared.foldl (fun graph d => graph.insert d.1 d.2) graph)[id]? = some deps ↔
      (id, deps) ∈ declared ∨ (id ∉ declared.map Prod.fst ∧ graph[id]? = some deps) := by
  induction declared generalizing graph with
  | nil => simp
  | cons d declared ih =>
    obtain ⟨hd, hnodup⟩ := List.nodup_cons.mp hnodup
    rw [List.foldl_cons, ih _ hnodup]
    by_cases hkey : d.1 = id
    · subst hkey
      have hnew : ∀ deps', (d.1, deps') ∉ declared := fun deps' hmem =>
        hd (List.mem_map.mpr ⟨_, hmem, rfl⟩)
      simp [hnew, hd, Prod.ext_iff, eq_comm]
    · have hne : ∀ deps', (id, deps') ≠ d := by rintro deps' rfl; exact hkey rfl
      simp [OMap.getElem?_insert_of_ne hkey, hne, Ne.symm hkey]

section Declared

variable {declared : Declarations} (hnodup : (declared.map Prod.fst).Nodup)
include hnodup

theorem getElem?_graphOf (id : Str) (deps : List Str) :
    (graphOf declared)[id]? = some deps ↔ (id, deps) ∈ declared := by
  rw [graphOf, getElem?_foldl_insert declared ∅ hnodup]
  simp

theorem mem_graphOf (id : Str) : id ∈ graphOf declared ↔ id ∈ declared.map Prod.fst := by
  rw [Std.ExtTreeMap.mem_iff_isSome_getElem?, Option.isSome_iff_exists]
  simp only [getElem?_graphOf hnodup, List.mem_map, Prod.exists, ↓existsAndEq]
  simp

theorem depends_graphOf : Depends (graphOf declared) = DependsOn declared := by
  funext id dep
  simp only [Depends, DependsOn, getElem?_graphOf hnodup, mem_graphOf hnodup]

theorem size_graphOf_le : (graphOf declared).size ≤ declared.length := by
  rw [← Std.ExtTreeMap.length_keys, ← List.length_map (f := Prod.fst)]
  refine (Std.ExtTreeMap.nodup_keys.subperm fun id hid => ?_).length_le
  exact (mem_graphOf hnodup id).mp (Std.ExtTreeMap.mem_keys.mp hid)

theorem circularErrors_spec {fuel : Nat} (hfuel : 2 * declared.length ≤ fuel)
    (kind collection : Str) :
    ∃ errors, circularErrors fuel kind collection declared = some errors ∧
      ((∃ error ∈ errors, error.ruleId = str "R011") ↔ ∃ id, OnCycle (DependsOn declared) id) := by
  obtain ⟨found, hfound, hsome, hnone⟩ := firstInvolved_spec
    ((Nat.mul_le_mul_left 2 (size_graphOf_le hnodup)).trans hfuel) (declared.map Prod.fst)
    (fun id => (mem_graphOf hnodup id).mpr)
  rw [depends_graphOf hnodup] at hsome hnone
  cases found with
  | none =>
    refine ⟨[], by simp only [circularErrors, hfound], ?_⟩
    constructor
    · rintro ⟨error, herror, -⟩
      exact absurd herror List.not_mem_nil
    · rintro ⟨id, hcycle⟩
      obtain ⟨dep, ⟨deps, hdeps, -⟩, -⟩ := TransGen.head'_iff.mp hcycle
      exact absurd hcycle (hnone rfl id (List.mem_map_of_mem hdeps))
  | some id =>
    refine ⟨_, by simp only [circularErrors, hfound]; rfl, ?_⟩
    exact iff_of_true ⟨_, List.mem_singleton_self _, rfl⟩ (hsome (by simp))

end Declared

/-- Of unique ids, the validator reports R011 exactly if the apps or the functions depend on one
another in a circle, after no more turns of a search than twice the number of entities. -/
theorem circular_dependencies_reported_iff (manifest : Manifest)
    (happs : (manifest.apps.map App.id).Nodup)
    (hfunctions : (manifest.functions.map SovdFunction.id).Nodup) {fuel : Nat}
    (hfuel : 2 * (manifest.apps.length + manifest.functions.length) ≤ fuel) :
    ∃ errors, validateCircularDependencies fuel manifest = some errors ∧
      ((∃ error ∈ errors, error.ruleId = str "R011") ↔
        (∃ id, OnCycle (DependsOn manifest.appDeclarations) id) ∨
          ∃ id, OnCycle (DependsOn manifest.functionDeclarations) id) := by
  have happs' : (manifest.appDeclarations.map Prod.fst).Nodup := by
    simpa [Manifest.appDeclarations, Function.comp_def] using happs
  have hfunctions' : (manifest.functionDeclarations.map Prod.fst).Nodup := by
    simpa [Manifest.functionDeclarations, Function.comp_def] using hfunctions
  have happFuel : 2 * manifest.appDeclarations.length ≤ fuel := by
    simp only [Manifest.appDeclarations, List.length_map]
    omega
  have hfunctionFuel : 2 * manifest.functionDeclarations.length ≤ fuel := by
    simp only [Manifest.functionDeclarations, List.length_map]
    omega
  obtain ⟨appErrors, happErrors, happ⟩ :=
    circularErrors_spec happs' happFuel (str "app") (str "apps")
  obtain ⟨functionErrors, hfunctionErrors, hfunction⟩ :=
    circularErrors_spec hfunctions' hfunctionFuel (str "function") (str "functions")
  refine ⟨appErrors ++ functionErrors, ?_, ?_⟩
  · simp only [validateCircularDependencies, happErrors, hfunctionErrors]
  · rw [← happ, ← hfunction]
    simp only [List.mem_append, or_and_right, exists_or]

theorem circular_dependencies_reported_iff_of_selfLoop :
    let manifest : Manifest :=
      { apps := [{ id := str "a", dependsOn := [str "b", str "x"] },
          { id := str "b", dependsOn := [str "b"] }] }
    ∃ errors, validateCircularDependencies 4 manifest = some errors ∧
      ((∃ error ∈ errors, error.ruleId = str "R011") ↔
        (∃ id, OnCycle (DependsOn manifest.appDeclarations) id) ∨
          ∃ id, OnCycle (DependsOn manifest.functionDeclarations) id) :=
  circular_dependencies_reported_iff _ (by decide) (by decide) (by decide)

end Medkit.Gateway.ManifestValidator
