import Medkit.Lib.FunctionalGraph
import Medkit.Gateway.Entities

/-! Which merged components are forwarded to a peer. A component that another one names
as its parent is served locally; parents that are unknown, or that lie on a cycle with
their child, do not count. -/
namespace Medkit.Gateway

open Lib

structure PeerClaim where
  peerName : Str
  claimedEntityIds : OSet Str

structure LeafCollisionWarning where
  entityId : Str
  peerNames : List Str

structure ClassifiedRouting where
  routingTable : OMap Str Str := ∅
  leafWarnings : List LeafCollisionWarning := []
  malformedParentWarnings : List Str := []

/-- The order in which the parent map, a hash map, is traversed. -/
structure VisitOrder where
  keys : OMap Str Str → List Str
  perm : ∀ m, (keys m).Perm m.keys

namespace ComponentRouting

/-! ## Valid parents -/

def selfParentWarning (id : Str) : Str :=
  str "Component '" ++ id ++
    str "' declares itself as parent_component_id; ignoring to preserve leaf routing"

def unknownParentWarning (id parent : Str) : Str :=
  str "Component '" ++ id ++ str "' references non-existent parent_component_id '" ++ parent ++
    str "'; ignoring (missing from merged entity set)"

def declareParent (knownIds : List Str) (found : OMap Str Str × List Str) (comp : Component) :
    OMap Str Str × List Str :=
  let p := comp.parentComponentId
  if p = [] then found
  else if p = comp.id then (found.1, found.2 ++ [selfParentWarning comp.id])
  else if p ∉ knownIds then (found.1, found.2 ++ [unknownParentWarning comp.id p])
  else (found.1.insert comp.id p, found.2)

inductive Color where
  | gray
  | black

/-- The search for cycles: nodes without a color are white. -/
structure Search where
  color : OMap Str Color := ∅
  cycleMembers : OSet Str := ∅

/-- Follow the parents from `node`. The stack holds the gray nodes. -/
def visit (validParent : OMap Str Str) : Nat → Str → List Str → Search → Search
  | 0, _, _, search => search
  | fuel + 1, node, stack, search =>
      let entered := { search with color := search.color.insert node .gray }
      let stack := stack ++ [node]
      let searched := match validParent[node]? with
        | none => entered
        | some next => match entered.color[next]? with
            | some .gray =>
                let cycle := stack.dropWhile (· ≠ next)
                { entered with cycleMembers := entered.cycleMembers.insertMany cycle }
            | some .black => entered
            | none => visit validParent fuel next stack entered
      { searched with color := searched.color.insert node .black }

def visitAll (validParent : OMap Str Str) (order : List Str) : Search :=
  order.foldl (fun search id =>
    if search.color[id]? = none then visit validParent (validParent.size + 1) id [] search
    else search) {}

def cycleWarning (sortedMembers : List Str) : Str :=
  str "Parent cycle detected among Components [" ++ (str ", ").intercalate sortedMembers ++
    str "]; cycle members kept as routed leaves"

def resolveValidParents (order : VisitOrder) (mergedComponents : List Component) :
    OMap Str Str × List Str :=
  let knownIds := mergedComponents.map (·.id)
  let (validParent, warnings) := mergedComponents.foldl (declareParent knownIds) (∅, [])
  let members := (visitAll validParent (order.keys validParent)).cycleMembers.toList
  if members = [] then (validParent, warnings)
  else (validParent.eraseAll members, warnings ++ [cycleWarning members])

/-! ## Classification -/

structure Claims where
  claimsById : OMap Str (List Str) := ∅
  routingTable : OMap Str Str := ∅

def claimId (hierarchicalParents : OSet Str) (peerName : Str) (claims : Claims) (id : Str) :
    Claims :=
  { claimsById := claims.claimsById.alter id fun peers => some (peers.getD [] ++ [peerName])
    routingTable :=
      if id ∉ hierarchicalParents then claims.routingTable.insert id peerName
      else claims.routingTable }

def claimAll (hierarchicalParents : OSet Str) (peerClaims : List PeerClaim) : Claims :=
  peerClaims.foldl (fun claims pc =>
    pc.claimedEntityIds.toList.foldl (claimId hierarchicalParents pc.peerName) claims) {}

def classifyComponentRouting (order : VisitOrder) (mergedComponents : List Component)
    (peerClaims : List PeerClaim) : ClassifiedRouting :=
  let (validParent, warnings) := resolveValidParents order mergedComponents
  let hierarchicalParents : OSet Str :=
    Std.ExtTreeSet.ofList (validParent.toList.map Prod.snd) compare
  let claims := claimAll hierarchicalParents peerClaims
  let colliding := claims.claimsById.toList.filter fun entry =>
    decide (2 ≤ entry.2.length) && decide (entry.1 ∉ hierarchicalParents)
  { routingTable := claims.routingTable
    leafWarnings := colliding.map fun entry =>
      ⟨entry.1, entry.2.mergeSort fun a b => compare a b ≠ .gt⟩
    malformedParentWarnings := warnings }

/-! ## The search for cycles -/

def Parent (validParent : OMap Str Str) (x p : Str) : Prop := validParent[x]? = some p

variable {m : OMap Str Str}

theorem parent_unique (m : OMap Str Str) : Relator.RightUnique (Parent m) := by
  intro x p q hp hq
  exact Option.some.inj (hp.symm.trans hq)

theorem mem_keys_of_parent {x p : Str} (h : Parent m x p) : x ∈ m.keys := by
  rw [Std.ExtTreeMap.mem_keys, Std.ExtTreeMap.mem_iff_isSome_getElem?, h]
  rfl

theorem length_le_size_of_isChain {stack : List Str} {node : Str}
    (hchain : (stack ++ [node]).IsChain (Parent m)) (hnodup : (stack ++ [node]).Nodup) :
    stack.length ≤ m.size := by
  have hmem : ∀ x ∈ stack, x ∈ m.keys := by
    intro x hx
    obtain ⟨before, after, rfl⟩ := List.append_of_mem hx
    rw [List.append_assoc] at hchain
    have hrest := (List.isChain_append.mp hchain).2.1
    cases after with
    | nil => exact mem_keys_of_parent (List.isChain_cons_cons.mp hrest).1
    | cons y after => exact mem_keys_of_parent (List.isChain_cons_cons.mp hrest).1
  have hsub := (List.nodup_append.mp hnodup).1.subperm hmem
  simpa using hsub.length_le

/-- What a visit does: it colors the nodes of a walk black, and if the walk closes a
cycle, adds the nodes of the cycle to the members. -/
structure Walk (m : OMap Str Str) (stack : List Str) (before after : Search) (trail : List Str)
    (z : Str) : Prop where
  chain : (stack ++ (trail ++ [z])).IsChain (Parent m)
  white : ∀ x ∈ trail ++ [z], before.color[x]? = none
  color : ∀ x, after.color[x]? = if x ∈ trail ++ [z] then some .black else before.color[x]?
  members : ((∀ y, Parent m z y → before.color[y]? = some .black) ∧
      after.cycleMembers = before.cycleMembers) ∨
    ∃ front y rest, stack ++ (trail ++ [z]) = front ++ y :: rest ∧ Parent m z y ∧
      ∀ x, x ∈ after.cycleMembers ↔ x ∈ before.cycleMembers ∨ x ∈ y :: rest

section Visit

variable {search searched : Search} {stack : List Str} {node : Str}

theorem Walk.stop (hchain : (stack ++ [node]).IsChain (Parent m))
    (hnode : search.color[node]? = none) (hcolor : searched.color = search.color.insert node .gray)
    (hmembers : ((∀ y, Parent m node y → search.color[y]? = some .black) ∧
        searched.cycleMembers = search.cycleMembers) ∨
      ∃ front y rest, stack ++ [node] = front ++ y :: rest ∧ Parent m node y ∧
        ∀ x, x ∈ searched.cycleMembers ↔ x ∈ search.cycleMembers ∨ x ∈ y :: rest) :
    Walk m stack search { searched with color := searched.color.insert node .black } [] node := by
  refine ⟨hchain, by simpa using hnode, ?_, hmembers⟩
  intro x
  by_cases hx : x = node
  · simp [hx]
  · simp [hx, hcolor, OMap.getElem?_insert_of_ne (Ne.symm hx)]

theorem Walk.enter {trail : List Str} {z : Str} (hnode : search.color[node]? = none)
    (hwalk : Walk m (stack ++ [node]) { search with color := search.color.insert node .gray }
      searched trail z) :
    Walk m stack search { searched with color := searched.color.insert node .black }
      (node :: trail) z := by
  have hentered (x : Str) (hx : x ≠ node) :
      (search.color.insert node .gray)[x]? = search.color[x]? :=
    OMap.getElem?_insert_of_ne (Ne.symm hx) _
  refine ⟨by simpa using hwalk.chain, ?_, ?_, ?_⟩
  · intro x hx
    rcases List.mem_cons.mp hx with rfl | hx
    · exact hnode
    · have hx' := hwalk.white x hx
      have hxn : x ≠ node := by
        rintro rfl
        simp at hx'
      rw [← hentered x hxn, hx']
  · intro x
    by_cases hx : x = node
    · simp [hx]
    · simp [hx, OMap.getElem?_insert_of_ne (Ne.symm hx), hwalk.color x]
  · rcases hwalk.members with ⟨hend, hsame⟩ | ⟨front, y, rest, heq, hy, hmembers⟩
    · refine .inl ⟨?_, hsame⟩
      intro y hy
      have hblack := hend y hy
      have hyn : y ≠ node := by
        rintro rfl
        simp at hblack
      rw [← hentered y hyn, hblack]
    · exact .inr ⟨front, y, rest, by simpa using heq, hy, hmembers⟩

theorem dropWhile_ne_of_mem {next : Str} (hnodup : stack.Nodup) (hmem : next ∈ stack) :
    ∃ front rest, stack = front ++ next :: rest ∧
      stack.dropWhile (· ≠ next) = next :: rest := by
  obtain ⟨front, rest, rfl⟩ := List.append_of_mem hmem
  have hfront : ∀ x ∈ front, decide (x ≠ next) := by
    intro x hx
    exact decide_eq_true ((List.nodup_append.mp hnodup).2.2 x hx next List.mem_cons_self)
  refine ⟨front, rest, rfl, ?_⟩
  rw [List.dropWhile_append_of_pos hfront]
  simp

theorem walk_visit (fuel : Nat) (stack : List Str) (search : Search) {node : Str}
    (hgray : ∀ x, search.color[x]? = some .gray ↔ x ∈ stack) (hnode : search.color[node]? = none)
    (hchain : (stack ++ [node]).IsChain (Parent m)) (hnodup : (stack ++ [node]).Nodup)
    (hfuel : m.size + 1 ≤ fuel + stack.length) :
    ∃ trail z, node ∈ trail ++ [z] ∧
      Walk m stack search (visit m fuel node stack search) trail z := by
  induction fuel generalizing node stack search with
  | zero =>
    have := length_le_size_of_isChain hchain hnodup
    omega
  | succ fuel ih =>
    have hentered (x : Str) (hx : x ≠ node) :
        (search.color.insert node .gray)[x]? = search.color[x]? :=
      OMap.getElem?_insert_of_ne (Ne.symm hx) _
    have hgray' : ∀ x, (search.color.insert node .gray)[x]? = some .gray ↔
        x ∈ stack ++ [node] := by
      intro x
      by_cases hx : x = node
      · simp [hx]
      · rw [hentered x hx, hgray x]
        simp [hx]
    simp only [visit]
    cases hparent : m[node]? with
    | none =>
      refine ⟨[], node, by simp, .stop hchain hnode rfl (.inl ⟨?_, rfl⟩)⟩
      intro y hy
      rw [Parent, hparent] at hy
      cases hy
    | some next =>
      simp only []
      cases hcolor : (search.color.insert node .gray)[next]? with
      | none =>
        have hfresh : next ∉ stack ++ [node] := by
          intro hmem
          rw [(hgray' next).mpr hmem] at hcolor
          cases hcolor
        have hchain' : (stack ++ [node] ++ [next]).IsChain (Parent m) := by
          rw [List.append_assoc, List.isChain_append]
          refine ⟨(List.isChain_append.mp hchain).1, List.isChain_pair.mpr hparent, ?_⟩
          simpa using (List.isChain_append.mp hchain).2.2
        have hnodup' : (stack ++ [node] ++ [next]).Nodup := by
          rw [List.nodup_append']
          exact ⟨hnodup, List.nodup_singleton _, by simpa using hfresh⟩
        obtain ⟨trail, z, -, hwalk⟩ := ih (stack ++ [node])
          { search with color := search.color.insert node .gray } hgray' hcolor hchain'
          hnodup' (by
            rw [List.length_append, List.length_singleton]
            omega)
        exact ⟨node :: trail, z, by simp, hwalk.enter hnode⟩
      | some color =>
        cases color with
        | black =>
          refine ⟨[], node, by simp, .stop hchain hnode rfl (.inl ⟨?_, rfl⟩)⟩
          intro y hy
          obtain rfl := parent_unique m hy hparent
          have hyn : y ≠ node := by
            rintro rfl
            simp at hcolor
          rw [← hentered y hyn, hcolor]
        | gray =>
          obtain ⟨front, rest, hsplit, hcycle⟩ :=
            dropWhile_ne_of_mem hnodup ((hgray' next).mp hcolor)
          refine ⟨[], node, by simp, .stop hchain hnode rfl (.inr
            ⟨front, next, rest, hsplit, hparent, ?_⟩)⟩
          intro x
          rw [hcycle, Std.ExtTreeSet.mem_insertMany_list, List.contains_iff_mem]

end Visit

/-- Between two visits: no node is gray, the black nodes are closed under parents, and
the members are the black nodes on a cycle. -/
structure Explored (m : OMap Str Str) (search : Search) : Prop where
  noGray : ∀ x : Str, search.color[x]? ≠ some .gray
  closed : ∀ x y : Str, search.color[x]? = some .black → Parent m x y →
    search.color[y]? = some .black
  members : ∀ x : Str, x ∈ search.cycleMembers ↔
    search.color[x]? = some .black ∧ OnCycle (Parent m) x

theorem Explored.after_visit {search : Search} (h : Explored m search) {node : Str}
    (hnode : search.color[node]? = none) :
    Explored m (visit m (m.size + 1) node [] search) ∧
    (visit m (m.size + 1) node [] search).color[node]? = some .black ∧
    ∀ x : Str, search.color[x]? = some .black →
      (visit m (m.size + 1) node [] search).color[x]? = some .black := by
  have hstart : ([node]).IsChain (Parent m) := List.isChain_singleton node
  obtain ⟨trail, z, hmem, hwalk⟩ := walk_visit (m.size + 1) [] search
    (by simpa using h.noGray) hnode hstart (by simp) (by simp)
  have hchain : (trail ++ [z]).IsChain (Parent m) := hwalk.chain
  have hunique := parent_unique m
  -- the successor of the last node is already black, or the walk has closed a cycle
  have hwhite : ∀ x ∈ trail ++ [z], ¬ search.color[x]? = some .black := by
    intro x hx hblack
    rw [hwalk.white x hx] at hblack
    cases hblack
  refine ⟨⟨?_, ?_, ?_⟩, ?_, ?_⟩
  · intro x hx
    rw [hwalk.color x] at hx
    split at hx
    · cases hx
    · exact h.noGray x hx
  · intro x y hx hy
    rw [hwalk.color x] at hx
    rw [hwalk.color y]
    split
    · rfl
    · rename_i hout
      split at hx
      · rename_i hin
        rcases mem_of_isChain hunique hchain hin hy with rfl | hyin
        · rcases hwalk.members with ⟨hend, -⟩ | ⟨front, y', rest, heq, hy', -⟩
          · exact hend y hy
          · refine absurd ?_ hout
            rw [hunique hy hy', ← List.nil_append (trail ++ [x]), heq]
            simp
        · exact absurd hyin hout
      · exact h.closed x y hx hy
  · intro x
    rw [hwalk.color x]
    rcases hwalk.members with ⟨hend, hsame⟩ | ⟨front, y, rest, heq, hy, hmembers⟩
    · rw [hsame, h.members x]
      by_cases hx : x ∈ trail ++ [z]
      · have hnot : ¬ OnCycle (Parent m) x :=
          not_onCycle_of_walk hunique h.closed hchain hwhite hend hx
        simp [hx, hnot]
      · simp [hx]
    · rw [hmembers x, h.members x]
      rw [List.nil_append] at heq
      have hlast : (y :: rest).getLast? = some z := by
        have hz : (front ++ y :: rest).getLast? = some z := by rw [← heq]; simp
        rw [List.getLast?_append] at hz
        simpa [List.getLast?_cons] using hz
      by_cases hx : x ∈ trail ++ [z]
      · have hcycle := onCycle_iff_of_walk hunique (heq ▸ hchain) hlast hy (heq ▸ hx)
        have hnot := hwhite x hx
        simp [hx, hnot, hcycle]
      · have hx' : x ∉ y :: rest := fun hin => hx (by rw [heq]; exact List.mem_append_right _ hin)
        simp only [hx, hx', or_false, if_false]
  · rw [hwalk.color node, if_pos hmem]
  · intro x hx
    rw [hwalk.color x]
    split
    · rfl
    · exact hx

theorem explored_visitAll (m : OMap Str Str) (order : List Str) :
    Explored m (visitAll m order) ∧ ∀ x ∈ order, (visitAll m order).color[x]? = some .black := by
  induction order using List.reverseRecOn with
  | nil =>
    refine ⟨⟨?_, ?_, ?_⟩, by simp⟩
    · simp [visitAll]
    · simp [visitAll]
    · simp [visitAll]
  | append_singleton order id ih =>
    obtain ⟨hexplored, hblack⟩ := ih
    have hlast : visitAll m (order ++ [id]) =
        if (visitAll m order).color[id]? = none then
          visit m (m.size + 1) id [] (visitAll m order)
        else visitAll m order := by
      simp [visitAll]
    rw [hlast]
    split
    · rename_i hid
      obtain ⟨hvisit, hself, hmono⟩ := hexplored.after_visit hid
      refine ⟨hvisit, ?_⟩
      intro x hx
      rcases List.mem_append.mp hx with hx | hx
      · exact hmono x (hblack x hx)
      · rw [List.mem_singleton.mp hx]
        exact hself
    · rename_i hid
      refine ⟨hexplored, ?_⟩
      intro x hx
      rcases List.mem_append.mp hx with hx | hx
      · exact hblack x hx
      · rw [List.mem_singleton.mp hx]
        cases hcolor : (visitAll m order).color[id]? with
        | none => exact absurd hcolor hid
        | some color =>
          cases color with
          | gray => exact absurd hcolor (hexplored.noGray id)
          | black => rfl

/-- Whatever the order of the visits, the members are the nodes on cycles. -/
theorem mem_cycleMembers_iff {order : List Str} (horder : order.Perm m.keys) (x : Str) :
    x ∈ (visitAll m order).cycleMembers ↔ OnCycle (Parent m) x := by
  obtain ⟨hexplored, hblack⟩ := explored_visitAll m order
  rw [hexplored.members x]
  refine ⟨And.right, fun hx => ⟨hblack x ?_, hx⟩⟩
  obtain ⟨y, hy, -⟩ := Relation.TransGen.head'_iff.mp hx
  exact horder.mem_iff.mpr (mem_keys_of_parent hy)

/-! ## Declared and remaining parents -/

def Declares (comps : List Component) (x p : Str) : Prop :=
  ∃ c ∈ comps, c.id = x ∧ c.parentComponentId = p ∧ p ≠ []

def Usable (knownIds : List Str) (c : Component) : Prop :=
  c.parentComponentId ≠ [] ∧ c.parentComponentId ≠ c.id ∧ c.parentComponentId ∈ knownIds

theorem declareParent_fst (knownIds : List Str) (found : OMap Str Str × List Str) (c : Component) :
    (Usable knownIds c ∧
      (declareParent knownIds found c).1 = found.1.insert c.id c.parentComponentId) ∨
    (¬ Usable knownIds c ∧ (declareParent knownIds found c).1 = found.1) := by
  fun_cases declareParent knownIds found c with
  | case1 p h => exact .inr ⟨fun hc => hc.1 h, rfl⟩
  | case2 p _ h => exact .inr ⟨fun hc => hc.2.1 h, rfl⟩
  | case3 p _ _ h => exact .inr ⟨fun hc => h hc.2.2, rfl⟩
  | case4 p h h' hknown => exact .inl ⟨⟨h, h', not_not.mp hknown⟩, rfl⟩

variable {comps : List Component} (hierarchicalParents : OSet Str)

theorem getElem?_foldl_declareParent {knownIds : List Str} (hnodup : (comps.map (·.id)).Nodup)
    (found : OMap Str Str × List Str) (hfresh : ∀ c ∈ comps, found.1[c.id]? = none) (x p : Str) :
    (comps.foldl (declareParent knownIds) found).1[x]? = some p ↔
      found.1[x]? = some p ∨ ∃ c ∈ comps, Usable knownIds c ∧ c.id = x ∧
        c.parentComponentId = p := by
  induction comps generalizing found with
  | nil => simp
  | cons c comps ih =>
    rw [List.map_cons, List.nodup_cons] at hnodup
    obtain ⟨hhead, htail⟩ := hnodup
    have hother : ∀ c' ∈ comps, c.id ≠ c'.id := by
      intro c' hc' heq
      exact hhead (heq ▸ List.mem_map_of_mem hc')
    rw [List.foldl_cons]
    rcases declareParent_fst knownIds found c with ⟨huse, hfound⟩ | ⟨huse, hfound⟩
    · rw [ih htail, hfound]
      · by_cases hx : c.id = x
        · subst hx
          have hnone := hfresh c List.mem_cons_self
          simp [hnone, huse]
        · simp [OMap.getElem?_insert_of_ne hx, hx]
      · intro c' hc'
        rw [hfound, OMap.getElem?_insert_of_ne (hother c' hc')]
        exact hfresh c' (List.mem_cons_of_mem _ hc')
    · rw [ih htail, hfound]
      · simp [huse]
      · intro c' hc'
        rw [hfound]
        exact hfresh c' (List.mem_cons_of_mem _ hc')

theorem declares_unique (hnodup : (comps.map (·.id)).Nodup) :
    Relator.RightUnique (Declares comps) := by
  rintro x p q ⟨c, hc, hcx, rfl, -⟩ ⟨d, hd, hdx, rfl, -⟩
  rw [List.inj_on_of_nodup_map hnodup hc hd (hcx.trans hdx.symm)]

def declaredParents (comps : List Component) : OMap Str Str :=
  (comps.foldl (declareParent (comps.map (·.id))) (∅, [])).1

theorem parent_declaredParents (hnodup : (comps.map (·.id)).Nodup) (x p : Str) :
    Parent (declaredParents comps) x p ↔
      Declares comps x p ∧ p ≠ x ∧ p ∈ comps.map (·.id) := by
  unfold Parent declaredParents
  rw [getElem?_foldl_declareParent hnodup _ (by simp)]
  constructor
  · rintro (h | ⟨c, hc, huse, rfl, rfl⟩)
    · simp at h
    · exact ⟨⟨c, hc, rfl, rfl, huse.1⟩, huse.2.1, huse.2.2⟩
  · rintro ⟨⟨c, hc, rfl, rfl, hne⟩, hself, hknown⟩
    exact .inr ⟨c, hc, ⟨hne, hself, hknown⟩, rfl, rfl⟩

/-- A component with a usable parent lies on a declared cycle only if it lies on one of
usable edges. -/
theorem onCycle_parent (hnodup : (comps.map (·.id)).Nodup)
    (hm : ∀ x p, Parent m x p ↔ Declares comps x p ∧ p ≠ x ∧ p ∈ comps.map (·.id)) {x p : Str}
    (hp : Parent m x p) (hx : OnCycle (Declares comps) x) : OnCycle (Parent m) x := by
  have hunique := declares_unique hnodup
  obtain ⟨hdeclares, hself, -⟩ := (hm x p).mp hp
  -- no self edge can be reached, since it could not be left again
  have hstep {a b : Str} (ha : Relation.ReflTransGen (Declares comps) x a)
      (hab : Declares comps a b) : Parent m a b := by
    have hb : Relation.TransGen (Declares comps) b x := hx.back hunique (ha.tail hab)
    refine (hm a b).mpr ⟨hab, ?_, ?_⟩
    · rintro rfl
      have hstuck : x = b := mem_of_reaches (S := (· = b))
        (fun u v hu huv => hunique (hu ▸ huv) hab) rfl hb.to_reflTransGen
      subst hstuck
      exact hself (hunique hdeclares hab)
    · obtain ⟨c, ⟨comp, hcomp, rfl, -⟩, -⟩ := Relation.TransGen.head'_iff.mp hb
      exact List.mem_map_of_mem hcomp
  have hreach {y : Str} (hy : Relation.ReflTransGen (Declares comps) x y) :
      Relation.ReflTransGen (Parent m) x y := by
    induction hy with
    | refl => exact .refl
    | tail hxa hab ih => exact ih.tail (hstep hxa hab)
  obtain ⟨a, ha, hax⟩ := Relation.TransGen.tail'_iff.mp hx
  exact Relation.TransGen.tail' (hreach ha) (hstep ha hax)

theorem resolveValidParents_fst (order : VisitOrder) (comps : List Component) (x p : Str) :
    Parent (resolveValidParents order comps).1 x p ↔
      Parent (declaredParents comps) x p ∧ ¬ OnCycle (Parent (declaredParents comps)) x := by
  have hmembers := mem_cycleMembers_iff (order.perm (declaredParents comps))
  have hresolve : (resolveValidParents order comps).1 = (declaredParents comps).eraseAll
      (visitAll (declaredParents comps) (order.keys (declaredParents comps))).cycleMembers.toList := by
    unfold resolveValidParents
    simp only
    split
    · next hnone => exact (congrArg (OMap.eraseAll (declaredParents comps)) hnone).symm
    · rfl
  have hmem (x : Str) : x ∈ (visitAll (declaredParents comps)
      (order.keys (declaredParents comps))).cycleMembers.toList ↔
        OnCycle (Parent (declaredParents comps)) x := by
    rw [Std.ExtTreeSet.mem_toList, hmembers x]
  change (resolveValidParents order comps).1[x]? = some p ↔ (declaredParents comps)[x]? = some p ∧ _
  rw [hresolve, OMap.getElem?_eraseAll, ← hmem x]
  split
  · next hx => simp [hx]
  · next hx => simp [hx]

theorem remaining_parents (order : VisitOrder) (hnodup : (comps.map (·.id)).Nodup) (x p : Str) :
    Parent (resolveValidParents order comps).1 x p ↔
      Declares comps x p ∧ p ∈ comps.map (·.id) ∧ ¬ OnCycle (Declares comps) x := by
  have hdeclared := parent_declaredParents hnodup
  rw [resolveValidParents_fst order comps x p]
  constructor
  · rintro ⟨hp, hno⟩
    obtain ⟨hdeclares, -, hknown⟩ := (hdeclared x p).mp hp
    exact ⟨hdeclares, hknown, fun hx => hno (onCycle_parent hnodup hdeclared hp hx)⟩
  · rintro ⟨hdeclares, hknown, hno⟩
    have hself : p ≠ x := by
      rintro rfl
      exact hno (.single hdeclares)
    refine ⟨(hdeclared x p).mpr ⟨hdeclares, hself, hknown⟩, fun hx => hno ?_⟩
    exact hx.mono fun a b hab => ((hdeclared a b).mp hab).1

theorem remaining_acyclic (order : VisitOrder) (comps : List Component) (x : Str) :
    ¬ OnCycle (Parent (resolveValidParents order comps).1) x := by
  intro hx
  obtain ⟨p, hp, -⟩ := Relation.TransGen.head'_iff.mp hx
  refine ((resolveValidParents_fst order comps x p).mp hp).2 (hx.mono ?_)
  intro a b hab
  exact ((resolveValidParents_fst order comps a b).mp hab).1

/-! ## Claims -/

def claimants (peerClaims : List PeerClaim) (id : Str) : List Str :=
  (peerClaims.filter fun pc => decide (id ∈ pc.claimedEntityIds)).map (·.peerName)

theorem claimId_self (peerName : Str) (claims : Claims) (id : Str) :
    (claimId hierarchicalParents peerName claims id).claimsById[id]? =
      some ((claims.claimsById[id]?).getD [] ++ [peerName]) ∧
    (claimId hierarchicalParents peerName claims id).routingTable[id]? =
      if id ∈ hierarchicalParents then claims.routingTable[id]? else some peerName := by
  unfold claimId
  refine ⟨by simp, ?_⟩
  by_cases h : id ∈ hierarchicalParents
  · simp [h]
  · simp [h]

theorem claimId_of_ne (peerName : Str) (claims : Claims) {id k : Str} (h : id ≠ k) :
    (claimId hierarchicalParents peerName claims id).claimsById[k]? = claims.claimsById[k]? ∧
    (claimId hierarchicalParents peerName claims id).routingTable[k]? =
      claims.routingTable[k]? := by
  unfold claimId
  refine ⟨by simp [Std.ExtTreeMap.getElem?_alter, h], ?_⟩
  split
  · exact OMap.getElem?_insert_of_ne h _
  · rfl

theorem claim_peer (peerName : Str) {ids : List Str} (hnodup : ids.Nodup) (claims : Claims)
    (k : Str) : (ids.foldl (claimId hierarchicalParents peerName) claims).claimsById[k]? =
      (if k ∈ ids then some ((claims.claimsById[k]?).getD [] ++ [peerName])
        else claims.claimsById[k]?) ∧
    (ids.foldl (claimId hierarchicalParents peerName) claims).routingTable[k]? =
      if k ∈ ids ∧ k ∉ hierarchicalParents then some peerName else claims.routingTable[k]? := by
  induction ids generalizing claims with
  | nil => simp
  | cons id ids ih =>
    obtain ⟨hid, hids⟩ := List.nodup_cons.mp hnodup
    rw [List.foldl_cons]
    obtain ⟨hclaims, hrouting⟩ := ih hids (claimId hierarchicalParents peerName claims id)
    rw [hclaims, hrouting]
    by_cases hk : id = k
    · subst hk
      obtain ⟨hself, hroute⟩ := claimId_self hierarchicalParents peerName claims id
      simp only [hid, if_false, false_and, hself, hroute, List.mem_cons, true_or, if_true,
        true_and]
      by_cases hparent : id ∈ hierarchicalParents
      · simp [hparent]
      · simp [hparent]
    · obtain ⟨hother, hroute⟩ := claimId_of_ne hierarchicalParents peerName claims hk
      simp [hother, hroute, Ne.symm hk]

theorem claim_all (peerClaims : List PeerClaim) (id : Str) :
    ((claimAll hierarchicalParents peerClaims).claimsById[id]?).getD [] =
      claimants peerClaims id ∧ (claimAll hierarchicalParents peerClaims).routingTable[id]? =
      if id ∈ hierarchicalParents then none else (claimants peerClaims id).getLast? := by
  induction peerClaims using List.reverseRecOn with
  | nil => simp [claimAll, claimants]
  | append_singleton peerClaims pc ih =>
    have hlast : claimAll hierarchicalParents (peerClaims ++ [pc]) =
        pc.claimedEntityIds.toList.foldl (claimId hierarchicalParents pc.peerName)
          (claimAll hierarchicalParents peerClaims) := by
      simp [claimAll]
    obtain ⟨hclaims, hrouting⟩ := claim_peer hierarchicalParents pc.peerName
      (OSet.nodup_toList pc.claimedEntityIds) (claimAll hierarchicalParents peerClaims) id
    rw [hlast, hclaims, hrouting]
    simp only [Std.ExtTreeSet.mem_toList]
    by_cases hid : id ∈ pc.claimedEntityIds
    · have hsnoc : claimants (peerClaims ++ [pc]) id = claimants peerClaims id ++ [pc.peerName] := by
        simp [claimants, hid]
      rw [hsnoc, ← ih.1]
      by_cases hparent : id ∈ hierarchicalParents
      · simp [hid, hparent, ih.2]
      · simp [hid, hparent]
    · have hsame : claimants (peerClaims ++ [pc]) id = claimants peerClaims id := by
        simp [claimants, hid]
      simp [hid, hsame, ih.1, ih.2]

/-! ## The classification -/

theorem mem_hierarchicalParents {parents : OMap Str Str} {id : Str} :
    id ∈ (Std.ExtTreeSet.ofList (parents.toList.map Prod.snd) compare : OSet Str) ↔
      ∃ x, Parent parents x id := by
  rw [Std.ExtTreeSet.mem_ofList, List.contains_iff_mem, OMap.mem_values]
  rfl

theorem routingTable_classify (order : VisitOrder) (comps : List Component)
    (peerClaims : List PeerClaim) (id peer : Str) :
    (classifyComponentRouting order comps peerClaims).routingTable[id]? = some peer ↔
      (∀ x, ¬ Parent (resolveValidParents order comps).1 x id) ∧
      (claimants peerClaims id).getLast? = some peer := by
  unfold classifyComponentRouting
  simp only
  rw [(claim_all _ peerClaims id).2]
  split
  · rename_i hparent
    obtain ⟨x, hx⟩ := mem_hierarchicalParents.mp hparent
    exact ⟨fun h => absurd h (by simp), fun h => absurd hx (h.1 x)⟩
  · rename_i hparent
    have hno : ∀ x, ¬ Parent (resolveValidParents order comps).1 x id :=
      fun x hx => hparent (mem_hierarchicalParents.mpr ⟨x, hx⟩)
    simp [hno]

theorem leafWarnings_classify (order : VisitOrder) (comps : List Component)
    (peerClaims : List PeerClaim) (id : Str) :
    id ∈ (classifyComponentRouting order comps peerClaims).leafWarnings.map (·.entityId) ↔
      (∀ x, ¬ Parent (resolveValidParents order comps).1 x id) ∧
      2 ≤ (claimants peerClaims id).length := by
  have hclaims := (claim_all (Std.ExtTreeSet.ofList
    ((resolveValidParents order comps).1.toList.map Prod.snd) compare) peerClaims id).1
  have hparents : (∀ x, ¬ Parent (resolveValidParents order comps).1 x id) ↔
      id ∉ (Std.ExtTreeSet.ofList ((resolveValidParents order comps).1.toList.map Prod.snd)
        compare : OSet Str) := by
    rw [mem_hierarchicalParents, not_exists]
  rw [hparents, ← hclaims]
  unfold classifyComponentRouting
  simp only [List.map_map, List.mem_map, List.mem_filter, Function.comp_apply, Prod.exists,
    Std.ExtTreeMap.mem_toList_iff_getElem?_eq_some, Bool.and_eq_true, decide_eq_true_eq]
  constructor
  · rintro ⟨k, peers, ⟨hentry, htwo, hparent⟩, rfl⟩
    rw [hentry]
    exact ⟨hparent, htwo⟩
  · rintro ⟨hparent, htwo⟩
    cases hentry : (claimAll (Std.ExtTreeSet.ofList
        ((resolveValidParents order comps).1.toList.map Prod.snd) compare)
        peerClaims).claimsById[id]? with
    | none =>
      rw [hentry] at htwo
      simp at htwo
    | some peers =>
      rw [hentry] at htwo
      exact ⟨id, peers, ⟨hentry, htwo, hparent⟩, rfl⟩

/-- The parent edges that count are the declared ones to known components, without those
of components on a cycle, whatever the order of the search. What is not a parent under
them goes to its last claimant. -/
theorem components_routed_without_cycles (order : VisitOrder) (comps : List Component)
    (peerClaims : List PeerClaim) (hids : (comps.map (·.id)).Nodup) :
    let parents := (resolveValidParents order comps).1
    let routing := classifyComponentRouting order comps peerClaims
    (∀ x p, Parent parents x p ↔
      Declares comps x p ∧ p ∈ comps.map (·.id) ∧ ¬ OnCycle (Declares comps) x) ∧
    (∀ x, ¬ OnCycle (Parent parents) x) ∧
    (∀ id peer, routing.routingTable[id]? = some peer ↔
      (∀ x, ¬ Parent parents x id) ∧ (claimants peerClaims id).getLast? = some peer) ∧
    ∀ id, id ∈ routing.leafWarnings.map (·.entityId) ↔
      (∀ x, ¬ Parent parents x id) ∧ 2 ≤ (claimants peerClaims id).length := by
  intro parents routing
  exact ⟨remaining_parents order hids, remaining_acyclic order comps,
    routingTable_classify order comps peerClaims, leafWarnings_classify order comps peerClaims⟩

def sortedOrder : VisitOrder := ⟨fun m => m.keys, fun _ => .refl _⟩

def loopedComponents : List Component :=
  [{ id := str "gw_a", parentComponentId := str "gw_b" },
    { id := str "gw_b", parentComponentId := str "gw_a" },
    { id := str "camera", parentComponentId := str "gw_a" }]

def loopedClaims : List PeerClaim :=
  [⟨str "left", (∅ : OSet Str).insertMany [str "gw_b", str "camera"]⟩,
    ⟨str "right", (∅ : OSet Str).insertMany [str "gw_a", str "camera"]⟩]

theorem components_routed_without_cycles_for_camera :
    (loopedComponents.map (·.id)).Nodup ∧
    (classifyComponentRouting sortedOrder loopedComponents loopedClaims).routingTable[str
      "camera"]? = some (str "right") := by
  have hids : (loopedComponents.map (·.id)).Nodup := by decide
  refine ⟨hids, ?_⟩
  rw [(components_routed_without_cycles sortedOrder loopedComponents loopedClaims hids).2.2.1]
  refine ⟨?_, by decide⟩
  intro x hx
  obtain ⟨⟨c, hc, -, hp, -⟩, -⟩ :=
    ((components_routed_without_cycles sortedOrder loopedComponents loopedClaims hids).1 x _).mp hx
  revert c
  decide

/-- If an id is listed twice, the parent of the later entry replaces that of the earlier
one, although no cycle is involved. -/
theorem repeated_component_loses_parent :
    ∃ comps : List Component, Declares comps (str "camera") (str "gw_a") ∧
      str "gw_a" ∈ comps.map (·.id) ∧ ¬ OnCycle (Declares comps) (str "camera") ∧
      ¬ Parent (resolveValidParents sortedOrder comps).1 (str "camera") (str "gw_a") := by
  refine ⟨[{ id := str "camera", parentComponentId := str "gw_a" },
    { id := str "camera", parentComponentId := str "gw_b" }, { id := str "gw_a" },
    { id := str "gw_b" }], ?_, by decide, ?_, ?_⟩
  · exact ⟨_, List.mem_cons_self, rfl, rfl, by decide⟩
  · intro hcycle
    obtain ⟨x, -, c, hc, -, hp, -⟩ := Relation.TransGen.tail'_iff.mp hcycle
    revert c
    decide
  · unfold Parent
    decide

end ComponentRouting

end Medkit.Gateway
