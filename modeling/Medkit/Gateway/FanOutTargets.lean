import Medkit.Gateway.Entities

/-! Whom a request concerns, read from its path twice: by the ordered list of path patterns, and by
the search for a collection that the fan-out to the contributors of an entity makes. -/
namespace Medkit.Gateway

open Lib

/-! ## The path patterns -/

structure EntityPathInfo where
  type : SovdEntityType
  entityId : Str
  resourcePath : Str := []
  entityPath : Str := []
  parentId : Str := []
  isNested : Bool := false
deriving DecidableEq

/-- A pattern begins with a literal, up to the first captured segment; a nested one has a second
literal, up to the second segment. -/
structure PatternDef where
  literal : Str
  nested : Option Str := none
  type : SovdEntityType

def getPatterns : List PatternDef :=
  [{ literal := str "/api/v1/areas/", nested := some (str "/subareas/"), type := .area },
    { literal := str "/api/v1/components/", nested := some (str "/subcomponents/"),
      type := .component },
    { literal := str "/api/v1/apps/", type := .app },
    { literal := str "/api/v1/components/", type := .component },
    { literal := str "/api/v1/areas/", type := .area },
    { literal := str "/api/v1/functions/", type := .function }]

def getTypeSegment : SovdEntityType → Bool → Str
  | .area, true => str "subareas"
  | .component, true => str "subcomponents"
  | .app, _ => str "apps"
  | .component, _ => str "components"
  | .area, _ => str "areas"
  | .function, _ => str "functions"
  | _, _ => []

/-- The group `([^/]+)`, with what is left. A slash or the end of the path follows it in every
pattern, so it takes all it can. -/
def segment (s : Str) : Option (Str × Str) :=
  let found := s.takeWhile (· ≠ 47)
  if found = [] then none else some (found, s.dropWhile (· ≠ 47))

/-- The group `(/.*)?` up to the end of the path; the dot does not match a line terminator. -/
def resource (s : Str) : Option Str :=
  if s = [] ∨ s.head? = some 47 ∧ 10 ∉ s ∧ 13 ∉ s then some s else none

structure Groups where
  parent : Option Str
  entity : Str
  resource : Str

def PatternDef.regexMatch (d : PatternDef) (path : Str) : Option Groups := do
  let rest ← path.dropPrefix? d.literal
  let (first, rest) ← segment rest
  match d.nested with
  | none =>
      let found ← resource rest
      return ⟨none, first, found⟩
  | some inner =>
      let rest ← rest.dropPrefix? inner
      let (second, rest) ← segment rest
      let found ← resource rest
      return ⟨some first, second, found⟩

def PatternDef.info (d : PatternDef) (groups : Groups) : EntityPathInfo :=
  match groups.parent with
  | some parent =>
      { type := d.type
        isNested := true
        parentId := parent
        entityId := groups.entity
        resourcePath := groups.resource
        entityPath := str "/" ++ getTypeSegment d.type false ++ str "/" ++ parent ++ str "/" ++
          getTypeSegment d.type true ++ str "/" ++ groups.entity }
  | none =>
      { type := d.type
        entityId := groups.entity
        resourcePath := groups.resource
        entityPath := str "/" ++ getTypeSegment d.type false ++ str "/" ++ groups.entity }

def parseEntityPath (requestPath : Str) : Option EntityPathInfo :=
  if requestPath = [] then none
  else getPatterns.findSome? fun d => (d.regexMatch requestPath).map d.info

/-! ## The search -/

def afterFirst (marker : Str) : Str → Option Str
  | [] => none
  | b :: rest =>
      if marker.isPrefixOf (b :: rest) then some ((b :: rest).drop marker.length)
      else afterFirst marker rest

def kEntityCollections : List Str :=
  [str "/components/", str "/apps/", str "/areas/", str "/functions/"]

def beforeSlash (s : Str) : Option Str :=
  let id := s.takeWhile (· ≠ 47)
  if 47 ∈ s ∧ id ≠ [] then some id else none

/-- The first collection that occurs anywhere in the path decides. -/
def extractEntityIdForFanOut (path : Str) : Option Str :=
  (kEntityCollections.findSome? (afterFirst · path)).bind beforeSlash

def searchedBefore : SovdEntityType → List Str
  | .app => [str "/components/"]
  | .area => [str "/components/", str "/apps/"]
  | .function => [str "/components/", str "/apps/", str "/areas/"]
  | _ => []

/-! ## What a pattern says of a path -/

theorem segment_spec {s found rest : Str} (h : segment s = some (found, rest)) :
    s = found ++ rest ∧ found ≠ [] ∧ 47 ∉ found := by
  simp only [segment] at h
  split at h
  · cases h
  · rename_i hne
    obtain ⟨rfl, rfl⟩ := Prod.mk.inj (Option.some.inj h)
    refine ⟨List.takeWhile_append_dropWhile.symm, hne, fun hmem => ?_⟩
    simpa using List.mem_takeWhile_imp hmem

theorem head?_of_resource {s found : Str} (h : resource s = some found) :
    found = s ∧ (found ≠ [] → found.head? = some 47) := by
  simp only [resource] at h
  split at h
  · rename_i hs
    cases h
    exact ⟨rfl, fun hne => (hs.resolve_left hne).1⟩
  · cases h

structure Reads (d : PatternDef) (path : Str) (groups : Groups) : Prop where
  path : path = d.literal ++ (groups.parent.elim [] (· ++ d.nested.getD []) ++
    (groups.entity ++ groups.resource))
  entity : groups.entity ≠ [] ∧ 47 ∉ groups.entity
  parent : ∀ parent ∈ groups.parent, (parent ≠ [] ∧ 47 ∉ parent) ∧ d.nested.isSome
  resource : groups.resource ≠ [] → groups.resource.head? = some 47

theorem reads_of_regexMatch {d : PatternDef} {path : Str} {groups : Groups}
    (h : d.regexMatch path = some groups) : Reads d path groups := by
  simp only [PatternDef.regexMatch, Option.bind_eq_bind, Option.bind_eq_some_iff] at h
  obtain ⟨rest, hrest, ⟨first, rest'⟩, hfirst, h⟩ := h
  obtain ⟨literal, rfl, hliteral⟩ := List.dropPrefix?_eq_some_iff.mp hrest
  obtain ⟨rfl, hsegment⟩ := segment_spec hfirst
  obtain rfl := eq_of_beq hliteral
  split at h
  · rename_i hnested
    obtain ⟨found, hfound, h⟩ := Option.bind_eq_some_iff.mp h
    obtain ⟨rfl, hhead⟩ := head?_of_resource hfound
    obtain rfl := Option.some.inj h
    exact ⟨rfl, hsegment, by simp, hhead⟩
  · rename_i inner hnested
    simp only [Option.bind_eq_some_iff] at h
    obtain ⟨rest, hrest, ⟨second, rest'⟩, hsecond, found, hfound, h⟩ := h
    obtain ⟨inner', rfl, hinner⟩ := List.dropPrefix?_eq_some_iff.mp hrest
    obtain ⟨rfl, hsegment'⟩ := segment_spec hsecond
    obtain ⟨rfl, hhead⟩ := head?_of_resource hfound
    obtain rfl := eq_of_beq hinner
    obtain rfl := Option.some.inj h
    refine ⟨?_, hsegment', ?_, hhead⟩
    · simp [hnested]
    · simp [hnested, hsegment]

/-! ## The search in a path that a pattern reads -/

theorem findSome?_afterFirst {type : SovdEntityType} (tail : Str)
    (htype : type ∈ getPatterns.map (·.type)) :
    kEntityCollections.findSome? (afterFirst · (str "/api/v1/" ++ getTypeSegment type false ++
        47 :: tail)) =
      some (((searchedBefore type).findSome? (afterFirst · (47 :: tail))).getD tail) := by
  have hbefore : (searchedBefore type).findSome?
        (afterFirst · (str "/api/v1/" ++ getTypeSegment type false ++ 47 :: tail)) =
      (searchedBefore type).findSome? (afterFirst · (47 :: tail)) := by
    cases type with
    | area | component | app | function => rfl
    | server | unknown => exact absurd htype (by decide)
  obtain ⟨own, later, hall, hown⟩ : ∃ own later,
      kEntityCollections = searchedBefore type ++ own :: later ∧
        afterFirst own (str "/api/v1/" ++ getTypeSegment type false ++ 47 :: tail) = some tail := by
    cases type with
    | area | component | app | function => exact ⟨_, _, rfl, rfl⟩
    | server | unknown => exact absurd htype (by decide)
  rw [hall, List.findSome?_append, List.findSome?_cons, hown, hbefore]
  cases (searchedBefore type).findSome? (afterFirst · (47 :: tail)) <;> rfl

theorem beforeSlash_eq_some_iff {s id : Str} (hne : id ≠ []) (hid : 47 ∉ id) :
    beforeSlash s = some id ↔ id ++ [47] <+: s := by
  have htake : ∀ {front : Str} (more : Str), 47 ∉ front →
      (front ++ 47 :: more).takeWhile (· ≠ 47) = front := fun more hfront =>
    takeWhile_append_cons (· ≠ 47) more (fun b hb heq => hfront (heq ▸ hb)) (by simp)
  simp only [beforeSlash]
  constructor
  · intro h
    split at h
    · rename_i hslash
      obtain ⟨front, more, rfl, hfront⟩ := List.eq_append_cons_of_mem hslash.1
      rw [htake more hfront] at h
      cases h
      exact ⟨more, by simp⟩
    · cases h
  · rintro ⟨more, rfl⟩
    rw [List.append_assoc, List.singleton_append, htake more hid, if_pos ⟨by simp, hne⟩]

def behindCollection (path : Str) (type : SovdEntityType) : Str :=
  path.drop (str "/api/v1/" ++ getTypeSegment type false).length

/-- What follows the first collection behind the entity's own that is searched for before it. -/
def diversion (path : Str) (type : SovdEntityType) : Option Str :=
  (searchedBefore type).findSome? (afterFirst · (behindCollection path type))

/-- No collection diverts the search and a nested entity has the id of its parent, or the diverting
collection has the entity's id and a slash behind it. -/
def Undiverted (path : Str) (info : EntityPathInfo) : Prop :=
  (diversion path info.type = none → info.isNested = true → info.parentId = info.entityId) ∧
    ∀ rest ∈ diversion path info.type, info.entityId ++ [47] <+: rest
deriving Decidable

theorem literal_of_mem {d : PatternDef} (hd : d ∈ getPatterns) :
    d.type ∈ getPatterns.map (·.type) ∧
      d.literal = str "/api/v1/" ++ getTypeSegment d.type false ++ [47] ∧
      ∀ inner ∈ d.nested, ∃ more, inner = 47 :: more := by
  refine ⟨List.mem_map_of_mem hd, ?_⟩
  simp only [getPatterns, List.mem_cons, List.not_mem_nil, or_false] at hd
  rcases hd with rfl | rfl | rfl | rfl | rfl | rfl
  all_goals refine ⟨rfl, ?_⟩
  all_goals rintro inner ⟨⟩
  all_goals exact ⟨_, rfl⟩

theorem beforeSlash_groups {d : PatternDef} {path : Str} {groups : Groups}
    (hd : d ∈ getPatterns) (h : Reads d path groups) (hresource : groups.resource ≠ []) :
    beforeSlash (groups.parent.elim [] (· ++ d.nested.getD []) ++
      (groups.entity ++ groups.resource)) = some (groups.parent.getD groups.entity) := by
  obtain ⟨more, hmore⟩ : ∃ more, groups.resource = 47 :: more := by
    have hhead := h.resource hresource
    cases hres : groups.resource with
    | nil => exact absurd hres hresource
    | cons b more =>
      rw [hres] at hhead
      exact ⟨more, by rw [Option.some.inj hhead]⟩
  cases hparent : groups.parent with
  | none =>
    refine (beforeSlash_eq_some_iff h.entity.1 h.entity.2).mpr ⟨more, ?_⟩
    simp [hmore]
  | some parent =>
    obtain ⟨hsegment, hnested⟩ := h.parent parent (hparent ▸ rfl)
    obtain ⟨inner, hinner⟩ := Option.isSome_iff_exists.mp hnested
    obtain ⟨more', rfl⟩ := (literal_of_mem hd).2.2 inner (hinner ▸ rfl)
    refine (beforeSlash_eq_some_iff hsegment.1 hsegment.2).mpr
      ⟨more' ++ (groups.entity ++ groups.resource), ?_⟩
    simp [hinner]

/-- The fan-out concerns the entity that the path patterns find exactly if no collection diverts the
search. -/
theorem fan_out_target_iff {path : Str} {info : EntityPathInfo}
    (hparse : parseEntityPath path = some info) (hresource : info.resourcePath ≠ []) :
    extractEntityIdForFanOut path = some info.entityId ↔ Undiverted path info := by
  obtain ⟨d, hd, groups, hmatch, rfl⟩ : ∃ d ∈ getPatterns, ∃ groups,
      d.regexMatch path = some groups ∧ d.info groups = info := by
    rw [parseEntityPath] at hparse
    split at hparse
    · cases hparse
    · obtain ⟨d, hd, hmap⟩ := List.exists_of_findSome?_eq_some hparse
      obtain ⟨groups, hmatch, hinfo⟩ := Option.map_eq_some_iff.mp hmap
      exact ⟨d, hd, groups, hmatch, hinfo⟩
  have hreads := reads_of_regexMatch hmatch
  obtain ⟨htype, hliteral, -⟩ := literal_of_mem hd
  have hfirst := beforeSlash_groups hd hreads
  have hpath := hreads.path
  generalize groups.parent.elim [] (· ++ d.nested.getD []) ++
    (groups.entity ++ groups.resource) = tail at hfirst hpath
  have hpath : path = str "/api/v1/" ++ getTypeSegment d.type false ++ 47 :: tail := by
    rw [hpath, hliteral]
    simp
  have hbehind : behindCollection path d.type = 47 :: tail := by
    rw [hpath, behindCollection, List.drop_left]
  have hinfo : (d.info groups).type = d.type ∧ (d.info groups).entityId = groups.entity ∧
      (d.info groups).resourcePath = groups.resource ∧
      (((d.info groups).isNested = true → (d.info groups).parentId = groups.entity) ↔
        groups.parent.getD groups.entity = groups.entity) := by
    unfold PatternDef.info
    split
    · next hparent => simp [hparent]
    · next hparent => simp [hparent]
  rw [hinfo.2.2.1] at hresource
  rw [extractEntityIdForFanOut, hpath, findSome?_afterFirst tail htype, Option.bind_some, ← hpath,
    Undiverted, hinfo.1, diversion, hbehind, hinfo.2.1]
  cases (searchedBefore d.type).findSome? (afterFirst · (47 :: tail)) with
  | some rest =>
    rw [Option.getD_some, beforeSlash_eq_some_iff hreads.entity.1 hreads.entity.2]
    simp
  | none =>
    rw [Option.getD_none, hfirst hresource, Option.some_inj, ← hinfo.2.2.2]
    simp

theorem fan_out_target_iff_for_nav :
    ∃ info, parseEntityPath (str "/api/v1/apps/nav/data") = some info ∧
      (extractEntityIdForFanOut (str "/api/v1/apps/nav/data") = some info.entityId ↔
        Undiverted (str "/api/v1/apps/nav/data") info) ∧
      Undiverted (str "/api/v1/apps/nav/data") info := by
  have hparse : parseEntityPath (str "/api/v1/apps/nav/data") =
      some ⟨.app, str "nav", str "/data", str "/apps/nav", [], false⟩ := by decide
  exact ⟨_, hparse, fan_out_target_iff hparse (by decide), by decide⟩

/-- An app may be called like a collection: the fan-out for its data then has no target at all. A
topic may contain such a segment: the fan-out then concerns another entity. -/
theorem fan_out_diverted :
    (parseEntityPath (str "/api/v1/apps/components/data")).map
        (fun info => (info.entityId, info.resourcePath)) = some (str "components", str "/data") ∧
      extractEntityIdForFanOut (str "/api/v1/apps/components/data") = none ∧
      (parseEntityPath (str "/api/v1/apps/nav/data/components/x/y")).map (·.entityId) =
        some (str "nav") ∧
      extractEntityIdForFanOut (str "/api/v1/apps/nav/data/components/x/y") = some (str "x") := by
  decide

end Medkit.Gateway
