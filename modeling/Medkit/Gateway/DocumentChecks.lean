import Medkit.Gateway.PeerClient
import Medkit.Lib.Worklist

/-! Which schemas of an OpenAPI document are referenced. Both checks follow the references with a
worklist, through components that may refer to each other in any way. -/
namespace Medkit.Gateway.DocumentChecks

open Lib Relation
open PeerClient (Json)

def kRefPrefix : Str := str "#/components/"

def refText? (key : Str) (value : Json) : Option Str :=
  match value with
  | .string ref => if key = str "$ref" then some ref else none
  | _ => none

mutual
def collectRefs : Json → List Str
  | .object fields => collectFields fields
  | .array items => collectItems items
  | _ => []

def collectFields : List (Str × Json) → List Str
  | [] => []
  | (key, value) :: fields =>
      (match refText? key value with
        | some ref => if kRefPrefix <+: ref then [ref] else []
        | none => collectRefs value) ++ collectFields fields

def collectItems : List Json → List Str
  | [] => []
  | item :: items => collectRefs item ++ collectItems items
end

def splitRef (ref : Str) : Option (Str × Str) :=
  let tail := ref.drop kRefPrefix.length
  let section_ := tail.takeWhile (· ≠ 47)
  match tail.dropWhile (· ≠ 47) with
  | [] => none
  | _ :: name => if section_ = [] ∨ name = [] then none else some (section_, name)

def component? (components : Json) (ref : Str × Str) : Option Json :=
  (components.find? ref.1).bind fun sectionObj =>
    if sectionObj.isObject then sectionObj.find? ref.2 else none

def reachTurn (components : Json) (ref : Str) (reached : OSet Str) : OSet Str × List Str :=
  match splitRef ref with
  | none => (reached, [])
  | some (section_, name) =>
      (if section_ = str "schemas" then reached.insert name else reached,
        match component? components (section_, name) with
        | none => []
        | some value => collectRefs value)

def pathRefs (document : Json) : List Str :=
  match document.find? (str "paths") with
  | none => []
  | some paths => collectRefs paths

def unreachableSchemas (fuel : Nat) (document : Json) : Option (OSet Str) :=
  match document.find? (str "components") with
  | none => some ∅
  | some components =>
      match components.find? (str "schemas") with
      | some (.object schemas) =>
          match worklist (reachTurn components) fuel (pathRefs document).reverse ∅ ∅ with
          | none => none
          | some reached =>
              some (.ofList ((schemas.map Prod.fst).filter fun name => decide (name ∉ reached)))
      | _ => some ∅

abbrev Pool := OMap Str Json

def poolTurn (pool : Pool) (ref : Str) (reached : Pool) : Pool × List Str :=
  match splitRef ref with
  | none => (reached, [])
  | some (section_, name) =>
      if section_ ≠ str "schemas" then (reached, [])
      else
        match pool[name]? with
        | none => (reached, [])
        | some schema => (reached.insertIfNew name schema, collectRefs schema)

def referencedSchemas (fuel : Nat) (subtree : Json) (pool : Pool) : Option Pool :=
  worklist (poolTurn pool) fuel (collectRefs subtree).reverse ∅ ∅

/-! ## References -/

inductive HasRef : Json → Str → Prop
  | here {fields : List (Str × Json)} {text : Str} :
      (str "$ref", .string text) ∈ fields → HasRef (.object fields) text
  | field {fields : List (Str × Json)} {key text : Str} {value : Json} :
      (key, value) ∈ fields → HasRef value text → HasRef (.object fields) text
  | item {items : List Json} {value : Json} {text : Str} :
      value ∈ items → HasRef value text → HasRef (.array items) text

variable {text : Str} {value : Json}

theorem refText?_eq_some {key : Str} :
    refText? key value = some text ↔ key = str "$ref" ∧ value = .string text := by
  unfold refText?
  split
  · simp
  · rename_i hother
    simp only [reduceCtorEq, false_iff, not_and]
    exact fun _ => hother text

theorem hasRef_object {fields : List (Str × Json)} : HasRef (.object fields) text ↔
      ∃ field ∈ fields, refText? field.1 field.2 = some text ∨ HasRef field.2 text := by
  simp only [refText?_eq_some]
  constructor
  · rintro (hfield | ⟨hfield, hvalue⟩)
    · exact ⟨_, hfield, .inl ⟨rfl, rfl⟩⟩
    · exact ⟨_, hfield, .inr hvalue⟩
  · rintro ⟨⟨key, value⟩, hfield, ⟨rfl, rfl⟩ | hvalue⟩
    · exact .here hfield
    · exact .field hfield hvalue

theorem hasRef_array {items : List Json} :
    HasRef (.array items) text ↔ ∃ item ∈ items, HasRef item text := by
  constructor
  · rintro (_ | _ | ⟨hitem, hvalue⟩)
    exact ⟨_, hitem, hvalue⟩
  · rintro ⟨item, hitem, hvalue⟩
    exact .item hitem hvalue

theorem not_hasRef_of_refText? {key ref : Str} (h : refText? key value = some ref) :
    ¬ HasRef value text := by
  obtain ⟨-, rfl⟩ := refText?_eq_some.mp h
  intro href
  cases href

theorem mem_collectRefs (text : Str) (value : Json) :
    text ∈ collectRefs value ↔ HasRef value text ∧ kRefPrefix <+: text := by
  refine (@collectRefs.mutual_induct
    (fun value => text ∈ collectRefs value ↔ HasRef value text ∧ kRefPrefix <+: text)
    (fun items => text ∈ collectItems items ↔ HasRef (.array items) text ∧ kRefPrefix <+: text)
    (fun fields => text ∈ collectFields fields ↔
      HasRef (.object fields) text ∧ kRefPrefix <+: text)
    ?_ ?_ ?_ ?_ ?_ ?_ ?_).1 value
  · intro fields ih
    rwa [collectRefs]
  · intro items ih
    rwa [collectRefs]
  · intro value hobject harray
    rw [collectRefs]
    · refine iff_of_false List.not_mem_nil ?_
      rintro ⟨_ | _ | _, -⟩
      · exact hobject _ rfl
      · exact hobject _ rfl
      · exact harray _ rfl
    · exact hobject
    · exact harray
  · simp [collectItems, hasRef_array]
  · intro item items hitem hitems
    rw [collectItems, List.mem_append, hitem, hitems]
    simp only [hasRef_array, List.exists_mem_cons_iff, or_and_right]
  · simp [collectFields, hasRef_object]
  · intro key value fields hvalue hfields
    rw [collectFields, List.mem_append, hfields]
    simp only [hasRef_object, List.exists_mem_cons_iff, or_and_right]
    refine or_congr_left ?_
    cases hkey : refText? key value with
    | none => simpa using hvalue
    | some ref =>
      simp only [not_hasRef_of_refText? hkey, Option.some.injEq]
      split
      · grind
      · grind

def componentRef (ref : Str × Str) : Str := kRefPrefix ++ (ref.1 ++ 47 :: ref.2)

def RefersTo (value : Json) (ref : Str × Str) : Prop :=
  (ref.1 ≠ [] ∧ 47 ∉ ref.1 ∧ ref.2 ≠ []) ∧ HasRef value (componentRef ref)

theorem splitRef_eq_some {ref : Str × Str} : splitRef text = some ref ↔
      text.drop kRefPrefix.length = ref.1 ++ 47 :: ref.2 ∧
        ref.1 ≠ [] ∧ 47 ∉ ref.1 ∧ ref.2 ≠ [] := by
  obtain ⟨section_, name⟩ := ref
  simp only [splitRef]
  generalize text.drop kRefPrefix.length = tail
  constructor
  · intro h
    split at h
    · cases h
    · rename_i slash name' hdrop
      have hslash : slash = 47 := eq_of_mem_head?_dropWhile (by rw [hdrop]; rfl)
      rw [hslash] at hdrop
      have happend : tail = tail.takeWhile (· ≠ 47) ++ 47 :: name' := by
        rw [← hdrop, List.takeWhile_append_dropWhile]
      split at h
      · cases h
      · rename_i hne
        cases h
        exact ⟨happend, (not_or.mp hne).1, not_mem_takeWhile_ne 47 tail, (not_or.mp hne).2⟩
  · rintro ⟨rfl, hsection, hslash, hname⟩
    have hall : ∀ c ∈ section_, c ≠ 47 := by
      rintro c hc rfl
      exact hslash hc
    have htake := takeWhile_append_cons (· ≠ 47) name hall (c := 47) (by simp)
    have hdrop : (section_ ++ 47 :: name).dropWhile (· ≠ 47) = 47 :: name := by
      rw [List.dropWhile_append_of_pos (by simpa using hall)]
      simp
    rw [htake, hdrop]
    simp [hsection, hname]

theorem exists_collected {ref : Str × Str} :
    (∃ text ∈ collectRefs value, splitRef text = some ref) ↔ RefersTo value ref := by
  simp only [mem_collectRefs, splitRef_eq_some]
  constructor
  · rintro ⟨text, ⟨href, tail, rfl⟩, htail, hwf⟩
    rw [List.drop_left] at htail
    exact ⟨hwf, by rwa [componentRef, ← htail]⟩
  · rintro ⟨hwf, href⟩
    exact ⟨componentRef ref, ⟨href, List.prefix_append _ _⟩, List.drop_left, hwf⟩

/-! ## Chains of references -/

/-- What a chain of references from a value arrives at; `resolve` finds the components. -/
inductive Chain (resolve : Str × Str → Option Json) (root : Json) : Str × Str → Prop
  | start {ref : Str × Str} : RefersTo root ref → Chain resolve root ref
  | step {ref next : Str × Str} {value : Json} : Chain resolve root ref →
      resolve ref = some value → RefersTo value next → Chain resolve root next

def expand (resolve : Str × Str → Option Json) (text : Str) : List Str :=
  (((splitRef text).bind resolve).map collectRefs).getD []

section Chains

variable {resolve : Str × Str → Option Json} {root : Json}

theorem mem_expand {text found : Str} :
    found ∈ expand resolve text ↔
      ∃ ref value, splitRef text = some ref ∧ resolve ref = some value ∧
        found ∈ collectRefs value := by
  unfold expand
  cases splitRef text with
  | none => simp
  | some ref => cases hvalue : resolve ref <;> simp [hvalue]

theorem chain_iff_reached {ref : Str × Str} :
    Chain resolve root ref ↔ ∃ text, splitRef text = some ref ∧
      Reached (fun a b => b ∈ expand resolve a)
        {text | text ∈ (collectRefs root).reverse} text := by
  constructor
  · intro h
    induction h with
    | start href =>
      obtain ⟨text, hmem, hsplit⟩ := exists_collected.mpr href
      exact ⟨text, hsplit, text, List.mem_reverse.mpr hmem, .refl⟩
    | step _ hvalue href ih =>
      obtain ⟨text, hsplit, hreached⟩ := ih
      obtain ⟨found, hmem, hfound⟩ := exists_collected.mpr href
      exact ⟨found, hfound, hreached.tail (mem_expand.mpr ⟨_, _, hsplit, hvalue, hmem⟩)⟩
  · rintro ⟨text, hsplit, start, hstart, hpath⟩
    induction hpath generalizing ref with
    | refl => exact .start (exists_collected.mp ⟨start, List.mem_reverse.mp hstart, hsplit⟩)
    | tail _ hstep ih =>
      obtain ⟨prev, value, hprev, hvalue, hmem⟩ := mem_expand.mp hstep
      exact .step (ih hprev) hvalue (exists_collected.mp ⟨_, hmem, hsplit⟩)

theorem finite_expand (h : {ref | resolve ref ≠ none}.Finite) :
    {text | expand resolve text ≠ []}.Finite := by
  refine ((List.finite_length_le Byte kRefPrefix.length).image2
    (fun start ref => start ++ (ref.1 ++ 47 :: ref.2)) h).subset ?_
  intro text htext
  obtain ⟨found, hfound⟩ := List.exists_mem_of_ne_nil _ htext
  obtain ⟨ref, value, hsplit, hvalue, -⟩ := mem_expand.mp hfound
  refine ⟨text.take kRefPrefix.length, List.length_take_le _ _, ref, ?_, ?_⟩
  · rw [Set.mem_ofPred_eq, hvalue]
    exact Option.some_ne_none value
  · change _ ++ (ref.1 ++ 47 :: ref.2) = text
    rw [← (splitRef_eq_some.mp hsplit).1, List.take_append_drop]

end Chains

/-! ## Unreachable schemas -/

theorem finite_find? (value : Json) : {key | value.find? key ≠ none}.Finite := by
  cases value with
  | object fields =>
    refine (fields.map Prod.fst).finite_toSet.subset fun key hkey => ?_
    obtain ⟨found, hfound⟩ := Option.ne_none_iff_exists'.mp hkey
    obtain ⟨field, hfield, -⟩ := Option.map_eq_some_iff.mp hfound
    have hfst : field.1 = key := by simpa using List.find?_some hfield
    exact hfst ▸ List.mem_map_of_mem (List.mem_of_find?_eq_some hfield)
  | _ => simp [Json.find?]

variable {document : Json} {pool : Pool} (components : Json)

theorem finite_component? : {ref | component? components ref ≠ none}.Finite := by
  refine ((finite_find? components).biUnion (t := fun section_ =>
    (section_, ·) '' {name | component? components (section_, name) ≠ none}) ?_).subset ?_
  · intro section_ _
    refine Set.Finite.image _ ?_
    cases hsection : components.find? section_ with
    | none => simp [component?, hsection]
    | some sectionObj =>
      refine (finite_find? sectionObj).subset fun name hname => ?_
      simp only [component?, hsection, Option.bind_some, Set.mem_ofPred_eq] at hname ⊢
      split at hname
      · exact hname
      · exact absurd rfl hname
  · rintro ⟨section_, name⟩ href
    refine Set.mem_biUnion (x := section_) ?_ ⟨name, href, rfl⟩
    intro hnone
    simp [component?, hnone] at href

theorem reachTurn_expands (text : Str) (reached : OSet Str) :
    (reachTurn components text reached).2 = expand (component? components) text := by
  unfold reachTurn expand
  cases splitRef text with
  | none => rfl
  | some ref => cases hvalue : component? components ref <;> simp [hvalue]

theorem mem_foldl_reachTurn (order : List Str) (reached : OSet Str) (name : Str) :
    name ∈ order.foldl (fun reached text => (reachTurn components text reached).1) reached ↔
      name ∈ reached ∨ ∃ text ∈ order, splitRef text = some (str "schemas", name) := by
  induction order generalizing reached with
  | nil => simp
  | cons text order ih =>
    have hturn : name ∈ (reachTurn components text reached).1 ↔
        name ∈ reached ∨ splitRef text = some (str "schemas", name) := by
      unfold reachTurn
      cases splitRef text with
      | none => simp
      | some ref =>
        obtain ⟨section_, found⟩ := ref
        by_cases hsection : section_ = str "schemas"
        · simp only [hsection, if_true, OSet.mem_insert_iff, Option.some.injEq,
            Prod.mk.injEq, true_and]
          grind
        · simp [hsection]
    rw [List.foldl_cons, ih, hturn]
    simp only [List.exists_mem_cons_iff, or_assoc]

def documentComponent? (document : Json) (ref : Str × Str) : Option Json :=
  (document.find? (str "components")).bind fun components => component? components ref

def ReachedFromPaths (document : Json) (ref : Str × Str) : Prop :=
  ∃ paths, document.find? (str "paths") = some paths ∧ Chain (documentComponent? document) paths ref

theorem reachedFromPaths_iff {components : Json}
    (hcomponents : document.find? (str "components") = some components) {ref : Str × Str} :
    ReachedFromPaths document ref ↔ ∃ text, splitRef text = some ref ∧
      Reached (fun a b => b ∈ expand (component? components) a)
        {text | text ∈ (pathRefs document).reverse} text := by
  have hresolve : documentComponent? document = component? components := by
    funext ref
    rw [documentComponent?, hcomponents, Option.bind_some]
  rw [ReachedFromPaths, hresolve, pathRefs]
  cases document.find? (str "paths") with
  | none => simp [Reached]
  | some paths => simp [chain_iff_reached]

def HasSchemas (document components : Json) (schemas : List (Str × Json)) : Prop :=
  document.find? (str "components") = some components ∧
    components.find? (str "schemas") = some (.object schemas)

def IsSchemaName (document : Json) (name : Str) : Prop :=
  ∃ components schemas, HasSchemas document components schemas ∧ name ∈ schemas.map Prod.fst

theorem unreachableSchemas_of_schemas {components : Json} {schemas : List (Str × Json)}
    (h : HasSchemas document components schemas) {fuel : Nat} {reached : OSet Str}
    (hrun : worklist (reachTurn components) fuel (pathRefs document).reverse ∅ ∅ = some reached) :
    unreachableSchemas fuel document =
      some (.ofList ((schemas.map Prod.fst).filter fun name => decide (name ∉ reached))) := by
  simp only [unreachableSchemas, h.1, h.2, hrun]

theorem unreachableSchemas_of_none
    (h : ∀ components schemas, ¬ HasSchemas document components schemas) (fuel : Nat) :
    unreachableSchemas fuel document = some ∅ := by
  unfold unreachableSchemas
  split
  · rfl
  · rename_i components hcomponents
    split
    · rename_i schemas hschemas
      exact absurd ⟨hcomponents, hschemas⟩ (h components schemas)
    · rfl

theorem unreachableSchemas_spec (document : Json) :
    ∃ bound, ∀ fuel, bound ≤ fuel → ∃ unreachable,
      unreachableSchemas fuel document = some unreachable ∧
      ∀ name, name ∈ unreachable ↔
        IsSchemaName document name ∧ ¬ ReachedFromPaths document (str "schemas", name) := by
  by_cases hschemas : ∃ components schemas, HasSchemas document components schemas
  · obtain ⟨components, schemas, hschemas⟩ := hschemas
    obtain ⟨bound, hbound⟩ := worklist_spec (reachTurn_expands components)
      (finite_expand (finite_component? components)) (pathRefs document).reverse ∅
    refine ⟨bound, fun fuel hfuel => ?_⟩
    obtain ⟨order, hrun, horder⟩ := hbound fuel hfuel
    refine ⟨_, unreachableSchemas_of_schemas hschemas hrun, fun name => ?_⟩
    have hname : IsSchemaName document name ↔ name ∈ schemas.map Prod.fst := by
      constructor
      · rintro ⟨components', schemas', ⟨hcomponents, hschemas'⟩, hname⟩
        cases hschemas.1.symm.trans hcomponents
        cases hschemas.2.symm.trans hschemas'
        exact hname
      · exact fun hname => ⟨components, schemas, hschemas, hname⟩
    rw [hname, reachedFromPaths_iff hschemas.1, Std.ExtTreeSet.mem_ofList, List.contains_iff_mem,
      List.mem_filter, decide_eq_true_eq, mem_foldl_reachTurn]
    simp only [Std.ExtTreeSet.not_mem_empty, false_or, horder, and_comm]
  · refine ⟨0, fun fuel _ => ⟨∅, ?_, fun name => ?_⟩⟩
    · exact unreachableSchemas_of_none (fun _ _ h => hschemas ⟨_, _, h⟩) fuel
    · refine iff_of_false Std.ExtTreeSet.not_mem_empty ?_
      rintro ⟨⟨components, schemas, h, -⟩, -⟩
      exact hschemas ⟨components, schemas, h⟩

/-! ## Referenced schemas -/

def poolSchema? (pool : Pool) (ref : Str × Str) : Option Json :=
  if ref.1 = str "schemas" then pool[ref.2]? else none

theorem finite_poolSchema? (pool : Pool) : {ref | poolSchema? pool ref ≠ none}.Finite := by
  refine (pool.keys.finite_toSet.image fun name => (str "schemas", name)).subset ?_
  rintro ⟨section_, name⟩ href
  simp only [poolSchema?, Set.mem_ofPred_eq] at href
  split at href
  · rename_i hsection
    refine ⟨name, ?_, by rw [← hsection]⟩
    exact Std.ExtTreeMap.mem_keys.mpr (Std.ExtTreeMap.mem_iff_isSome_getElem?.mpr
      (Option.isSome_iff_ne_none.mpr href))
  · exact absurd rfl href

theorem poolTurn_expands (pool : Pool) (text : Str) (reached : Pool) :
    (poolTurn pool text reached).2 = expand (poolSchema? pool) text := by
  unfold poolTurn expand
  cases splitRef text with
  | none => rfl
  | some ref =>
    by_cases hsection : ref.1 = str "schemas"
    · cases hschema : pool[ref.2]? <;> simp [poolSchema?, hsection, hschema]
    · simp [poolSchema?, hsection]

def SubPool (part pool : Pool) : Prop :=
  ∀ (name : Str) (schema : Json), part[name]? = some schema → pool[name]? = some schema

theorem getElem?_poolTurn {reached : Pool} (hreached : SubPool reached pool) (text name : Str)
    (schema : Json) : (poolTurn pool text reached).1[name]? = some schema ↔
      reached[name]? = some schema ∨
        (splitRef text = some (str "schemas", name) ∧ pool[name]? = some schema) := by
  unfold poolTurn
  cases splitRef text with
  | none => simp
  | some ref =>
    obtain ⟨section_, found⟩ := ref
    by_cases hsection : section_ = str "schemas"
    · have hold := hreached name
      cases hfound : pool[found]? with
      | none => grind
      | some other =>
        simp only [hsection, hfound, ne_eq, not_true_eq_false, if_false,
          Std.ExtTreeMap.getElem?_insertIfNew, Std.LawfulEqOrd.compare_eq_iff_eq,
          Option.some.injEq, Prod.mk.injEq, true_and]
        split
        · grind
        · grind
    · simp [hsection]

theorem getElem?_foldl_poolTurn (order : List Str) {reached : Pool}
    (hreached : SubPool reached pool) (name : Str) (schema : Json) :
    (order.foldl (fun reached text => (poolTurn pool text reached).1) reached)[name]? =
        some schema ↔
      reached[name]? = some schema ∨
        ((∃ text ∈ order, splitRef text = some (str "schemas", name)) ∧
          pool[name]? = some schema) := by
  induction order generalizing reached with
  | nil => simp
  | cons text order ih =>
    have hturn := getElem?_poolTurn hreached text
    have hsub : SubPool (poolTurn pool text reached).1 pool := fun name schema h =>
      ((hturn name schema).mp h).elim (hreached name schema) And.right
    rw [List.foldl_cons, ih hsub, hturn]
    simp only [List.exists_mem_cons_iff, or_and_right, or_assoc]

/-- The part of the pool holds every schema that the subtree or one of its own schemas refers to. -/
structure ClosedPart (subtree : Json) (pool part : Pool) : Prop where
  sub : SubPool part pool
  contains : ∀ name ∈ pool, RefersTo subtree (str "schemas", name) → name ∈ part
  closed : ∀ (name : Str) (schema : Json), part[name]? = some schema →
    ∀ other ∈ pool, RefersTo schema (str "schemas", other) → other ∈ part

theorem mem_of_subPool {part : Pool} (h : SubPool part pool) {name : Str} {schema : Json}
    (hname : name ∈ part) (hschema : pool[name]? = some schema) : part[name]? = some schema := by
  obtain ⟨found, hfound⟩ := Option.isSome_iff_exists.mp
    (Std.ExtTreeMap.mem_iff_isSome_getElem?.mp hname)
  rw [hfound, ← hschema, h name found hfound]

theorem mem_of_getElem? {name : Str} {schema : Json} (h : pool[name]? = some schema) :
    name ∈ pool :=
  Std.ExtTreeMap.mem_iff_isSome_getElem?.mpr (Option.isSome_iff_exists.mpr ⟨schema, h⟩)

theorem ClosedPart.of_chain {subtree : Json} {part : Pool} (h : ClosedPart subtree pool part)
    {ref : Str × Str} (hchain : Chain (poolSchema? pool) subtree ref)
    (hsection : ref.1 = str "schemas") (hpool : ref.2 ∈ pool) : ref.2 ∈ part := by
  induction hchain with
  | @start ref href =>
    obtain ⟨section_, name⟩ := ref
    cases hsection
    exact h.contains name hpool href
  | @step ref next value _ hvalue href ih =>
    obtain ⟨section_, name⟩ := next
    cases hsection
    simp only [poolSchema?] at hvalue
    split at hvalue
    · rename_i hschemas
      have hmem := ih hschemas (mem_of_getElem? hvalue)
      exact h.closed _ value (mem_of_subPool h.sub hmem hvalue) name hpool href
    · cases hvalue

theorem referencedSchemas_spec (subtree : Json) (pool : Pool) :
    ∃ bound, ∀ fuel, bound ≤ fuel → ∃ reached,
      referencedSchemas fuel subtree pool = some reached ∧ ClosedPart subtree pool reached ∧
      ∀ part, ClosedPart subtree pool part → SubPool reached part := by
  obtain ⟨bound, hbound⟩ := worklist_spec (poolTurn_expands pool)
    (finite_expand (finite_poolSchema? pool)) (collectRefs subtree).reverse ∅
  refine ⟨bound, fun fuel hfuel => ?_⟩
  obtain ⟨order, hrun, horder⟩ := hbound fuel hfuel
  have hget : ∀ (name : Str) (schema : Json),
      (order.foldl (fun reached text => (poolTurn pool text reached).1) ∅)[name]? = some schema ↔
        Chain (poolSchema? pool) subtree (str "schemas", name) ∧ pool[name]? = some schema := by
    intro name schema
    rw [getElem?_foldl_poolTurn order (fun _ _ h => by simp at h), chain_iff_reached]
    simp only [Std.ExtTreeMap.getElem?_empty, reduceCtorEq, false_or, horder, and_comm]
  have hmem : ∀ name ∈ pool, Chain (poolSchema? pool) subtree (str "schemas", name) →
      name ∈ order.foldl (fun reached text => (poolTurn pool text reached).1) ∅ := by
    intro name hname hchain
    obtain ⟨schema, hschema⟩ := Option.isSome_iff_exists.mp
      (Std.ExtTreeMap.mem_iff_isSome_getElem?.mp hname)
    exact mem_of_getElem? ((hget name schema).mpr ⟨hchain, hschema⟩)
  refine ⟨_, hrun, ⟨fun name schema h => ((hget name schema).mp h).2, ?_, ?_⟩, ?_⟩
  · exact fun name hname href => hmem name hname (.start href)
  · intro name schema hschema other hother href
    obtain ⟨hchain, hpool⟩ := (hget name schema).mp hschema
    exact hmem other hother (.step hchain (by rwa [poolSchema?, if_pos rfl]) href)
  · intro part hpart name schema hschema
    obtain ⟨hchain, hpool⟩ := (hget name schema).mp hschema
    exact mem_of_subPool hpart.sub (hpart.of_chain hchain rfl (mem_of_getElem? hpool)) hpool

/-- Both checks end. The first returns exactly the schemas that no chain of references from the
paths arrives at, the second the least part of the pool that holds what the subtree refers to and
what its own schemas refer to. -/
theorem schema_checks_exact (document subtree : Json) (pool : Pool) :
    ∃ bound, ∀ fuel, bound ≤ fuel →
      (∃ unreachable, unreachableSchemas fuel document = some unreachable ∧
        ∀ name, name ∈ unreachable ↔
          IsSchemaName document name ∧ ¬ ReachedFromPaths document (str "schemas", name)) ∧
      ∃ reached, referencedSchemas fuel subtree pool = some reached ∧
        ClosedPart subtree pool reached ∧
        ∀ part, ClosedPart subtree pool part → SubPool reached part := by
  obtain ⟨bound, hbound⟩ := unreachableSchemas_spec document
  obtain ⟨bound', hbound'⟩ := referencedSchemas_spec subtree pool
  refine ⟨max bound bound', fun fuel hfuel => ⟨hbound fuel ?_, hbound' fuel ?_⟩⟩
  · exact (le_max_left _ _).trans hfuel
  · exact (le_max_right _ _).trans hfuel

end Medkit.Gateway.DocumentChecks
