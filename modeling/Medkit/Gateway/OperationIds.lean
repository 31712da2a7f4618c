import Medkit.Gateway.Entities

/-! The ids under which operations are listed and found again. An id has an item half, the short
name or the ROS path, and in front of it a member half where several operations share a name. -/
namespace Medkit.Gateway.OperationIds

open Lib

structure AggregatedOperations where
  services : List ServiceInfo := []
  actions : List ActionInfo := []
  ownerByPath : OMap Str Str := ∅
  isAggregated : Bool := false

structure Operation where
  name : Str
  fullPath : Str
deriving DecidableEq

namespace AggregatedOperations

variable (ops : AggregatedOperations)

def operations : List Operation :=
  ops.services.map (fun svc => ⟨svc.name, svc.fullPath⟩) ++
    ops.actions.map (fun act => ⟨act.name, act.fullPath⟩)

def member (fullPath : Str) : Str := ops.ownerByPath[fullPath]?.getD []

def shortNameCount (name : Str) : Nat := ops.operations.countP fun op => op.name = name

def providerCount (owner name : Str) : Nat :=
  ops.operations.countP fun op => ops.member op.fullPath = owner ∧ op.name = name

def addressedByPath (fullPath : Str) : Bool :=
  ops.operations.any fun op =>
    op.fullPath = fullPath ∧ 2 ≤ ops.providerCount (ops.member op.fullPath) op.name

end AggregatedOperations

def pathItemId : Str → Str
  | 47 :: rest => rest
  | fullPath => fullPath

def makeMemberQualifiedId (memberId itemId : Str) : Str := memberId ++ str ":" ++ itemId

section Ids

variable (ops : AggregatedOperations)

def operationItemHalf (op : Operation) : Str :=
  if ops.addressedByPath op.fullPath then pathItemId op.fullPath else op.name

def qualified (op : Operation) : Prop :=
  2 ≤ ops.shortNameCount op.name ∧ ops.member op.fullPath ≠ []
deriving Decidable

def idOf (op : Operation) : Str :=
  if qualified ops op then
    makeMemberQualifiedId (ops.member op.fullPath) (operationItemHalf ops op)
  else operationItemHalf ops op

def operationItemIds : List Str := ops.operations.map (idOf ops)

/-! ## Resolving an id -/

structure MemberQualifiedId where
  memberId : Str := []
  itemId : Str
  hasMember : Bool := false

def parseMemberQualifiedId (id : Str) (memberHalfPossible : Bool) : MemberQualifiedId :=
  if 58 ∈ id ∧ memberHalfPossible then
    { memberId := id.takeWhile (· ≠ 58)
      itemId := (id.dropWhile (· ≠ 58)).tail
      hasMember := true }
  else { itemId := id }

def operationItemIdNames (op : Operation) (itemId : Str) : Bool :=
  itemId = op.name || itemId = pathItemId op.fullPath

structure OperationMatch where
  fullPath : Str
  memberId : Str
deriving DecidableEq

def named (parsed : MemberQualifiedId) (op : Operation) : Bool :=
  operationItemIdNames op parsed.itemId &&
    !(parsed.hasMember && ops.member op.fullPath ≠ parsed.memberId)

def matchingOperations (parsed : MemberQualifiedId) : List OperationMatch :=
  (ops.operations.filter (named ops parsed)).map fun op => ⟨op.fullPath, ops.member op.fullPath⟩

def resolved (op : Operation) : List OperationMatch :=
  matchingOperations ops (parseMemberQualifiedId (idOf ops op) ops.isAggregated)

end Ids

def AggregatedOperations.Named (ops : AggregatedOperations) : Prop :=
  ∀ op ∈ ops.operations, op.name = lastSegment op.fullPath
deriving Decidable

/-- When the listed id of an operation finds it again. A name that nothing else has needs no colon
to be split at. A name shared by operations without an owner needs a path of more than one segment,
and no owned operation with the same path id. A name shared by owned operations needs members to
split off, and a path of more than one segment if the owner has the name twice. -/
def Addressable (ops : AggregatedOperations) (op : Operation) : Prop :=
  if ops.shortNameCount op.name < 2 then ops.isAggregated = true → 58 ∉ op.name
  else if ops.member op.fullPath = [] then
    2 ≤ ops.providerCount [] op.name ∧ 47 ∈ pathItemId op.fullPath ∧
      (ops.isAggregated = true → 58 ∉ pathItemId op.fullPath) ∧
      ∀ other ∈ ops.operations, pathItemId other.fullPath = pathItemId op.fullPath →
        ops.member other.fullPath = []
  else
    ops.isAggregated = true ∧ 58 ∉ ops.member op.fullPath ∧
      (ops.providerCount (ops.member op.fullPath) op.name < 2 ∨ 47 ∈ pathItemId op.fullPath)

/-! ## Names and paths -/

section Paths

theorem ne_append_cons (front back : Str) (b : Byte) : back ≠ front ++ b :: back := by
  intro heq
  have hlength := congrArg List.length heq
  rw [List.length_append, List.length_cons] at hlength
  omega

theorem not_mem_lastSegment (path : Str) : 47 ∉ lastSegment path := by
  intro hmem
  simpa using List.mem_takeWhile_imp (List.mem_reverse.mp hmem)

theorem lastSegment_append (front : Str) {back : Str} (hback : 47 ∉ back) :
    lastSegment (front ++ back) = lastSegment front ++ back := by
  have hkept : ∀ b ∈ back.reverse, decide (b ≠ 47) = true := by
    intro b hb
    simp only [decide_eq_true_eq]
    rintro rfl
    exact hback (List.mem_reverse.mp hb)
  rw [lastSegment, List.reverse_append, List.takeWhile_append_of_pos hkept, List.reverse_append,
    List.reverse_reverse]
  rfl

theorem lastSegment_of_not_mem {path : Str} (h : 47 ∉ path) : lastSegment path = path :=
  lastSegment_append [] h

theorem lastSegment_pathItemId (path : Str) : lastSegment (pathItemId path) = lastSegment path := by
  unfold pathItemId
  split
  · rename_i rest
    rw [lastSegment, lastSegment, List.reverse_cons, List.takeWhile_append]
    split
    · rename_i hall
      rw [(List.takeWhile_prefix _).eq_of_length hall]
      simp
    · rfl
  · rfl

theorem length_lastSegment_le (path : Str) : (lastSegment path).length ≤ path.length := by
  rw [lastSegment, List.length_reverse, ← @List.length_reverse _ path]
  exact (List.takeWhile_sublist _).length_le

end Paths

section Resolving

variable {ops : AggregatedOperations} {op : Operation}

section Named

variable (hnamed : ops.Named) (hop : op ∈ ops.operations)

include hnamed hop

theorem lastSegment_eq_name : lastSegment (pathItemId op.fullPath) = op.name := by
  rw [lastSegment_pathItemId, hnamed op hop]

theorem not_mem_name : 47 ∉ op.name := by
  rw [hnamed op hop]
  exact not_mem_lastSegment _

theorem pathItemId_eq_name (hslash : 47 ∉ pathItemId op.fullPath) :
    pathItemId op.fullPath = op.name := by
  rw [← lastSegment_eq_name hnamed hop, lastSegment_of_not_mem hslash]

theorem name_eq_of_pathItemId_eq {other : Operation} (hother : other ∈ ops.operations)
    (hsame : pathItemId other.fullPath = pathItemId op.fullPath) : other.name = op.name := by
  rw [← lastSegment_eq_name hnamed hother, hsame, lastSegment_eq_name hnamed hop]

theorem names_iff_of_not_mem {itemId : Str} (hitem : 47 ∉ itemId) :
    operationItemIdNames op itemId = true ↔ op.name = itemId := by
  simp only [operationItemIdNames, Bool.or_eq_true, decide_eq_true_eq]
  constructor
  · rintro (h | h)
    · exact h.symm
    · rw [← lastSegment_eq_name hnamed hop, ← h, lastSegment_of_not_mem hitem]
  · exact fun h => .inl h.symm

theorem names_iff_of_mem {itemId : Str} (hitem : 47 ∈ itemId) :
    operationItemIdNames op itemId = true ↔ pathItemId op.fullPath = itemId := by
  simp only [operationItemIdNames, Bool.or_eq_true, decide_eq_true_eq]
  constructor
  · rintro (h | h)
    · exact absurd (h ▸ hitem) (not_mem_name hnamed hop)
    · exact h.symm
  · exact fun h => .inr h.symm

theorem pathItemId_ne_colon_name (front : Str) :
    pathItemId op.fullPath ≠ front ++ 58 :: op.name := by
  intro heq
  have hname : 47 ∉ 58 :: op.name := by simpa using not_mem_name hnamed hop
  have hlast := lastSegment_eq_name hnamed hop
  rw [heq, lastSegment_append front hname] at hlast
  exact ne_append_cons _ _ _ hlast.symm

theorem length_name_le : op.name.length ≤ (pathItemId op.fullPath).length := by
  rw [← lastSegment_eq_name hnamed hop]
  exact length_lastSegment_le _

theorem not_names_behind_colon {front itemId : Str}
    (h : op.name = front ++ 58 :: itemId ∨ pathItemId op.fullPath = front ++ 58 :: itemId) :
    operationItemIdNames op itemId = false := by
  have hle := length_name_le hnamed hop
  rw [Bool.eq_false_iff]
  simp only [operationItemIdNames, ne_eq, Bool.or_eq_true, decide_eq_true_eq]
  rintro (rfl | rfl)
  · exact h.elim (ne_append_cons _ _ _) (pathItemId_ne_colon_name hnamed hop front)
  · rcases h with h | h
    · rw [h, List.length_append, List.length_cons] at hle
      omega
    · exact ne_append_cons _ _ _ h

theorem not_names_qualified {front half : Str} (h : half = op.name ∨ half = pathItemId op.fullPath) :
    operationItemIdNames op (front ++ 58 :: half) = false := by
  have hle := length_name_le hnamed hop
  rw [Bool.eq_false_iff]
  simp only [operationItemIdNames, ne_eq, Bool.or_eq_true, decide_eq_true_eq]
  rintro (heq | heq)
  · have hlength := congrArg List.length heq
    rw [List.length_append, List.length_cons] at hlength
    rcases h with rfl | rfl <;> omega
  · rcases h with rfl | rfl
    · exact pathItemId_ne_colon_name hnamed hop front heq.symm
    · exact ne_append_cons _ _ _ heq.symm

theorem addressedByPath_iff : ops.addressedByPath op.fullPath = true ↔
    2 ≤ ops.providerCount (ops.member op.fullPath) op.name := by
  simp only [AggregatedOperations.addressedByPath, List.any_eq_true, decide_eq_true_eq]
  constructor
  · rintro ⟨other, hother, hpath, hcount⟩
    rwa [hnamed other hother, hpath, ← hnamed op hop] at hcount
  · exact fun hcount => ⟨op, hop, rfl, hcount⟩

theorem half_of_lt (h : ops.providerCount (ops.member op.fullPath) op.name < 2) :
    operationItemHalf ops op = op.name :=
  if_neg fun hpath => absurd ((addressedByPath_iff hnamed hop).mp hpath) (by omega)

theorem half_of_le (h : 2 ≤ ops.providerCount (ops.member op.fullPath) op.name) :
    operationItemHalf ops op = pathItemId op.fullPath :=
  if_pos ((addressedByPath_iff hnamed hop).mpr h)

end Named

theorem providerCount_le (owner name : Str) :
    ops.providerCount owner name ≤ ops.shortNameCount name :=
  List.countP_mono_left fun other _ h => by
    simp only [decide_eq_true_eq] at h ⊢
    exact h.2

/-! ## Counting what an id names -/

variable {parsed : MemberQualifiedId}

theorem matching_of_countP (hop : op ∈ ops.operations) (hself : named ops parsed op = true)
    (hone : ops.operations.countP (named ops parsed) = 1) :
    matchingOperations ops parsed = [⟨op.fullPath, ops.member op.fullPath⟩] := by
  rw [List.countP_eq_length_filter] at hone
  obtain ⟨found, hfound⟩ := List.length_eq_one_iff.mp hone
  have hmem : op ∈ ops.operations.filter (named ops parsed) := List.mem_filter.mpr ⟨hop, hself⟩
  rw [hfound, List.mem_singleton] at hmem
  rw [matchingOperations, hfound, hmem]
  rfl

theorem countP_of_matching
    (h : matchingOperations ops parsed = [⟨op.fullPath, ops.member op.fullPath⟩]) :
    ops.operations.countP (named ops parsed) = 1 := by
  have hlength := congrArg List.length h
  rwa [matchingOperations, List.length_map, ← List.countP_eq_length_filter] at hlength

theorem named_of_matching (hnamed : ops.Named) (hop : op ∈ ops.operations)
    (h : matchingOperations ops parsed = [⟨op.fullPath, ops.member op.fullPath⟩]) :
    named ops parsed op = true := by
  have hmem : (⟨op.fullPath, ops.member op.fullPath⟩ : OperationMatch) ∈
      matchingOperations ops parsed := h ▸ List.mem_singleton_self _
  obtain ⟨other, hother, heq⟩ := List.mem_map.mp hmem
  obtain ⟨hmem, hother⟩ := List.mem_filter.mp hother
  have hpath : other.fullPath = op.fullPath := congrArg OperationMatch.fullPath heq
  have hname : other.name = op.name := by rw [hnamed other hmem, hpath, hnamed op hop]
  have hsame : other = op := by
    cases other
    cases op
    exact congrArg₂ Operation.mk hname hpath
  exact hsame ▸ hother

theorem matching_of_ids (hop : op ∈ ops.operations) (hself : named ops parsed op = true)
    (hunique : (operationItemIds ops).count (idOf ops op) = 1)
    (hids : ∀ other ∈ ops.operations, named ops parsed other = true → idOf ops other = idOf ops op) :
    matchingOperations ops parsed = [⟨op.fullPath, ops.member op.fullPath⟩] := by
  refine matching_of_countP hop hself (Nat.le_antisymm ?_ ?_)
  · rw [operationItemIds, List.count_eq_countP, List.countP_map] at hunique
    rw [← hunique]
    refine List.countP_mono_left fun other hother h => ?_
    simpa using hids other hother h
  · exact List.countP_pos_iff.mpr ⟨op, hop, hself⟩

/-! ## The id of an operation -/

theorem parse_of_not_mem {id : Str} {possible : Bool} (h : possible = true → 58 ∉ id) :
    parseMemberQualifiedId id possible = { itemId := id } :=
  if_neg fun hsplit => h hsplit.2 hsplit.1

theorem parse_of_append {memberId : Str} (itemId : Str) (h : 58 ∉ memberId) :
    parseMemberQualifiedId (memberId ++ 58 :: itemId) true =
      { memberId, itemId, hasMember := true } := by
  have htake : (memberId ++ 58 :: itemId).takeWhile (· ≠ 58) = memberId :=
    takeWhile_append_cons (· ≠ 58) itemId (fun b hb heq => h (heq ▸ hb)) (by simp)
  have hdrop := List.takeWhile_append_dropWhile (p := (· ≠ 58)) (l := memberId ++ 58 :: itemId)
  rw [htake] at hdrop
  rw [parseMemberQualifiedId, if_pos ⟨by simp, rfl⟩, htake, List.append_cancel_left hdrop]
  rfl

theorem named_no_member {itemId : Str} (other : Operation) :
    named ops { itemId } other = operationItemIdNames other itemId := by
  simp [named]

theorem named_member {memberId itemId : Str} (other : Operation) :
    named ops { memberId, itemId, hasMember := true } other = true ↔
      operationItemIdNames other itemId = true ∧ ops.member other.fullPath = memberId := by
  simp [named]

theorem not_named_of_split (hnamed : ops.Named) (hop : op ∈ ops.operations) {id : Str}
    (hcolon : 58 ∈ id) (hid : id = op.name ∨ id = pathItemId op.fullPath) :
    named ops (parseMemberQualifiedId id true) op = false := by
  obtain ⟨front, back, rfl, hfront⟩ := List.eq_append_cons_of_mem hcolon
  rw [parse_of_append back hfront, Bool.eq_false_iff, ne_eq, named_member]
  rintro ⟨hnames, -⟩
  rw [not_names_behind_colon hnamed hop (hid.imp Eq.symm Eq.symm)] at hnames
  cases hnames

theorem idOf_of_qualified (h : qualified ops op) :
    idOf ops op = ops.member op.fullPath ++ 58 :: operationItemHalf ops op := by
  rw [idOf, if_pos h, makeMemberQualifiedId, List.append_assoc]
  rfl

theorem half_eq (ops : AggregatedOperations) (op : Operation) :
    operationItemHalf ops op = op.name ∨ operationItemHalf ops op = pathItemId op.fullPath := by
  unfold operationItemHalf
  split
  · exact .inr rfl
  · exact .inl rfl

variable (hnamed : ops.Named) (hop : op ∈ ops.operations)

include hnamed hop

theorem not_split_of_resolved {id : Str} (hid : id = op.name ∨ id = pathItemId op.fullPath)
    (h : matchingOperations ops (parseMemberQualifiedId id ops.isAggregated) =
      [⟨op.fullPath, ops.member op.fullPath⟩]) : ops.isAggregated = true → 58 ∉ id := by
  intro haggregated hcolon
  rw [haggregated] at h
  have hself := named_of_matching hnamed hop h
  rw [not_named_of_split hnamed hop hcolon hid] at hself
  cases hself

theorem countP_name :
    ops.operations.countP (named ops { itemId := op.name }) = ops.shortNameCount op.name := by
  refine List.countP_congr fun other hother => ?_
  rw [named_no_member, names_iff_of_not_mem hnamed hother (not_mem_name hnamed hop)]
  simp

theorem countP_member (memberId : Str) :
    ops.operations.countP (named ops { memberId, itemId := op.name, hasMember := true }) =
      ops.providerCount memberId op.name := by
  refine List.countP_congr fun other hother => ?_
  rw [named_member, names_iff_of_not_mem hnamed hother (not_mem_name hnamed hop), and_comm]
  simp

theorem resolved_iff_alone (hname : ops.shortNameCount op.name < 2) :
    resolved ops op = [⟨op.fullPath, ops.member op.fullPath⟩] ↔
      (ops.isAggregated = true → 58 ∉ op.name) := by
  have hid : idOf ops op = op.name := by
    rw [idOf, if_neg fun h => absurd h.1 (by omega), half_of_lt hnamed hop]
    exact (providerCount_le _ _).trans_lt hname
  rw [resolved, hid]
  refine ⟨not_split_of_resolved hnamed hop (.inl rfl), fun h => ?_⟩
  rw [parse_of_not_mem h]
  have hself : named ops { itemId := op.name } op = true := by
    simp [named_no_member, operationItemIdNames]
  refine matching_of_countP hop hself (Nat.le_antisymm ?_ ?_)
  · rw [countP_name hnamed hop]
    omega
  · exact List.countP_pos_iff.mpr ⟨op, hop, hself⟩

theorem resolved_iff_unowned (hname : ¬ ops.shortNameCount op.name < 2)
    (hmember : ops.member op.fullPath = [])
    (hunique : (operationItemIds ops).count (idOf ops op) = 1) :
    resolved ops op = [⟨op.fullPath, ops.member op.fullPath⟩] ↔
      2 ≤ ops.providerCount [] op.name ∧ 47 ∈ pathItemId op.fullPath ∧
        (ops.isAggregated = true → 58 ∉ pathItemId op.fullPath) ∧
        ∀ other ∈ ops.operations, pathItemId other.fullPath = pathItemId op.fullPath →
          ops.member other.fullPath = [] := by
  have hid : ∀ other, ops.member other.fullPath = [] →
      idOf ops other = operationItemHalf ops other :=
    fun other hother => if_neg fun h => h.2 hother
  -- the short name alone names more than one operation
  have hshort : ∀ itemId, itemId = op.name → ¬ matchingOperations ops { itemId } =
      [⟨op.fullPath, ops.member op.fullPath⟩] := by
    rintro _ rfl h
    have hcount := countP_of_matching h
    rw [countP_name hnamed hop] at hcount
    omega
  constructor
  · intro h
    rw [resolved, hid op hmember] at h
    have hcolon := not_split_of_resolved hnamed hop (half_eq ops op) h
    rw [parse_of_not_mem hcolon] at h
    have hprovider : 2 ≤ ops.providerCount [] op.name := by
      by_contra hlt
      exact hshort _ (half_of_lt hnamed hop (by rw [hmember]; omega)) h
    rw [half_of_le hnamed hop (by rw [hmember]; exact hprovider)] at h hcolon
    have hslash : 47 ∈ pathItemId op.fullPath := by
      by_contra hslash
      exact hshort _ (pathItemId_eq_name hnamed hop hslash) h
    refine ⟨hprovider, hslash, hcolon, fun other hother hsame => ?_⟩
    have hmatch : (⟨other.fullPath, ops.member other.fullPath⟩ : OperationMatch) ∈
        matchingOperations ops { itemId := pathItemId op.fullPath } := by
      refine List.mem_map_of_mem (List.mem_filter.mpr ⟨hother, ?_⟩)
      rw [named_no_member, names_iff_of_mem hnamed hother hslash]
      exact hsame
    rw [h, List.mem_singleton] at hmatch
    exact (congrArg OperationMatch.memberId hmatch).trans hmember
  · rintro ⟨hprovider, hslash, hcolon, hothers⟩
    have hhalf : operationItemHalf ops op = pathItemId op.fullPath :=
      half_of_le hnamed hop (by rw [hmember]; exact hprovider)
    rw [resolved, hid op hmember, hhalf, parse_of_not_mem hcolon]
    refine matching_of_ids hop ?_ hunique fun other hother hsame => ?_
    · rw [named_no_member, names_iff_of_mem hnamed hop hslash]
    · rw [named_no_member, names_iff_of_mem hnamed hother hslash] at hsame
      have hmember' := hothers other hother hsame
      have hname' := name_eq_of_pathItemId_eq hnamed hop hother hsame
      rw [hid op hmember, hid other hmember', hhalf, half_of_le hnamed hother, hsame]
      rw [hmember', hname']
      exact hprovider

theorem half_eq_of_names
    (hcase : ops.providerCount (ops.member op.fullPath) op.name < 2 ∨ 47 ∈ pathItemId op.fullPath)
    {other : Operation} (hother : other ∈ ops.operations)
    (hmember : ops.member other.fullPath = ops.member op.fullPath)
    (hnames : operationItemIdNames other (operationItemHalf ops op) = true) :
    other.name = op.name ∧ operationItemHalf ops other = operationItemHalf ops op := by
  by_cases hlt : ops.providerCount (ops.member op.fullPath) op.name < 2
  · rw [half_of_lt hnamed hop hlt,
      names_iff_of_not_mem hnamed hother (not_mem_name hnamed hop)] at hnames
    refine ⟨hnames, ?_⟩
    rw [half_of_lt hnamed hop hlt, half_of_lt hnamed hother, hnames]
    rwa [hmember, hnames]
  · have hslash := hcase.resolve_left hlt
    have hle := Nat.not_lt.mp hlt
    rw [half_of_le hnamed hop hle, names_iff_of_mem hnamed hother hslash] at hnames
    have hname := name_eq_of_pathItemId_eq hnamed hop hother hnames
    refine ⟨hname, ?_⟩
    rw [half_of_le hnamed hop hle, half_of_le hnamed hother, hnames]
    rwa [hmember, hname]

theorem resolved_iff_owned (hname : ¬ ops.shortNameCount op.name < 2)
    (hmember : ops.member op.fullPath ≠ [])
    (hunique : (operationItemIds ops).count (idOf ops op) = 1) :
    resolved ops op = [⟨op.fullPath, ops.member op.fullPath⟩] ↔
      ops.isAggregated = true ∧ 58 ∉ ops.member op.fullPath ∧
        (ops.providerCount (ops.member op.fullPath) op.name < 2 ∨ 47 ∈ pathItemId op.fullPath) := by
  rw [resolved, idOf_of_qualified ⟨by omega, hmember⟩]
  constructor
  · intro h
    have hself := named_of_matching hnamed hop h
    have haggregated : ops.isAggregated = true := by
      by_contra hplain
      rw [parse_of_not_mem (fun h => absurd h hplain), named_no_member,
        not_names_qualified hnamed hop (half_eq ops op)] at hself
      cases hself
    rw [haggregated] at h hself
    have hcolon : 58 ∉ ops.member op.fullPath := by
      intro hcolon
      obtain ⟨front, back, hsplit, hfront⟩ := List.eq_append_cons_of_mem hcolon
      rw [hsplit, List.append_assoc, List.cons_append, parse_of_append _ hfront, named_member,
        hsplit] at hself
      have hlength := congrArg List.length hself.2
      rw [List.length_append, List.length_cons] at hlength
      omega
    refine ⟨haggregated, hcolon, ?_⟩
    by_contra hneither
    rw [not_or, Nat.not_lt] at hneither
    rw [parse_of_append _ hcolon, half_of_le hnamed hop hneither.1,
      pathItemId_eq_name hnamed hop hneither.2] at h
    have hcount := countP_of_matching h
    rw [countP_member hnamed hop] at hcount
    omega
  · rintro ⟨haggregated, hcolon, hcase⟩
    rw [haggregated, parse_of_append _ hcolon]
    refine matching_of_ids hop (named_member op |>.mpr ⟨?_, rfl⟩) hunique fun other hother h => ?_
    · rcases half_eq ops op with hhalf | hhalf <;> simp [operationItemIdNames, hhalf]
    · obtain ⟨hnames, hmember'⟩ := (named_member other).mp h
      obtain ⟨hname', hhalf'⟩ := half_eq_of_names hnamed hop hcase hother hmember' hnames
      rw [idOf_of_qualified ⟨by omega, hmember⟩, idOf_of_qualified, hmember', hhalf']
      rw [qualified, hname', hmember']
      exact ⟨by omega, hmember⟩

end Resolving

/-- An id that one operation has is resolved to that operation exactly if the operation is
addressable. -/
theorem resolved_iff_addressable {ops : AggregatedOperations} {op : Operation}
    (hnamed : ops.Named) (hop : op ∈ ops.operations)
    (hunique : (operationItemIds ops).count (idOf ops op) = 1) :
    resolved ops op = [⟨op.fullPath, ops.member op.fullPath⟩] ↔ Addressable ops op := by
  unfold Addressable
  split
  · next hname => exact resolved_iff_alone hnamed hop hname
  · rename_i hname
    split
    · next hmember => exact resolved_iff_unowned hnamed hop hname hmember hunique
    · next hmember => exact resolved_iff_owned hnamed hop hname hmember hunique

def servicesAt (paths : List Str) : AggregatedOperations :=
  { services := paths.map fun path => { name := lastSegment path, fullPath := path, type := [] } }

theorem resolved_iff_addressable_for_calibrate :
    let ops := servicesAt [str "/left/calibrate", str "/right/calibrate"]
    let op : Operation := ⟨str "calibrate", str "/left/calibrate"⟩
    (resolved ops op = [⟨str "/left/calibrate", []⟩] ↔ Addressable ops op) ∧
      idOf ops op = str "left/calibrate" :=
  ⟨resolved_iff_addressable (by decide) (by decide) (by decide), by decide⟩

/-- A service in the root namespace has its short name as path id: it is listed under an id of its
own, which then names the other service as well. -/
theorem root_service_ambiguous :
    let ops := servicesAt [str "/calibrate", str "/robot/calibrate"]
    operationItemIds ops = [str "calibrate", str "robot/calibrate"] ∧
      resolved ops ⟨str "calibrate", str "/calibrate"⟩ =
        [⟨str "/calibrate", []⟩, ⟨str "/robot/calibrate", []⟩] := by
  decide

end Medkit.Gateway.OperationIds
