import Medkit.Lib.DepthFirst
import Medkit.Opcua.NodeIds

/-! The walk of an OPC UA address space that makes the entries of a node map by itself: a recursion
over the objects with a cap on the depth, a cap on the nodes and a set of the objects met before. -/
namespace Medkit.Opcua.AutoBrowser

open Lib
open DepthFirst (Search Leads Near FirstShort dive diveAll pathsAll)

inductive NodeClass where
  | object
  | variable
deriving DecidableEq

/-- A node is given by the text of its id. -/
structure BrowseChild where
  nodeId : Str
  browseName : Str := []
  browseNameNs : Nat := 1
  displayName : Str := []
  nodeClass : NodeClass

structure AutoBrowseSource where
  browseChildren : Str → List BrowseChild
  readTypeName : Str → Str
  /-- Whether the value can be read. -/
  readInitialValue : Str → Bool
  readWritable : Str → Option Bool

structure AutoBrowseConfig where
  rootNodeIds : List Str
  maxDepth : Int := 8
  maxNodes : Nat := 5000
  namespaceAllow : List Nat := []
  namespaceDeny : List Nat := [0]
  readInitialValues : Bool := true
  inferWritable : Bool := true

def namespaceAllowed (ns : Nat) (config : AutoBrowseConfig) : Bool :=
  if config.namespaceAllow ≠ [] then decide (ns ∈ config.namespaceAllow)
  else decide (ns ∉ config.namespaceDeny)

def opcuaTypes : List (Str × Str) :=
  [(str "Boolean", str "bool"), (str "SByte", str "int"), (str "Byte", str "int"),
    (str "Int16", str "int"), (str "UInt16", str "int"), (str "Int32", str "int"),
    (str "UInt32", str "int"), (str "Int64", str "int"), (str "UInt64", str "int"),
    (str "Float", str "float"), (str "Double", str "float"), (str "String", str "string"),
    (str "DateTime", str "string")]

def mapOpcuaType (name : Str) : Str :=
  ((opcuaTypes.find? fun entry => entry.1 = name).map Prod.snd).getD []

def guardDigit (s : Str) : Str := if s.head?.any (isDigitByte ·) then 95 :: s else s

def sanitizeSegment (s : Str) : Str :=
  if s = [] then str "_unnamed"
  else guardDigit (s.map fun c =>
    if isAlnumByte c then tolower c else if c = 95 ∨ c = 45 then c else 95)

def joinEntityId (segments : List Str) : Str :=
  if segments = [] then str "root"
  else segments.foldl (fun out seg => (if out = [] then out else out ++ [95]) ++
    sanitizeSegment seg) []

def joinDisplayName (segments : List Str) : Str :=
  if segments = [] then str "Root"
  else segments.foldl (fun out seg => (if out = [] then out else out ++ str " / ") ++ seg) []

def toTopicSegment (s : Str) : Str :=
  if s = [] then str "_unnamed"
  else guardDigit (s.map fun c => if isAlnumByte c ∨ c = 95 then c else 95)

def suffixed (candidate : Str) (suffix : Nat) : Str := candidate ++ (95 :: decimal suffix)

theorem exists_free (candidate : Str) (seen : OSet Str) :
    ∃ n, suffixed candidate (n + 2) ∉ seen := by
  by_contra! hall
  have hinj : Function.Injective fun n : Nat => suffixed candidate (n + 2) := by
    intro n k h
    have := decimal_injective (List.cons.inj (List.append_cancel_left h)).2
    omega
  refine (Set.infinite_range_of_injective hinj).mono ?_ (seen.toList.finite_toSet)
  rintro _ ⟨n, rfl⟩
  exact Std.ExtTreeSet.mem_toList.mpr (hall n)

/-- The candidate, or else the candidate with the first numeric suffix from 2 that is free. -/
def uniqueName (candidate : Str) (seen : OSet Str) : Str :=
  if candidate ∉ seen then candidate
  else suffixed candidate (Nat.find (exists_free candidate seen) + 2)

structure DataPoint where
  dataName : Str
  displayName : Str
  dataType : Str
  writable : Bool
  entityId : Str := []
  entityDisplayName : Str := []
  ros2Topic : Str := []

abbrev NodeMapEntry := NodeIds.NodeMapEntry DataPoint

/-- The result so far, the two sets that the walk shares, and the objects it has browsed. -/
structure Walk where
  entries : List NodeMapEntry := []
  nodesVisited : Nat := 0
  nodeCapHit : Bool := false
  depthCapHit : Bool := false
  seenEntityIds : OSet Str := ∅
  visitedNodes : OSet Str := ∅
  browsed : List Str := []

structure Level where
  walk : Walk
  localEntries : List NodeMapEntry := []
  seenDataNames : OSet Str := ∅

namespace BrowseChild

def display (child : BrowseChild) : Str :=
  if child.displayName = [] then child.browseName else child.displayName

def name (child : BrowseChild) : Str :=
  if child.browseName = [] then child.display else child.browseName

end BrowseChild

section Walk

variable (source : AutoBrowseSource) (config : AutoBrowseConfig)

def Supported (child : BrowseChild) : Prop :=
  mapOpcuaType (source.readTypeName child.nodeId) ≠ [] ∧
    (config.readInitialValues = true → source.readInitialValue child.nodeId = true)
deriving Decidable

def addVariable (level : Level) (child : BrowseChild) : Level :=
  if Supported source config child then
    let dataName := uniqueName (sanitizeSegment child.name) level.seenDataNames
    { level with
      localEntries := level.localEntries ++
        [{ nodeIdStr := child.nodeId
           fields :=
             { dataName, displayName := child.display
               dataType := mapOpcuaType (source.readTypeName child.nodeId)
               writable := config.inferWritable && (source.readWritable child.nodeId).getD false } }]
      seenDataNames := level.seenDataNames.insert dataName }
  else level

/-- One child; `descend` is the visit of an object one level deeper. -/
def considerChild (descend : Str → List Str → List Str → Walk → Walk)
    (pathIds pathDisplay : List Str) (level : Level) (child : BrowseChild) : Level :=
  let level := { level with
    walk := { level.walk with nodesVisited := level.walk.nodesVisited + 1 } }
  if namespaceAllowed child.browseNameNs config then
    match child.nodeClass with
    | .object =>
        { level with
          walk := descend child.nodeId (pathIds ++ [child.name]) (pathDisplay ++ [child.display])
            level.walk }
    | .variable => addVariable source config level child
  else level

def considerChildren (descend : Str → List Str → List Str → Walk → Walk)
    (pathIds pathDisplay : List Str) : List BrowseChild → Level → Level
  | [], level => level
  | child :: children, level =>
      if level.walk.nodesVisited ≥ config.maxNodes then
        { level with walk := { level.walk with nodeCapHit := true } }
      else considerChildren descend pathIds pathDisplay children
        (considerChild source config descend pathIds pathDisplay level child)

def topicOf (entityId dataName : Str) : Str :=
  str "/plc/" ++ toTopicSegment entityId ++ str "/" ++ toTopicSegment dataName

/-- The variables of an object become the entries of one entity. -/
def Level.finish (pathIds pathDisplay : List Str) (level : Level) : Walk :=
  if level.localEntries = [] then level.walk
  else
    let entityId := uniqueName (joinEntityId pathIds) level.walk.seenEntityIds
    { level.walk with
      seenEntityIds := level.walk.seenEntityIds.insert entityId
      entries := level.walk.entries ++ level.localEntries.map fun entry =>
        { entry with
          fields :=
            { entry.fields with
              entityId, entityDisplayName := joinDisplayName pathDisplay
              ros2Topic := topicOf entityId entry.fields.dataName } } }

def Walk.mark (walk : Walk) (node : Str) : Walk :=
  { walk with visitedNodes := walk.visitedNodes.insert node }

def Walk.browse (walk : Walk) (node : Str) : Walk :=
  { walk.mark node with browsed := walk.browsed ++ [node] }

/-- The first argument counts the depths that are left, so that it is zero beyond `max_depth`. -/
def visitObject : Nat → Str → List Str → List Str → Walk → Walk
  | 0, node, _, _, walk =>
      if node ∈ walk.visitedNodes then walk
      else { walk.mark node with depthCapHit := true }
  | remaining + 1, node, pathIds, pathDisplay, walk =>
      if node ∈ walk.visitedNodes then walk
      else if walk.nodesVisited ≥ config.maxNodes then
        { walk.mark node with nodeCapHit := true }
      else
        (considerChildren source config (visitObject remaining) pathIds pathDisplay
          (source.browseChildren node) { walk := walk.browse node }).finish pathIds pathDisplay

def objectsIn (children : List BrowseChild) : List Str :=
  (children.filter fun child =>
    child.nodeClass = .object ∧ namespaceAllowed child.browseNameNs config).map (·.nodeId)

def objects (node : Str) : List Str := objectsIn config (source.browseChildren node)

def AutoBrowseConfig.depths : Nat := (config.maxDepth + 1).toNat

def browse : Walk :=
  config.rootNodeIds.foldl (fun walk root =>
    visitObject source config config.depths root [] [] walk) {}

end Walk

/-! ## Names -/

def TopicToken (s : Str) : Prop :=
  s ≠ [] ∧ (∀ c ∈ s.head?, ¬ isDigitByte c) ∧ ∀ c ∈ s, isAlnumByte c = true ∨ c = 95
deriving Decidable

theorem topicToken_guardDigit {s : Str} (hne : s ≠ [])
    (h : ∀ c ∈ s, isAlnumByte c = true ∨ c = 95) : TopicToken (guardDigit s) := by
  unfold guardDigit
  split
  · exact ⟨by simp, by simp; decide, List.forall_mem_cons.mpr ⟨.inr rfl, h⟩⟩
  · rename_i hdigit
    refine ⟨hne, fun c hc hcd => hdigit ?_, h⟩
    rw [Option.mem_def.mp hc]
    simpa using hcd

theorem guardDigit_of_token {s : Str} (h : TopicToken s) : guardDigit s = s := by
  unfold guardDigit
  rw [if_neg]
  obtain ⟨c, rest, rfl⟩ := List.exists_cons_of_ne_nil h.1
  simpa using h.2.1 c rfl

set_option maxRecDepth 1024 in
theorem topicToken_fixed :
    TopicToken (str "_unnamed") ∧ TopicToken (str "root") ∧ TopicToken (str "plc") := by
  decide

theorem topicToken_toTopicSegment (s : Str) : TopicToken (toTopicSegment s) := by
  unfold toTopicSegment
  split
  · exact topicToken_fixed.1
  · rename_i hne
    refine topicToken_guardDigit (by simpa using hne) fun c hc => ?_
    obtain ⟨d, -, rfl⟩ := List.mem_map.mp hc
    split
    · assumption
    · exact .inr rfl

theorem toTopicSegment_of_token {s : Str} (h : TopicToken s) : toTopicSegment s = s := by
  have hmap : (s.map fun c => if isAlnumByte c ∨ c = 95 then c else 95) = s := by
    refine (List.map_congr_left fun c hc => ?_).trans (List.map_id s)
    rw [if_pos (h.2.2 c hc), id]
  rw [toTopicSegment, if_neg h.1, hmap, guardDigit_of_token h]

theorem isAlnumByte_tolower {c : Byte} (h : isAlnumByte c = true) :
    isAlnumByte (tolower c) = true := by
  unfold tolower
  split
  · rename_i hupper
    have hval : (c + 32).val = c.val + 32 := by
      rw [Fin.val_add]
      exact Nat.mod_eq_of_lt (by have : (32 : Byte).val = 32 := rfl; omega)
    simp only [isAlnumByte, hval, Bool.or_eq_true, Bool.and_eq_true, decide_eq_true_eq]
    omega
  · exact h

theorem topicToken_sanitizeSegment {s : Str} (h : 45 ∉ s) : TopicToken (sanitizeSegment s) := by
  unfold sanitizeSegment
  split
  · exact topicToken_fixed.1
  · rename_i hne
    refine topicToken_guardDigit (by simpa using hne) fun c hc => ?_
    obtain ⟨d, hd, rfl⟩ := List.mem_map.mp hc
    have hdash : d ≠ 45 := fun heq => h (heq ▸ hd)
    split
    · exact .inl (isAlnumByte_tolower ‹_›)
    · right
      split
      · exact (‹_ ∨ _› : d = 95 ∨ d = 45).resolve_right hdash
      · rfl

theorem TopicToken.append {s t : Str} (h : TopicToken s)
    (ht : ∀ c ∈ t, isAlnumByte c = true ∨ c = 95) : TopicToken (s ++ t) := by
  obtain ⟨c, rest, rfl⟩ := List.exists_cons_of_ne_nil h.1
  exact ⟨by simp, h.2.1, List.forall_mem_append.mpr ⟨h.2.2, ht⟩⟩

theorem topicToken_joinEntityId {segments : List Str} (h : ∀ seg ∈ segments, 45 ∉ seg) :
    TopicToken (joinEntityId segments) := by
  unfold joinEntityId
  split
  · exact topicToken_fixed.2.1
  · rename_i hne
    obtain ⟨seg, segments, rfl⟩ := List.exists_cons_of_ne_nil hne
    obtain ⟨hseg, hrest⟩ := List.forall_mem_cons.mp h
    rw [List.foldl_cons, if_pos rfl, List.nil_append]
    have hout := topicToken_sanitizeSegment hseg
    generalize sanitizeSegment seg = out at hout
    clear hne hseg h
    induction segments generalizing out with
    | nil => exact hout
    | cons seg segments ih =>
      obtain ⟨hseg, hrest⟩ := List.forall_mem_cons.mp hrest
      rw [List.foldl_cons, if_neg hout.1]
      refine ih hrest _ (TopicToken.append (hout.append ?_) (topicToken_sanitizeSegment hseg).2.2)
      simp

theorem topicToken_uniqueName {candidate : Str} (h : TopicToken candidate) (seen : OSet Str) :
    TopicToken (uniqueName candidate seen) := by
  unfold uniqueName
  split
  · exact h
  · refine h.append (List.forall_mem_cons.mpr ⟨.inr rfl, fun c hc => .inl ?_⟩)
    have hdigit := isDigitByte_of_mem_decimal hc
    simp [isAlnumByte, hdigit.1, hdigit.2]

theorem uniqueName_not_mem (candidate : Str) (seen : OSet Str) :
    uniqueName candidate seen ∉ seen := by
  unfold uniqueName
  split
  · assumption
  · exact Nat.find_spec (exists_free candidate seen)

/-! ## What every walk keeps -/

/-- The walk takes the name of a child of an object at the given depth: of a variable that becomes an
entry, or of an object that it may browse. -/
def Taken (source : AutoBrowseSource) (config : AutoBrowseConfig) (depth : Nat)
    (child : BrowseChild) : Prop :=
  namespaceAllowed child.browseNameNs config = true ∧
    match child.nodeClass with
    | .variable => Supported source config child
    | .object => (depth : Int) < config.maxDepth

/-- No name that the walk takes from the server has a hyphen. -/
def NoHyphen (source : AutoBrowseSource) (config : AutoBrowseConfig) : Prop :=
  ∀ (node : Str) (depth : Nat), (depth : Int) ≤ config.maxDepth →
    Leads (objects source config) config.rootNodeIds depth node →
    ∀ child ∈ source.browseChildren node, Taken source config depth child → 45 ∉ child.name

def Key (entry : NodeMapEntry) : Str × Str := (entry.fields.entityId, entry.fields.dataName)

structure Sound (source : AutoBrowseSource) (config : AutoBrowseConfig) (walk : Walk) : Prop where
  bounded : walk.nodesVisited ≤ config.maxNodes
  nodup : walk.browsed.Nodup
  browsed : ∀ node ∈ walk.browsed, node ∈ walk.visitedNodes
  ids : ∀ entry ∈ walk.entries, entry.fields.entityId ∈ walk.seenEntityIds
  keys : (walk.entries.map Key).Nodup
  topics : ∀ entry ∈ walk.entries,
    entry.fields.ros2Topic = topicOf entry.fields.entityId entry.fields.dataName
  tokens : NoHyphen source config → ∀ entry ∈ walk.entries,
    TopicToken entry.fields.entityId ∧ TopicToken entry.fields.dataName

structure SoundLevel (source : AutoBrowseSource) (config : AutoBrowseConfig) (level : Level) :
    Prop where
  walk : Sound source config level.walk
  names : ∀ entry ∈ level.localEntries, entry.fields.dataName ∈ level.seenDataNames
  distinct : (level.localEntries.map (·.fields.dataName)).Nodup
  tokens : NoHyphen source config → ∀ entry ∈ level.localEntries, TopicToken entry.fields.dataName

section Sound

variable {source : AutoBrowseSource} {config : AutoBrowseConfig} {walk : Walk} {level : Level}
  {pathIds pathDisplay : List Str}

theorem SoundLevel.addVariable (h : SoundLevel source config level) {child : BrowseChild}
    (hname : NoHyphen source config → Supported source config child → 45 ∉ child.name) :
    SoundLevel source config (addVariable source config level child) := by
  unfold AutoBrowser.addVariable
  split
  · rename_i hsupported
    have hnew := uniqueName_not_mem (sanitizeSegment child.name) level.seenDataNames
    refine ⟨h.walk, ?_, ?_, ?_⟩
    · intro entry hentry
      rcases List.mem_append.mp hentry with hold | hadded
      · exact OSet.mem_insert_iff.mpr (.inr (h.names entry hold))
      · rw [List.mem_singleton.mp hadded]
        exact OSet.mem_insert_iff.mpr (.inl rfl)
    · rw [List.map_append, List.map_singleton, ← List.concat_eq_append, List.nodup_concat]
      refine ⟨fun hmem => ?_, h.distinct⟩
      obtain ⟨entry, hentry, heq⟩ := List.mem_map.mp hmem
      change entry.fields.dataName = uniqueName _ _ at heq
      exact hnew (heq ▸ h.names entry hentry)
    · intro hhyphen entry hentry
      rcases List.mem_append.mp hentry with hold | hadded
      · exact h.tokens hhyphen entry hold
      · rw [List.mem_singleton.mp hadded]
        exact topicToken_uniqueName (topicToken_sanitizeSegment (hname hhyphen hsupported)) _
  · exact h

theorem Sound.finish (h : SoundLevel source config level)
    (hpath : NoHyphen source config → ∀ seg ∈ pathIds, 45 ∉ seg) :
    Sound source config (level.finish pathIds pathDisplay) := by
  unfold Level.finish
  split
  · exact h.walk
  · have hnew := uniqueName_not_mem (joinEntityId pathIds) level.walk.seenEntityIds
    refine ⟨h.walk.bounded, h.walk.nodup, h.walk.browsed, ?_, ?_, ?_, ?_⟩
    · intro entry hentry
      rcases List.mem_append.mp hentry with hold | hadded
      · exact OSet.mem_insert_iff.mpr (.inr (h.walk.ids entry hold))
      · obtain ⟨entry, -, rfl⟩ := List.mem_map.mp hadded
        exact OSet.mem_insert_iff.mpr (.inl rfl)
    · rw [List.map_append, List.nodup_append]
      refine ⟨h.walk.keys, ?_, ?_⟩
      · have hinj := h.distinct.map (Prod.mk_right_injective
          (uniqueName (joinEntityId pathIds) level.walk.seenEntityIds))
        simpa [Function.comp_def, Key] using hinj
      · rintro key hold _ hadded rfl
        obtain ⟨entry, hentry, rfl⟩ := List.mem_map.mp hold
        obtain ⟨added, hadded, heq⟩ := List.mem_map.mp hadded
        obtain ⟨fresh, -, rfl⟩ := List.mem_map.mp hadded
        have hid : uniqueName (joinEntityId pathIds) level.walk.seenEntityIds =
            entry.fields.entityId := congrArg Prod.fst heq
        exact hnew (hid ▸ h.walk.ids entry hentry)
    · intro entry hentry
      rcases List.mem_append.mp hentry with hold | hadded
      · exact h.walk.topics entry hold
      · obtain ⟨entry, -, rfl⟩ := List.mem_map.mp hadded
        rfl
    · intro hhyphen entry hentry
      rcases List.mem_append.mp hentry with hold | hadded
      · exact h.walk.tokens hhyphen entry hold
      · obtain ⟨added, hlocal, rfl⟩ := List.mem_map.mp hadded
        exact ⟨topicToken_uniqueName (topicToken_joinEntityId (hpath hhyphen)) _,
          h.tokens hhyphen added hlocal⟩

theorem Sound.mark (h : Sound source config walk) (node : Str) :
    Sound source config (walk.mark node) :=
  { h with browsed := fun other hother => OSet.mem_insert_iff.mpr (.inr (h.browsed other hother)) }

theorem Sound.browse (h : Sound source config walk) {node : Str} (hnew : node ∉ walk.visitedNodes) :
    Sound source config (walk.browse node) :=
  { h.mark node with
    nodup := by
      rw [Walk.browse, ← List.concat_eq_append, List.nodup_concat]
      exact ⟨fun hmem => hnew (h.browsed node hmem), h.nodup⟩
    browsed := by
      refine List.forall_mem_append.mpr ⟨(h.mark node).browsed, ?_⟩
      simp [Walk.browse, Walk.mark] }

theorem SoundLevel.considerChildren {descend : Str → List Str → List Str → Walk → Walk}
    (depth : Nat) (children : List BrowseChild)
    (hdescend : ∀ node ∈ objectsIn config children, ∀ ids display walk, Sound source config walk →
      ((depth : Int) < config.maxDepth → NoHyphen source config → ∀ seg ∈ ids, 45 ∉ seg) →
      Sound source config (descend node ids display walk))
    (hpath : NoHyphen source config → ∀ seg ∈ pathIds, 45 ∉ seg)
    (hnames : NoHyphen source config → ∀ child ∈ children, Taken source config depth child →
      45 ∉ child.name) (h : SoundLevel source config level) :
    SoundLevel source config
      (considerChildren source config descend pathIds pathDisplay children level) := by
  induction children generalizing level with
  | nil => exact h
  | cons child children ih =>
    rw [AutoBrowser.considerChildren]
    split
    · exact { h with walk := { h.walk with } }
    · rename_i hcap
      have htail : ∀ node ∈ objectsIn config children,
          node ∈ objectsIn config (child :: children) := fun node hnode =>
        (((List.sublist_cons_self child children).filter _).map _).subset hnode
      refine ih (fun node hnode => hdescend node (htail node hnode))
        (fun hhyphen => (List.forall_mem_cons.mp (hnames hhyphen)).2) ?_
      have hname := fun hhyphen => (List.forall_mem_cons.mp (hnames hhyphen)).1
      have hcount : SoundLevel source config { level with
          walk := { level.walk with nodesVisited := level.walk.nodesVisited + 1 } } :=
        { h with walk := { h.walk with bounded := Nat.lt_of_not_ge hcap } }
      unfold considerChild
      split
      · rename_i hns
        split
        · rename_i hclass
          have hobject : child.nodeId ∈ objectsIn config (child :: children) := by
            simp [objectsIn, hclass, hns]
          refine { hcount with
            walk := hdescend _ hobject _ _ _ hcount.walk fun hdepth hhyphen => ?_ }
          have hown := hname hhyphen ⟨hns, by rw [hclass]; exact hdepth⟩
          exact List.forall_mem_append.mpr ⟨hpath hhyphen, by simpa using hown⟩
        · rename_i hclass
          exact hcount.addVariable fun hhyphen hsupported =>
            hname hhyphen ⟨hns, by rw [hclass]; exact hsupported⟩
      · exact hcount

theorem Sound.visitObject {remaining depth : Nat} (hdepth : depth + remaining = config.depths)
    (node : Str) (hleads : Leads (objects source config) config.rootNodeIds depth node)
    (pathIds pathDisplay : List Str) (walk : Walk) (h : Sound source config walk)
    (hpath : remaining ≠ 0 → NoHyphen source config → ∀ seg ∈ pathIds, 45 ∉ seg) :
    Sound source config (visitObject source config remaining node pathIds pathDisplay walk) := by
  induction remaining generalizing depth node pathIds pathDisplay walk with
  | zero =>
    rw [AutoBrowser.visitObject]
    split
    · exact h
    · exact { h.mark node with }
  | succ remaining ih =>
    rw [AutoBrowser.visitObject]
    split
    · exact h
    · split
      · exact { h.mark node with }
      · rename_i hnew _
        rw [AutoBrowseConfig.depths] at hdepth
        have hpath := hpath (Nat.succ_ne_zero remaining)
        refine Sound.finish (SoundLevel.considerChildren depth _ ?_ hpath ?_ ?_) hpath
        · intro child hchild ids display walk h hids
          refine ih (by rw [AutoBrowseConfig.depths]; omega) child (hleads.step hchild) ids display
            walk h fun hne => hids (by omega)
        · exact fun hhyphen => hhyphen node depth (by omega) hleads
        · exact ⟨h.browse hnew, by simp, by simp, by simp⟩

theorem sound_browse (source : AutoBrowseSource) (config : AutoBrowseConfig) :
    Sound source config (browse source config) := by
  refine List.foldlRecOn _ _ ?_ fun walk h root hroot => ?_
  · exact ⟨Nat.zero_le _, by simp, by simp, by simp, by simp, by simp, by simp⟩
  · exact Sound.visitObject (Nat.zero_add _) root (.root hroot) [] [] walk h (by simp)

end Sound

/-! ## Topics -/

def TopicName (topic : Str) : Prop :=
  ∃ tokens : List Str, tokens ≠ [] ∧ (∀ token ∈ tokens, TopicToken token) ∧
    topic = tokens.flatMap fun token => 47 :: token

theorem topicName_topicOf (entityId dataName : Str) : TopicName (topicOf entityId dataName) := by
  refine ⟨[str "plc", toTopicSegment entityId, toTopicSegment dataName], by simp, ?_, ?_⟩
  · simp only [List.forall_mem_cons]
    exact ⟨topicToken_fixed.2.2, topicToken_toTopicSegment _, topicToken_toTopicSegment _, by simp⟩
  · have hplc : str "/plc/" = 47 :: (str "plc" ++ [47]) := by decide
    have hslash : str "/" = [47] := by decide
    simp [topicOf, hplc, hslash]

theorem topicOf_injective {e e' d d' : Str} (he : TopicToken e) (he' : TopicToken e')
    (hd : TopicToken d) (hd' : TopicToken d') (h : topicOf e d = topicOf e' d') :
    e = e' ∧ d = d' := by
  have hslash : str "/" = [47] := by decide
  have hno : ∀ {s : Str}, TopicToken s → ∀ c ∈ s, c ≠ 47 := by
    rintro s hs c hc rfl
    exact absurd (hs.2.2 47 hc) (by decide)
  simp only [topicOf, toTopicSegment_of_token he, toTopicSegment_of_token he',
    toTopicSegment_of_token hd, toTopicSegment_of_token hd', List.append_assoc, hslash,
    List.append_cancel_left_eq, List.singleton_append] at h
  obtain ⟨hid, -, hname⟩ := span_append_inj (· ≠ 47) (hno he) (hno he') (by simp) (by simp) h
  exact ⟨hid, hname⟩

def variableSource (first second : Str) : AutoBrowseSource where
  browseChildren _ :=
    [{ nodeId := str "v", browseName := first, nodeClass := .variable },
      { nodeId := str "w", browseName := second, nodeClass := .variable },
      { nodeId := str "s", browseName := str "Server-Info", browseNameNs := 0, nodeClass := .object }]
  readTypeName _ := str "Byte"
  readInitialValue _ := true
  readWritable _ := none

section Search

variable (source : AutoBrowseSource) (config : AutoBrowseConfig)

def Mapped (entries : List NodeMapEntry) (node : Str) : Prop :=
  ∀ child ∈ source.browseChildren node, child.nodeClass = .variable →
    namespaceAllowed child.browseNameNs config = true → Supported source config child →
    ∃ entry ∈ entries, entry.nodeIdStr = child.nodeId

structure Agrees (walk : Walk) (search : Search Str) : Prop where
  visited : ∀ node, node ∈ walk.visitedNodes ↔ node ∈ search.visited
  browsed : walk.browsed = search.expanded

/-- Short of the cap on the nodes, the walk does what the search does, and it maps the variables of
what it browses. -/
structure Follows (search : Search Str → Search Str) (before after : Walk) : Prop where
  entries : ∀ entry ∈ before.entries, entry ∈ after.entries
  capHit : before.nodeCapHit = true → after.nodeCapHit = true
  mapped : ∀ node ∈ after.browsed, node ∈ before.browsed ∨
    Mapped source config after.entries node ∨ after.nodeCapHit = true
  agrees : after.nodeCapHit = false → ∀ s, Agrees before s → Agrees after (search s)

variable {source config} {a b c : Walk} {f g : Search Str → Search Str}

theorem Mapped.mono {entries entries' : List NodeMapEntry} {node : Str}
    (h : Mapped source config entries node) (hsub : ∀ entry ∈ entries, entry ∈ entries') :
    Mapped source config entries' node := by
  intro child hchild hclass hns hsupported
  obtain ⟨entry, hentry, hid⟩ := h child hchild hclass hns hsupported
  exact ⟨entry, hsub entry hentry, hid⟩

theorem Follows.trans (h : Follows source config f a b) (h' : Follows source config g b c) :
    Follows source config (fun s => g (f s)) a c where
  entries entry he := h'.entries entry (h.entries entry he)
  capHit hcap := h'.capHit (h.capHit hcap)
  mapped node hn := by
    rcases h'.mapped node hn with hb | hlater
    · rcases h.mapped node hb with ha | hmapped | hcap
      · exact .inl ha
      · exact .inr (.inl (hmapped.mono h'.entries))
      · exact .inr (.inr (h'.capHit hcap))
    · exact .inr hlater
  agrees hcap s hs := by
    have hb : b.nodeCapHit = false := Bool.eq_false_iff.mpr fun hb => by simp [h'.capHit hb] at hcap
    exact h'.agrees hcap _ (h.agrees hb s hs)

theorem Follows.of_eq (hvisited : b.visitedNodes = a.visitedNodes) (hbrowsed : b.browsed = a.browsed)
    (hentries : ∀ entry ∈ a.entries, entry ∈ b.entries)
    (hcap : a.nodeCapHit = true → b.nodeCapHit = true) : Follows source config id a b where
  entries := hentries
  capHit := hcap
  mapped _ h := .inl (hbrowsed ▸ h)
  agrees _ _ hs := ⟨hvisited ▸ hs.visited, hbrowsed ▸ hs.browsed⟩

theorem Follows.of_cap (hbrowsed : b.browsed = a.browsed) (hentries : b.entries = a.entries)
    (hcap : b.nodeCapHit = true) : Follows source config f a b where
  entries _ h := hentries ▸ h
  capHit _ := hcap
  mapped _ h := .inl (hbrowsed ▸ h)
  agrees h := by rw [hcap] at h; cases h

def Covers (source : AutoBrowseSource) (config : AutoBrowseConfig) (level : Level)
    (children : List BrowseChild) : Prop :=
  ∀ child ∈ children, child.nodeClass = .variable →
    namespaceAllowed child.browseNameNs config = true → Supported source config child →
    ∃ entry ∈ level.localEntries, entry.nodeIdStr = child.nodeId

structure LevelFollows (source : AutoBrowseSource) (config : AutoBrowseConfig)
    (search : Search Str → Search Str) (children : List BrowseChild) (before after : Level) :
    Prop where
  walk : Follows source config search before.walk after.walk
  entries : ∀ entry ∈ before.localEntries, entry ∈ after.localEntries
  covers : after.walk.nodeCapHit = true ∨ Covers source config after children

section Children

variable {descend : Str → List Str → List Str → Walk → Walk} {next : Str → List Str}
  {remaining : Nat} (pathIds pathDisplay : List Str)
  (hdescend : ∀ node ids display walk,
    Follows source config (dive next remaining node) walk (descend node ids display walk))
include hdescend

theorem considerChild_follows (child : BrowseChild) (level : Level) :
    LevelFollows source config (diveAll next remaining (objectsIn config [child])) [child] level
      (considerChild source config descend pathIds pathDisplay level child) := by
  have hcount : Follows source config id level.walk
      { level.walk with nodesVisited := level.walk.nodesVisited + 1 } :=
    .of_eq rfl rfl (fun _ h => h) id
  unfold considerChild
  split
  · rename_i hns
    cases hclass : child.nodeClass with
    | object =>
      have hobjects : objectsIn config [child] = [child.nodeId] := by simp [objectsIn, hclass, hns]
      rw [hobjects]
      refine ⟨hcount.trans (hdescend _ _ _ _), fun _ h => h, .inr fun other hother hvariable => ?_⟩
      rw [List.mem_singleton.mp hother, hclass] at hvariable
      cases hvariable
    | «variable» =>
      have hobjects : objectsIn config [child] = [] := by simp [objectsIn, hclass]
      rw [hobjects]
      simp only [addVariable]
      split
      · refine ⟨hcount, fun _ h => List.mem_append_left _ h, .inr fun other hother _ _ _ => ?_⟩
        rw [List.mem_singleton.mp hother]
        exact ⟨_, List.mem_append_right _ (List.mem_singleton_self _), rfl⟩
      · rename_i hunsupported
        exact ⟨hcount, fun _ h => h, .inr fun other hother _ _ hsupported =>
          absurd (List.mem_singleton.mp hother ▸ hsupported) hunsupported⟩
  · rename_i hns
    have hobjects : objectsIn config [child] = [] := by simp [objectsIn, hns]
    rw [hobjects]
    exact ⟨hcount, fun _ h => h, .inr fun other hother _ hallowed =>
      absurd (List.mem_singleton.mp hother ▸ hallowed) hns⟩

theorem considerChildren_follows (children : List BrowseChild) (level : Level) :
    LevelFollows source config (diveAll next remaining (objectsIn config children)) children level
      (considerChildren source config descend pathIds pathDisplay children level) := by
  induction children generalizing level with
  | nil => exact ⟨.of_eq rfl rfl (fun _ h => h) id, fun _ h => h, .inr (by simp [Covers])⟩
  | cons child children ih =>
    rw [considerChildren]
    split
    · exact ⟨.of_cap rfl rfl rfl, fun _ h => h, .inl rfl⟩
    · have hfirst := considerChild_follows pathIds pathDisplay hdescend child level
      have hrest := ih (considerChild source config descend pathIds pathDisplay level child)
      have hsplit : diveAll next remaining (objectsIn config (child :: children)) = fun s =>
          diveAll next remaining (objectsIn config children)
            (diveAll next remaining (objectsIn config [child]) s) := by
        funext s
        rw [← List.singleton_append, objectsIn, List.filter_append, List.map_append]
        exact List.foldl_append
      refine ⟨hsplit ▸ hfirst.walk.trans hrest.walk,
        fun entry hentry => hrest.entries entry (hfirst.entries entry hentry), ?_⟩
      rcases hfirst.covers with hcap | hown
      · exact .inl (hrest.walk.capHit hcap)
      · refine hrest.covers.imp_right fun hall => List.forall_mem_cons.mpr ⟨?_, hall⟩
        intro hclass hns hsupported
        obtain ⟨entry, hentry, hid⟩ := hown child (List.mem_singleton_self _) hclass hns hsupported
        exact ⟨entry, hrest.entries entry hentry, hid⟩

end Children

theorem finish_follows (level : Level) (pathIds pathDisplay : List Str) :
    Follows source config id level.walk (level.finish pathIds pathDisplay) ∧
      ∀ entry ∈ level.localEntries,
        ∃ added ∈ (level.finish pathIds pathDisplay).entries, added.nodeIdStr = entry.nodeIdStr := by
  unfold Level.finish
  split
  · rename_i hempty
    exact ⟨.of_eq rfl rfl (fun _ h => h) id, by simp [hempty]⟩
  · exact ⟨.of_eq rfl rfl (fun _ h => List.mem_append_left _ h) id, fun entry hentry =>
      ⟨_, List.mem_append_right _ (List.mem_map_of_mem hentry), rfl⟩⟩

theorem Agrees.insert {node : Str} {s : Search Str} (h : Agrees a s)
    (hvisited : b.visitedNodes = a.visitedNodes.insert node) (other : Str) :
    other ∈ b.visitedNodes ↔ other ∈ node :: s.visited := by
  rw [hvisited, OSet.mem_insert_iff, List.mem_cons, h.visited]

theorem Follows.of_browse {node : Str} {remaining : Nat} (hnew : node ∉ a.visitedNodes)
    (h : Follows source config
      (diveAll (objects source config) remaining (objects source config node)) (a.browse node) b)
    (hmapped : Mapped source config b.entries node ∨ b.nodeCapHit = true) :
    Follows source config (dive (objects source config) (remaining + 1) node) a b where
  entries := h.entries
  capHit := h.capHit
  mapped other hother := by
    rcases h.mapped other hother with hbrowsed | hlater
    · rcases List.mem_append.mp hbrowsed with hold | hself
      · exact .inl hold
      · exact .inr (List.mem_singleton.mp hself ▸ hmapped)
    · exact .inr hlater
  agrees hcap s hs := by
    rw [dive, if_neg fun hmem => hnew ((hs.visited node).mpr hmem)]
    refine h.agrees hcap _ ⟨hs.insert rfl, ?_⟩
    rw [← hs.browsed]
    rfl

theorem Follows.of_visited {next : Str → List Str} {remaining : Nat} {node : Str}
    (hvisited : node ∈ a.visitedNodes) : Follows source config (dive next remaining node) a a := by
  refine ⟨fun _ h => h, id, fun _ h => .inl h, fun _ s hs => ?_⟩
  rwa [DepthFirst.dive_of_visited ((hs.visited node).mp hvisited)]

theorem visitObject_follows (remaining : Nat) (node : Str) (pathIds pathDisplay : List Str)
    (walk : Walk) : Follows source config (dive (objects source config) remaining node) walk
      (visitObject source config remaining node pathIds pathDisplay walk) := by
  induction remaining generalizing node pathIds pathDisplay walk with
  | zero =>
    rw [visitObject]
    split
    · exact .of_visited ‹_›
    · rename_i hnew
      refine ⟨fun _ h => h, id, fun _ h => .inl h, fun _ s hs => ?_⟩
      rw [dive, if_neg fun hmem => hnew ((hs.visited node).mpr hmem)]
      exact ⟨hs.insert rfl, hs.browsed⟩
  | succ remaining ih =>
    rw [visitObject]
    split
    · exact .of_visited ‹_›
    · rename_i hnew
      split
      · exact .of_cap rfl rfl rfl
      · obtain ⟨hwalk, -, hcovers⟩ := considerChildren_follows pathIds pathDisplay ih
          (source.browseChildren node) { walk := walk.browse node }
        generalize considerChildren source config (visitObject source config remaining) pathIds
          pathDisplay (source.browseChildren node) { walk := walk.browse node } = level
          at hwalk hcovers ⊢
        obtain ⟨hfinish, hentries⟩ := finish_follows level pathIds pathDisplay
        refine .of_browse hnew (hwalk.trans hfinish) ?_
        refine hcovers.symm.imp (fun hcovers child hchild hclass hns hsupported => ?_) hfinish.capHit
        obtain ⟨entry, hentry, hid⟩ := hcovers child hchild hclass hns hsupported
        obtain ⟨added, hadded, hid'⟩ := hentries entry hentry
        exact ⟨added, hadded, hid'.trans hid⟩

variable (source config) in
theorem browse_follows : Follows source config
    (diveAll (objects source config) config.depths config.rootNodeIds) {} (browse source config) := by
  rw [browse]
  generalize config.rootNodeIds = roots, ({} : Walk) = walk
  induction roots generalizing walk with
  | nil => exact .of_eq rfl rfl (fun _ h => h) id
  | cons root roots ih => exact (visitObject_follows config.depths root [] [] walk).trans (ih _)

end Search

/-- In the order in which the walk would follow the references that the server lists, the first path
without repetition to an object within `max_depth` references has itself no more of them. -/
def FirstWithin (source : AutoBrowseSource) (config : AutoBrowseConfig) : Prop :=
  FirstShort (objects source config) config.rootNodeIds config.depths
    (pathsAll (objects source config) config.depths [] config.rootNodeIds)

/-- The walk ends within the cap on the nodes and browses no object twice. If it did not run into
that cap, it browses what the roots lead to within `max_depth` references and has an entry for each
supported variable below it, exactly if `FirstWithin` holds. -/
theorem browse_complete (source : AutoBrowseSource) (config : AutoBrowseConfig) :
    (browse source config).nodesVisited ≤ config.maxNodes ∧
      (browse source config).browsed.Nodup ∧
      ((browse source config).nodeCapHit = false →
        ((∀ (node : Str) (length : Nat), (length : Int) ≤ config.maxDepth →
          Leads (objects source config) config.rootNodeIds length node →
          node ∈ (browse source config).browsed ∧
            Mapped source config (browse source config).entries node) ↔
          FirstWithin source config)) := by
  have hsound := sound_browse source config
  refine ⟨hsound.bounded, hsound.nodup, fun hcap => ?_⟩
  have hfollows := browse_follows source config
  have hmapped : ∀ node ∈ (browse source config).browsed,
      Mapped source config (browse source config).entries node := by
    intro node hnode
    rcases hfollows.mapped node hnode with hstart | hmapped | hhit
    · exact absurd hstart List.not_mem_nil
    · exact hmapped
    · rw [hcap] at hhit
      cases hhit
  have hbrowsed := (hfollows.agrees hcap {} ⟨by simp, rfl⟩).browsed
  rw [FirstWithin, ← DepthFirst.expands_near_iff, ← hbrowsed]
  have hnear : ∀ length : Nat, (length : Int) ≤ config.maxDepth ↔ length < config.depths := by
    intro length
    rw [AutoBrowseConfig.depths]
    omega
  simp only [hnear]
  constructor
  · rintro h node ⟨length, hlength, hleads⟩
    exact (h node length hlength hleads).1
  · intro h node length hlength hleads
    have hnode := h node ⟨length, hlength, hleads⟩
    exact ⟨hnode, hmapped node hnode⟩

def triangleSource (first second : Str) : AutoBrowseSource where
  browseChildren node :=
    if node = str "r" then
      [{ nodeId := first, nodeClass := .object }, { nodeId := second, nodeClass := .object }]
    else if node = str "a" then [{ nodeId := str "b", nodeClass := .object }]
    else []
  readTypeName _ := []
  readInitialValue _ := true
  readWritable _ := none

def oneDeep : AutoBrowseConfig := { rootNodeIds := [str "r"], maxDepth := 1 }

theorem browse_complete_of_triangle :
    FirstWithin (triangleSource (str "b") (str "a")) oneDeep ∧
      str "b" ∈ (browse (triangleSource (str "b") (str "a")) oneDeep).browsed := by
  have hfirst : FirstWithin (triangleSource (str "b") (str "a")) oneDeep := by
    intro node _ path hpath
    have hend := List.find?_some hpath
    have hmem : path ∈ [[str "r"], [str "b", str "r"], [str "a", str "r"],
        [str "b", str "a", str "r"]] := List.mem_of_find?_eq_some hpath
    simp only [List.mem_cons, List.not_mem_nil, or_false] at hmem
    rcases hmem with rfl | rfl | rfl | rfl
    · decide
    · decide
    · decide
    · obtain rfl : str "b" = node := by simpa using hend
      exact absurd hpath (by decide)
  have hleads : Leads (objects (triangleSource (str "b") (str "a")) oneDeep) oneDeep.rootNodeIds 1
      (str "b") := .step (.root (List.mem_singleton_self _)) (by decide)
  exact ⟨hfirst, (((browse_complete _ _).2.2 (by decide)).mpr hfirst _ 1 (by decide) hleads).1⟩

/-- Behind `a` the object `b` lies below the depth cap; after that it is not browsed from the root
any more. -/
theorem shadowed_object_not_browsed :
    (browse (triangleSource (str "a") (str "b")) oneDeep).nodeCapHit = false ∧
      Leads (objects (triangleSource (str "a") (str "b")) oneDeep) oneDeep.rootNodeIds 1 (str "b") ∧
      str "b" ∉ (browse (triangleSource (str "a") (str "b")) oneDeep).browsed := by
  refine ⟨by decide, .step (.root (List.mem_singleton_self _)) (by decide), by decide⟩

end Medkit.Opcua.AutoBrowser
