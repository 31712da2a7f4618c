import Medkit.Lib.FirstLeast
import Medkit.Gateway.Entities

/-! Merging the nameplates that several sources contribute to one component. Every
field carries the source it came from; a source may overwrite a field only if it ranks
strictly above the recorded one. -/
namespace Medkit.Gateway

open Lib

structure IdentityMergeConfig where
  sourcePrecedence : List Str :=
    [str "opcua", str "s7", str "ethernet_ip", str "modbus", str "ads", str "profinet",
      str "manifest", str "inventory", str "config", str "plugin", str "runtime", str "node",
      str "topic", str "heuristic"]

/-- Lower is better; unlisted sources share the rank below every listed one. -/
def sourceRank (source : Str) (config : IdentityMergeConfig) : Nat :=
  config.sourcePrecedence.idxOf source

/-- The rank of a recorded owner; a value without an owner has the lowest. -/
def ownerRank (currentOwner : Str) (config : IdentityMergeConfig) : Nat :=
  if currentOwner = [] then config.sourcePrecedence.length else sourceRank currentOwner config

def incomingWins (fieldSet : Bool) (currentOwner incomingSource : Str)
    (config : IdentityMergeConfig) : Bool :=
  if fieldSet then decide (sourceRank incomingSource config < ownerRank currentOwner config)
  else true

/-! ## Slots

The typed fields and the extra keys are merged by the same rule. -/

inductive IdentitySlot where
  | typed (field : IdentityField)
  | extra (key : Str)
deriving DecidableEq

def IdentitySlot.provKey : IdentitySlot → Str
  | .typed field => field.provKey
  | .extra key => str "extra." ++ key

namespace AssetIdentity

def value (identity : AssetIdentity) : IdentitySlot → Str
  | .typed field => identity.get field
  | .extra key => (identity.extra[key]?).getD []

def owner (identity : AssetIdentity) (slot : IdentitySlot) : Str :=
  (identity.provenance[slot.provKey]?).getD []

def write (identity : AssetIdentity) (slot : IdentitySlot) (value owner : Str) : AssetIdentity :=
  let written := match slot with
    | .typed field => identity.set value field
    | .extra key => { identity with extra := identity.extra.insert key value }
  { written with provenance := identity.provenance.insert slot.provKey owner }

end AssetIdentity

/-! ## Stamping and merging -/

def stampKey (source : Str) (identity : AssetIdentity) (slot : IdentitySlot) : AssetIdentity :=
  if identity.value slot ≠ [] ∧ identity.provenance[slot.provKey]? = none then
    { identity with provenance := identity.provenance.insert slot.provKey source }
  else identity

def stampIdentityProvenance (identity : AssetIdentity) (source : Str) : AssetIdentity :=
  if source = [] then identity
  else
    let typed := identityFields.foldl (fun i field => stampKey source i (.typed field)) identity
    identity.extra.keys.foldl (fun i key => stampKey source i (.extra key)) typed

def recordedProvenance (source : AssetIdentity) (sourceName : Str) (slot : IdentitySlot) : Str :=
  if source.owner slot ≠ [] then source.owner slot else sourceName

def mergeSlot (source : AssetIdentity) (sourceName : Str) (config : IdentityMergeConfig)
    (target : AssetIdentity) (slot : IdentitySlot) : AssetIdentity :=
  if source.value slot = [] then target
  else if incomingWins (target.value slot ≠ []) (target.owner slot) sourceName config then
    target.write slot (source.value slot) (recordedProvenance source sourceName slot)
  else target

def mergeIdentity (target source : AssetIdentity) (sourceName : Str)
    (config : IdentityMergeConfig) : AssetIdentity :=
  let typed := identityFields.foldl
    (fun t field => mergeSlot source sourceName config t (.typed field)) target
  source.extra.keys.foldl (fun t key => mergeSlot source sourceName config t (.extra key)) typed

structure Contribution where
  source : Str
  identity : AssetIdentity

/-- The nameplate of a component: the first contribution is stamped, the others are
merged into it in order. -/
def mergeContributions (config : IdentityMergeConfig) : List Contribution → AssetIdentity
  | [] => {}
  | first :: rest =>
      rest.foldl (fun target c => mergeIdentity target c.identity c.source config)
        (stampIdentityProvenance first.identity first.source)

/-! ## One slot at a time -/

theorem IdentitySlot.provKey_injective : Function.Injective IdentitySlot.provKey := by
  have hfields (field : IdentityField) (key : Str) : field.provKey ≠ str "extra." ++ key := by
    intro h
    have hhead := congrArg (List.take 6) h
    rw [List.take_left' (by decide)] at hhead
    revert hhead
    cases field <;> decide
  intro slot slot' h
  cases slot with
  | typed field =>
    cases slot' with
    | typed field' =>
      congr 1
      revert h
      cases field <;> cases field' <;> decide
    | extra key => exact absurd h (hfields field key)
  | extra key =>
    cases slot' with
    | typed field => exact absurd h.symm (hfields field key)
    | extra key' => exact congrArg _ (List.append_cancel_left h)

namespace AssetIdentity

def cell (identity : AssetIdentity) (slot : IdentitySlot) : Str × Option Str :=
  (identity.value slot, identity.provenance[slot.provKey]?)

variable {identity : AssetIdentity} {slot slot' : IdentitySlot} {v o : Str}

theorem cell_write_self : (identity.write slot v o).cell slot = (v, some o) := by
  cases slot with
  | typed field => cases field <;> simp [write, cell, value, get, set]
  | extra key => simp [write, cell, value]

theorem cell_write_of_ne (h : slot' ≠ slot) :
    (identity.write slot v o).cell slot' = identity.cell slot' := by
  have hkey : slot.provKey ≠ slot'.provKey := fun he => h (IdentitySlot.provKey_injective he.symm)
  have hvalue : (identity.write slot v o).value slot' = identity.value slot' := by
    cases slot with
    | typed field =>
      cases slot' with
      | typed field' =>
        have hfield : field' ≠ field := fun he => h (congrArg _ he)
        exact get_set_of_ne identity v hfield
      | extra key => cases field <;> rfl
    | extra key =>
      cases slot' with
      | typed field => cases field <;> rfl
      | extra key' =>
        have hkey' : key ≠ key' := fun he => h (congrArg _ he.symm)
        simp only [write, value, OMap.getElem?_insert_of_ne hkey']
  simp only [cell, hvalue]
  simp only [write, OMap.getElem?_insert_of_ne hkey]

def slots (identity : AssetIdentity) : List IdentitySlot :=
  identityFields.map .typed ++ identity.extra.keys.map .extra

theorem nodup_slots (identity : AssetIdentity) : identity.slots.Nodup := by
  rw [slots, List.nodup_append']
  refine ⟨by decide, ?_, ?_⟩
  · apply List.Nodup.map _ Std.ExtTreeMap.nodup_keys
    intro key key' h
    exact IdentitySlot.extra.inj h
  · intro slot htyped hextra
    obtain ⟨field, -, rfl⟩ := List.mem_map.mp htyped
    obtain ⟨key, -, h⟩ := List.mem_map.mp hextra
    cases h

theorem value_of_not_mem_slots (h : slot ∉ identity.slots) : identity.value slot = [] := by
  simp only [slots, List.mem_append, List.mem_map, not_or, not_exists, not_and] at h
  cases slot with
  | typed field => exact absurd rfl (h.1 field (by cases field <;> decide))
  | extra key =>
    have hkey : key ∉ identity.extra := fun hmem => h.2 key (Std.ExtTreeMap.mem_keys.mpr hmem) rfl
    rw [value, Std.ExtTreeMap.getElem?_eq_none hkey]
    rfl

/-- A loop over distinct slots, each step of which changes its own slot only, changes
every visited slot once. -/
theorem cell_foldl {step : AssetIdentity → IdentitySlot → AssetIdentity}
    {f : IdentitySlot → Str × Option Str → Str × Option Str}
    (hself : ∀ i slot, (step i slot).cell slot = f slot (i.cell slot))
    (hother : ∀ i slot slot', slot' ≠ slot → (step i slot).cell slot' = i.cell slot')
    {visited : List IdentitySlot} (hnodup : visited.Nodup) (identity : AssetIdentity)
    (slot : IdentitySlot) : (visited.foldl step identity).cell slot =
      if slot ∈ visited then f slot (identity.cell slot) else identity.cell slot := by
  induction visited generalizing identity with
  | nil => simp
  | cons first rest ih =>
    obtain ⟨hfirst, hrest⟩ := List.nodup_cons.mp hnodup
    rw [List.foldl_cons, ih hrest]
    by_cases h : slot = first
    · subst h
      simp [hfirst, hself]
    · simp [h, hother identity first slot h]

end AssetIdentity

def mergeCell (sourceName : Str) (config : IdentityMergeConfig)
    (current incoming : Str × Option Str) : Str × Option Str :=
  if incoming.1 = [] then current
  else if incomingWins (current.1 ≠ []) (current.2.getD []) sourceName config then
    (incoming.1, some (if incoming.2.getD [] ≠ [] then incoming.2.getD [] else sourceName))
  else current

def stampCell (source : Str) (cell : Str × Option Str) : Str × Option Str :=
  if source ≠ [] ∧ cell.1 ≠ [] ∧ cell.2 = none then (cell.1, some source) else cell

theorem cell_mergeIdentity (target source : AssetIdentity) (sourceName : Str)
    (config : IdentityMergeConfig) (slot : IdentitySlot) :
    (mergeIdentity target source sourceName config).cell slot =
      mergeCell sourceName config (target.cell slot) (source.cell slot) := by
  have hloop : mergeIdentity target source sourceName config =
      source.slots.foldl (mergeSlot source sourceName config) target := by
    simp [mergeIdentity, AssetIdentity.slots, List.foldl_append, List.foldl_map]
  have hself (i : AssetIdentity) (slot : IdentitySlot) :
      (mergeSlot source sourceName config i slot).cell slot =
        mergeCell sourceName config (i.cell slot) (source.cell slot) := by
    fun_cases mergeSlot source sourceName config i slot with
    | case1 hempty => exact (if_pos hempty).symm
    | case2 hset hwins =>
      rw [AssetIdentity.cell_write_self]
      exact ((if_neg hset).trans (if_pos hwins)).symm
    | case3 hset hwins => exact ((if_neg hset).trans (if_neg hwins)).symm
  have hother (i : AssetIdentity) (slot slot' : IdentitySlot) (h : slot' ≠ slot) :
      (mergeSlot source sourceName config i slot).cell slot' = i.cell slot' := by
    fun_cases mergeSlot source sourceName config i slot with
    | case1 => rfl
    | case2 => exact AssetIdentity.cell_write_of_ne h
    | case3 => rfl
  rw [hloop, AssetIdentity.cell_foldl (f := fun slot cell =>
    mergeCell sourceName config cell (source.cell slot)) hself hother source.nodup_slots]
  split
  · rfl
  · rename_i h
    have hvalue := AssetIdentity.value_of_not_mem_slots h
    exact (if_pos hvalue).symm

theorem cell_stampIdentityProvenance (identity : AssetIdentity) (source : Str)
    (slot : IdentitySlot) :
    (stampIdentityProvenance identity source).cell slot = stampCell source (identity.cell slot) := by
  by_cases hsource : source = []
  · simp [stampIdentityProvenance, stampCell, hsource]
  have hself (i : AssetIdentity) (slot : IdentitySlot) :
      (stampKey source i slot).cell slot = stampCell source (i.cell slot) := by
    fun_cases stampKey source i slot with
    | case1 h =>
      rw [stampCell, if_pos ⟨hsource, h⟩]
      simp only [AssetIdentity.cell, Std.ExtTreeMap.getElem?_insert_self]
      cases slot <;> rfl
    | case2 h => rw [stampCell, if_neg fun hc => h hc.2]
  have hother (i : AssetIdentity) (slot slot' : IdentitySlot) (h : slot' ≠ slot) :
      (stampKey source i slot).cell slot' = i.cell slot' := by
    have hkey : slot.provKey ≠ slot'.provKey :=
      fun he => h (IdentitySlot.provKey_injective he.symm)
    fun_cases stampKey source i slot with
    | case1 =>
      simp only [AssetIdentity.cell, OMap.getElem?_insert_of_ne hkey]
      cases slot' <;> rfl
    | case2 => rfl
  have hloop : stampIdentityProvenance identity source =
      identity.slots.foldl (stampKey source) identity := by
    simp [stampIdentityProvenance, hsource, AssetIdentity.slots, List.foldl_append, List.foldl_map]
  rw [hloop, AssetIdentity.cell_foldl (f := fun _ => stampCell source) hself hother
    identity.nodup_slots]
  split
  · rfl
  · rename_i h
    have hvalue := AssetIdentity.value_of_not_mem_slots h
    rw [stampCell, if_neg fun hc => hc.2.1 hvalue]

/-! ## The winning contribution -/

/-- The contribution that should decide the slot: among those that supply it, the one
whose tag ranks highest, the earliest among equals. The slot is empty if none does. -/
def Prevails (config : IdentityMergeConfig) (slot : IdentitySlot)
    (contributions : List Contribution) (value : Str) : Prop :=
  (value = [] ∧ ∀ c ∈ contributions, c.identity.value slot = []) ∨
  ∃ c, FirstLeast (fun c => sourceRank c.source config) (fun c => c.identity.value slot ≠ [])
    contributions c ∧ value = c.identity.value slot

/-- The provenance that a contribution brings along ranks like its tag, and an empty tag
like an unlisted one. -/
structure Contribution.OwnSource (config : IdentityMergeConfig) (c : Contribution) : Prop where
  tag : c.source = [] → sourceRank [] config = config.sourcePrecedence.length
  entries : ∀ slot owner, c.identity.value slot ≠ [] →
    c.identity.provenance[slot.provKey]? = some owner →
    ownerRank owner config = sourceRank c.source config

variable {config : IdentityMergeConfig} {slot : IdentitySlot}

variable {c : Contribution} {contributions : List Contribution}

theorem Contribution.OwnSource.ownerRank_tag (h : c.OwnSource config) :
    ownerRank c.source config = sourceRank c.source config := by
  unfold ownerRank
  split
  · next hempty => rw [hempty, h.tag hempty]
  · rfl

theorem Contribution.OwnSource.ownerRank_recorded (h : c.OwnSource config)
    (hvalue : c.identity.value slot ≠ []) :
    ownerRank (if ((c.identity.cell slot).2.getD []) ≠ [] then (c.identity.cell slot).2.getD []
      else c.source) config = sourceRank c.source config := by
  cases hentry : c.identity.provenance[slot.provKey]? with
  | none => simpa [AssetIdentity.cell, hentry] using h.ownerRank_tag
  | some owner =>
    have hrank := h.entries slot owner hvalue hentry
    simp only [AssetIdentity.cell, hentry, Option.getD_some]
    split
    · exact hrank
    · exact h.ownerRank_tag

/-- The slot of a merged nameplate holds the value of the contribution that prevails, with
an owner of the same rank. -/
def Decided (config : IdentityMergeConfig) (slot : IdentitySlot)
    (contributions : List Contribution) (cell : Str × Option Str) : Prop :=
  (cell.1 = [] ∧ ∀ c ∈ contributions, c.identity.value slot = []) ∨
  ∃ c, FirstLeast (fun c => sourceRank c.source config) (fun c => c.identity.value slot ≠ [])
    contributions c ∧ cell.1 = c.identity.value slot ∧
    ownerRank (cell.2.getD []) config = sourceRank c.source config

theorem decided_stamp (slot : IdentitySlot) {first : Contribution} (h : first.OwnSource config) :
    Decided config slot [first] (stampCell first.source (first.identity.cell slot)) := by
  by_cases hvalue : first.identity.value slot = []
  · left
    rw [stampCell, if_neg fun hc => hc.2.1 hvalue]
    exact ⟨hvalue, by simpa using hvalue⟩
  right
  refine ⟨first, ?_, ?_, ?_⟩
  · exact FirstLeast.concat_take (l := []) hvalue fun _ hx => absurd hx List.not_mem_nil
  · unfold stampCell
    split <;> rfl
  · unfold stampCell
    split
    · exact h.ownerRank_tag
    · rename_i hstamp
      -- either the contribution brought its own entry, or its tag is empty
      cases hentry : (first.identity.cell slot).2 with
      | some owner => exact h.entries slot owner hvalue hentry
      | none =>
        have hempty : first.source = [] := by
          by_contra hsource
          exact hstamp ⟨hsource, hvalue, hentry⟩
        rw [← h.ownerRank_tag, hempty]
        rfl

theorem decided_merge {current : Str × Option Str}
    (hcurrent : Decided config slot contributions current) (h : c.OwnSource config) :
    Decided config slot (contributions ++ [c])
      (mergeCell c.source config current (c.identity.cell slot)) := by
  by_cases hvalue : c.identity.value slot = []
  · rw [mergeCell, if_pos (by exact hvalue)]
    rcases hcurrent with ⟨hnone, hall⟩ | ⟨best, hbest, hset⟩
    · refine .inl ⟨hnone, ?_⟩
      intro x hx
      rcases List.mem_append.mp hx with hx | hx
      · exact hall x hx
      · rw [List.mem_singleton.mp hx, hvalue]
    · exact .inr ⟨best, hbest.concat_keep fun hc => absurd hvalue hc, hset⟩
  have hrecorded := h.ownerRank_recorded hvalue
  rw [mergeCell, if_neg (by exact hvalue)]
  rcases hcurrent with ⟨hnone, hall⟩ | ⟨best, hbest, hset, howner⟩
  · rw [if_pos (by simp [incomingWins, hnone])]
    refine .inr ⟨c, FirstLeast.concat_take hvalue ?_, rfl, hrecorded⟩
    intro x hx hx'
    exact absurd (hall x hx) hx'
  · have hwins : incomingWins (decide (current.1 ≠ [])) (current.2.getD []) c.source config =
        decide (sourceRank c.source config < sourceRank best.source config) := by
      simp [incomingWins, hset, hbest.holds, howner]
    rw [hwins]
    by_cases hless : sourceRank c.source config < sourceRank best.source config
    · rw [if_pos (decide_eq_true hless)]
      refine .inr ⟨c, FirstLeast.concat_take hvalue ?_, rfl, hrecorded⟩
      intro x hx hx'
      exact lt_of_lt_of_le hless (hbest.le hx hx')
    · rw [if_neg (by simpa using hless)]
      exact .inr ⟨best, hbest.concat_keep fun _ => not_lt.mp hless, hset, howner⟩

theorem decided_mergeContributions (slot : IdentitySlot)
    (h : ∀ c ∈ contributions, c.OwnSource config) :
    Decided config slot contributions ((mergeContributions config contributions).cell slot) := by
  cases contributions with
  | nil =>
    refine .inl ⟨?_, fun _ hx => absurd hx List.not_mem_nil⟩
    cases slot with
    | typed field => cases field <;> rfl
    | extra key => rfl
  | cons first rest =>
    -- along the fold, the contributions merged so far have decided the slot
    have hfold (rest : List Contribution) (hrest : ∀ c ∈ rest, c.OwnSource config) :
        ∀ merged target, Decided config slot merged (target.cell slot) →
          Decided config slot (merged ++ rest) ((rest.foldl (fun target c =>
            mergeIdentity target c.identity c.source config) target).cell slot) := by
      induction rest with
      | nil => exact fun merged target hm => by simpa using hm
      | cons c rest ih =>
        intro merged target hm
        have hstep := decided_merge hm (hrest c List.mem_cons_self)
        rw [← cell_mergeIdentity] at hstep
        simpa using ih (fun c hc => hrest c (List.mem_cons_of_mem _ hc)) _ _ hstep
    have hfirst := decided_stamp slot (h first List.mem_cons_self)
    rw [← cell_stampIdentityProvenance] at hfirst
    exact hfold rest (fun c hc => h c (List.mem_cons_of_mem _ hc)) [first] _ hfirst

theorem prevails_mergeContributions (h : ∀ c ∈ contributions, c.OwnSource config) :
    Prevails config slot contributions ((mergeContributions config contributions).value slot) := by
  rcases decided_mergeContributions slot h with hnone | ⟨c, hc, hvalue, -⟩
  · exact .inl hnone
  · exact .inr ⟨c, hc, hvalue⟩

theorem Prevails.eq_of_perm {reordered : List Contribution} {v w : Str}
    (hv : Prevails config slot contributions v) (hw : Prevails config slot reordered w)
    (hperm : reordered.Perm contributions)
    (hranks : (contributions.map fun c => sourceRank c.source config).Nodup) : w = v := by
  rcases hv with ⟨rfl, hall⟩ | ⟨c, hc, rfl⟩ <;> rcases hw with ⟨rfl, hall'⟩ | ⟨d, hd, rfl⟩
  · rfl
  · exact hall d (hperm.mem_iff.mp hd.mem)
  · exact (hall' c (hperm.mem_iff.mpr hc.mem)).symm
  · rw [hc.eq_of_perm hd hperm hranks]

theorem cell_mergeContributions_concat (config : IdentityMergeConfig) (h : contributions ≠ [])
    (c : Contribution) (slot : IdentitySlot) :
    (mergeContributions config (contributions ++ [c])).cell slot =
      mergeCell c.source config ((mergeContributions config contributions).cell slot)
        (c.identity.cell slot) := by
  obtain ⟨first, rest, rfl⟩ := List.exists_cons_of_ne_nil h
  rw [List.cons_append, mergeContributions, List.foldl_concat]
  exact cell_mergeIdentity _ _ _ _ slot

/-- The contribution supplies the slot, and the slot is empty or its recorded owner ranks
below the tag of the contribution. -/
def TakesSlot (config : IdentityMergeConfig) (current : AssetIdentity) (c : Contribution)
    (slot : IdentitySlot) : Prop :=
  c.identity.value slot ≠ [] ∧ (current.value slot ≠ [] →
    sourceRank c.source config < ownerRank (current.owner slot) config)

theorem mergeCell_of_takes {current : AssetIdentity} (h : TakesSlot config current c slot) :
    mergeCell c.source config (current.cell slot) (c.identity.cell slot) =
      (c.identity.value slot, some (recordedProvenance c.identity c.source slot)) := by
  have hwins : incomingWins (decide (current.value slot ≠ [])) (current.owner slot) c.source
      config = true := by
    unfold incomingWins
    split
    · rename_i hset
      exact decide_eq_true (h.2 (of_decide_eq_true hset))
    · rfl
  exact (if_neg h.1).trans (if_pos hwins)

theorem mergeCell_of_not_takes {current : AssetIdentity} (h : ¬ TakesSlot config current c slot) :
    mergeCell c.source config (current.cell slot) (c.identity.cell slot) = current.cell slot := by
  unfold mergeCell
  split
  · rfl
  · rename_i hvalue
    rw [if_neg]
    intro hwins
    refine h ⟨hvalue, fun hset => ?_⟩
    rw [incomingWins, if_pos (by exact decide_eq_true hset)] at hwins
    exact of_decide_eq_true hwins

def relayedSerial : Contribution where
  source := str "plugin"
  identity :=
    { serialNumber := str "A1"
      provenance := (∅ : OMap Str Str).insert (str "serial_number") (str "opcua") }

def declaredSerial : Contribution := ⟨str "manifest", { serialNumber := str "B2" }⟩

end Medkit.Gateway
