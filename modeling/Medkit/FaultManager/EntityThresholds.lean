import Medkit.FaultManager.Debounce

/-! Debounce thresholds of single entities. An override names a path prefix, the longest one
that covers the reporting source wins, and the fields it leaves unset come from the global
configuration. -/
namespace Medkit.FaultManager

open Lib

structure EntityDebounceOverride where
  /-- `prefix` in the source -/
  entityPrefix : Str
  confirmationThreshold : Option Int := none
  healingEnabled : Option Bool := none
  healingThreshold : Option Int := none

namespace EntityDebounceOverride

def covers (entry : EntityDebounceOverride) (sourceId : Str) : Bool :=
  sourceId.length ≥ entry.entityPrefix.length &&
    sourceId.take entry.entityPrefix.length = entry.entityPrefix &&
    (sourceId.length = entry.entityPrefix.length ||
      sourceId[entry.entityPrefix.length]? = some 47)

def merge (entry : EntityDebounceOverride) (globalDefault : DebounceConfig) : DebounceConfig :=
  { globalDefault with
    confirmationThreshold := entry.confirmationThreshold.getD globalDefault.confirmationThreshold
    healingEnabled := entry.healingEnabled.getD globalDefault.healingEnabled
    healingThreshold := entry.healingThreshold.getD globalDefault.healingThreshold }

/-- What the node does with a loaded entry. Only fields that the entry sets are repaired. -/
def sanitized (entry : EntityDebounceOverride) (globalConfig : DebounceConfig) :
    EntityDebounceOverride :=
  let merged := sanitizeDebounceConfig
    { globalConfig with
      confirmationThreshold := entry.confirmationThreshold.getD globalConfig.confirmationThreshold
      healingThreshold := entry.healingThreshold.getD globalConfig.healingThreshold }
  if merged.2 then entry
  else
    { entry with
      confirmationThreshold :=
        entry.confirmationThreshold.map fun _ => merged.1.confirmationThreshold
      healingThreshold := entry.healingThreshold.map fun _ => merged.1.healingThreshold }

def Covers (entry : EntityDebounceOverride) (sourceId : Str) : Prop :=
  sourceId = entry.entityPrefix ∨ ∃ below, sourceId = entry.entityPrefix ++ 47 :: below

theorem covers_iff (entry : EntityDebounceOverride) (sourceId : Str) :
    entry.covers sourceId = true ↔ entry.Covers sourceId := by
  simp only [covers, Covers, Bool.and_eq_true, Bool.or_eq_true, decide_eq_true_eq]
  constructor
  · rintro ⟨⟨hlen, htake⟩, hboundary⟩
    have hsplit : sourceId = entry.entityPrefix ++ sourceId.drop entry.entityPrefix.length := by
      rw [← htake, List.length_take_of_le hlen, List.take_append_drop]
    rcases hboundary with hlen | hslash
    · left
      rw [hsplit, List.drop_eq_nil_of_le (by omega), List.append_nil]
    · right
      refine ⟨sourceId.drop (entry.entityPrefix.length + 1), ?_⟩
      obtain ⟨hlt, hslash⟩ := List.getElem?_eq_some_iff.mp hslash
      rw [← hslash, ← List.drop_eq_getElem_cons hlt]
      exact hsplit
  · rintro (rfl | ⟨below, rfl⟩)
    · simp
    · simp

theorem Covers.eq_of_length {entry other : EntityDebounceOverride} {sourceId : Str}
    (h : entry.Covers sourceId) (h' : other.Covers sourceId)
    (hlen : entry.entityPrefix.length = other.entityPrefix.length) :
    entry.entityPrefix = other.entityPrefix := by
  have htake : ∀ {e : EntityDebounceOverride}, e.Covers sourceId →
      sourceId.take e.entityPrefix.length = e.entityPrefix := by
    rintro e (rfl | ⟨below, rfl⟩)
    · exact List.take_length
    · exact List.take_left
  rw [← htake h, ← htake h', hlen]

theorem valid_merge_sanitized (entry : EntityDebounceOverride) {globalConfig : DebounceConfig}
    (hglobal : globalConfig.Valid) : ((entry.sanitized globalConfig).merge globalConfig).Valid := by
  obtain ⟨hneg, hnonneg⟩ := hglobal
  have hfields : ∀ (confirmation healing : Option Int),
      (confirmation.getD globalConfig.confirmationThreshold < 0 ∧
        0 ≤ healing.getD globalConfig.healingThreshold) →
      DebounceConfig.Valid { globalConfig with
        confirmationThreshold := confirmation.getD globalConfig.confirmationThreshold
        healingEnabled := entry.healingEnabled.getD globalConfig.healingEnabled
        healingThreshold := healing.getD globalConfig.healingThreshold } :=
    fun _ _ h => ⟨h.1, h.2⟩
  unfold sanitized
  dsimp only
  split
  · rename_i hvalid
    apply hfields
    simpa [sanitizeDebounceConfig] using hvalid
  · apply hfields
    -- a field that is not set is the global one, a set one has been repaired
    have hrepaired := sanitizeDebounceConfig_valid
      { globalConfig with
        confirmationThreshold := entry.confirmationThreshold.getD globalConfig.confirmationThreshold
        healingThreshold := entry.healingThreshold.getD globalConfig.healingThreshold }
    constructor <;> revert hrepaired
    · cases entry.confirmationThreshold with
      | none => exact fun _ => hneg
      | some _ => exact fun hrepaired => hrepaired.confirmation_neg
    · cases entry.healingThreshold with
      | none => exact fun _ => hnonneg
      | some _ => exact fun hrepaired => hrepaired.healing_nonneg

end EntityDebounceOverride

/-- The entries are sorted by the length of the prefix, longest first. `std::sort` leaves the
order among equal lengths open. -/
structure EntityThresholdResolver where
  entries : List EntityDebounceOverride
  longest_first : entries.Pairwise fun a b => b.entityPrefix.length ≤ a.entityPrefix.length

namespace EntityThresholdResolver

def resolve (resolver : EntityThresholdResolver) (sourceId : Str)
    (globalDefault : DebounceConfig) : DebounceConfig :=
  match resolver.entries.find? (·.covers sourceId) with
  | some entry => entry.merge globalDefault
  | none => globalDefault

def Loaded (resolver : EntityThresholdResolver) (overrides : List EntityDebounceOverride) : Prop :=
  resolver.entries.Perm overrides

structure Longest (overrides : List EntityDebounceOverride) (sourceId : Str)
    (entry : EntityDebounceOverride) : Prop where
  mem : entry ∈ overrides
  covers : entry.Covers sourceId
  longest : ∀ other ∈ overrides, other.Covers sourceId →
    other.entityPrefix.length ≤ entry.entityPrefix.length

theorem Longest.unique {overrides : List EntityDebounceOverride}
    (hdistinct : (overrides.map (·.entityPrefix)).Nodup) {sourceId : Str}
    {entry other : EntityDebounceOverride} (h : Longest overrides sourceId entry)
    (h' : Longest overrides sourceId other) : entry = other := by
  have hlen := le_antisymm (h'.longest entry h.mem h.covers) (h.longest other h'.mem h'.covers)
  exact List.inj_on_of_nodup_map hdistinct h.mem h'.mem (h.covers.eq_of_length h'.covers hlen)

theorem resolve_cases {resolver : EntityThresholdResolver}
    {overrides : List EntityDebounceOverride} (hloaded : resolver.Loaded overrides)
    (sourceId : Str) (globalDefault : DebounceConfig) : (∃ entry, Longest overrides sourceId entry ∧
      resolver.resolve sourceId globalDefault = entry.merge globalDefault) ∨
    ((∀ entry ∈ overrides, ¬ entry.Covers sourceId) ∧
      resolver.resolve sourceId globalDefault = globalDefault) := by
  unfold resolve
  split
  · rename_i entry hfind
    obtain ⟨hcovers, before, after, hentries, hbefore⟩ := List.find?_eq_some_iff_append.mp hfind
    refine .inl ⟨entry, ⟨?_, (entry.covers_iff _).mp hcovers, ?_⟩, rfl⟩
    · exact hloaded.mem_iff.mp (hentries ▸ List.mem_append_right _ List.mem_cons_self)
    · intro other hother hothers
      have hmem := hloaded.mem_iff.mpr hother
      have hsorted := resolver.longest_first
      rw [hentries] at hmem hsorted
      rcases List.mem_append.mp hmem with hmem | hmem
      · have := hbefore other hmem
        rw [(other.covers_iff _).mpr hothers] at this
        exact absurd this (by simp)
      · rcases List.mem_cons.mp hmem with rfl | hmem
        · exact le_rfl
        · exact (List.pairwise_cons.mp (List.pairwise_append.mp hsorted).2.1).1 other hmem
  · rename_i hfind
    refine .inr ⟨?_, rfl⟩
    intro entry hentry hcovers
    have := List.find?_eq_none.mp hfind entry (hloaded.mem_iff.mpr hentry)
    exact this ((entry.covers_iff _).mpr hcovers)

/-- The longest covering override decides, field by field, and the order in which the
overrides were loaded does not matter. Sanitised entries give a valid configuration. -/
theorem resolve_longest (overrides : List EntityDebounceOverride)
    (hdistinct : (overrides.map (·.entityPrefix)).Nodup) (globalConfig : DebounceConfig)
    (hglobal : globalConfig.Valid) (sourceId : Str) :
    (∀ resolver : EntityThresholdResolver, resolver.Loaded overrides →
      (∀ entry, Longest overrides sourceId entry →
        resolver.resolve sourceId globalConfig =
          { globalConfig with
            confirmationThreshold :=
              entry.confirmationThreshold.getD globalConfig.confirmationThreshold
            healingEnabled := entry.healingEnabled.getD globalConfig.healingEnabled
            healingThreshold := entry.healingThreshold.getD globalConfig.healingThreshold }) ∧
      ((∃ entry, Longest overrides sourceId entry) ∨
        (∀ entry ∈ overrides, ¬ entry.Covers sourceId) ∧
          resolver.resolve sourceId globalConfig = globalConfig)) ∧
    (∀ (reordered : List EntityDebounceOverride) (resolver resolver' : EntityThresholdResolver),
      reordered.Perm overrides → resolver.Loaded overrides → resolver'.Loaded reordered →
      resolver.resolve sourceId globalConfig = resolver'.resolve sourceId globalConfig) ∧
    (∀ resolver : EntityThresholdResolver,
      resolver.Loaded (overrides.map (·.sanitized globalConfig)) →
      (resolver.resolve sourceId globalConfig).confirmationThreshold < 0 ∧
        0 ≤ (resolver.resolve sourceId globalConfig).healingThreshold) := by
  have hresolve : ∀ resolver : EntityThresholdResolver, resolver.Loaded overrides →
      ∀ entry, Longest overrides sourceId entry →
        resolver.resolve sourceId globalConfig = entry.merge globalConfig := by
    intro resolver hloaded entry hentry
    rcases resolve_cases hloaded sourceId globalConfig with ⟨found, hfound, heq⟩ | ⟨hnone, -⟩
    · rw [heq, hfound.unique hdistinct hentry]
    · exact absurd hentry.covers (hnone entry hentry.mem)
  refine ⟨?_, ?_, ?_⟩
  · intro resolver hloaded
    refine ⟨fun entry hentry => hresolve resolver hloaded entry hentry, ?_⟩
    rcases resolve_cases hloaded sourceId globalConfig with ⟨entry, hentry, -⟩ | hnone
    · exact .inl ⟨entry, hentry⟩
    · exact .inr hnone
  · intro reordered resolver resolver' hperm hloaded hloaded'
    have hloaded' : resolver'.Loaded overrides := hloaded'.trans hperm
    rcases resolve_cases hloaded sourceId globalConfig with ⟨entry, hentry, heq⟩ | ⟨hnone, heq⟩
    · rw [heq, hresolve resolver' hloaded' entry hentry]
    · rcases resolve_cases hloaded' sourceId globalConfig with ⟨entry, hentry, -⟩ | ⟨-, heq'⟩
      · exact absurd hentry.covers (hnone entry hentry.mem)
      · rw [heq, heq']
  · intro resolver hloaded
    have hvalid : (resolver.resolve sourceId globalConfig).Valid := by
      rcases resolve_cases hloaded sourceId globalConfig with ⟨entry, hentry, heq⟩ | ⟨-, heq⟩
      · obtain ⟨loaded, -, rfl⟩ := List.mem_map.mp hentry.mem
        rw [heq]
        exact loaded.valid_merge_sanitized hglobal
      · rw [heq]
        exact hglobal
    exact ⟨hvalid.confirmation_neg, hvalid.healing_nonneg⟩

def sensorOverrides : List EntityDebounceOverride :=
  [{ entityPrefix := str "/sensors", confirmationThreshold := some (-5) },
    { entityPrefix := str "/sensors/lidar", healingThreshold := some (-1) }]

theorem resolve_longest_for_lidar :
    ∃ resolver : EntityThresholdResolver,
      resolver.Loaded (sensorOverrides.map (·.sanitized {})) ∧
      (resolver.resolve (str "/sensors/lidar/front") {}).confirmationThreshold = -1 ∧
      0 ≤ (resolver.resolve (str "/sensors/lidar/front") {}).healingThreshold := by
  let resolver : EntityThresholdResolver :=
    ⟨(sensorOverrides.map (·.sanitized {})).reverse, by decide⟩
  have hloaded : resolver.Loaded (sensorOverrides.map (·.sanitized {})) := List.reverse_perm _
  have hvalid := (resolve_longest sensorOverrides (by decide) {} ⟨by decide, by decide⟩
    (str "/sensors/lidar/front")).2.2 resolver hloaded
  exact ⟨resolver, hloaded, by decide, hvalid.2⟩

end EntityThresholdResolver

end Medkit.FaultManager
