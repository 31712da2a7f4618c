import Medkit.Lib.Machine
import Medkit.GraphWatchdog.LivenessSteps

/-! The presence tracker against the history of its calls: what it keeps about a key is the
number of updates in a row that missed it, so that a key is reported exactly when it has
been away for longer than the grace. The counters are `int` and not saturated, so this is about
runs of at most `INT_MAX` calls. -/
namespace Medkit.GraphWatchdog

open Lib

namespace NodeLivenessTracker

/-! ## Histories -/

inductive LivenessOp where
  | update (present armed : OSet Str)
  | prune (suppressed : OSet Str)
  | release (key : Str)

def livenessStep (t : NodeLivenessTracker) : LivenessOp → NodeLivenessTracker × Option NodeDeathReport
  | .update present armed => ((t.update present armed).1, some (t.update present armed).2)
  | .prune suppressed => (t.prune suppressed, none)
  | .release key => (t.release key, none)

def livenessMachine (c : LivenessSettings) :
    Machine NodeLivenessTracker LivenessOp (Option NodeDeathReport) where
  init := { settings := c }
  step := livenessStep

abbrev LivenessEvent := Event NodeLivenessTracker LivenessOp (Option NodeDeathReport)

/-- The armed keys are present ones, and none has the name of the count. -/
def Proper (_ : NodeLivenessTracker) : LivenessOp → Prop
  | .update present armed => (∀ key ∈ armed.toList, key ∈ present) ∧ kCollapsedKey ∉ armed
  | .prune _ => True
  | .release _ => True

instance decidableProper (t : NodeLivenessTracker) (op : LivenessOp) : Decidable (Proper t op) :=
  match op with
  | .update present armed =>
      inferInstanceAs (Decidable ((∀ key ∈ armed.toList, key ∈ present) ∧ kCollapsedKey ∉ armed))
  | .prune _ => isTrue trivial
  | .release _ => isTrue trivial

def absences (key : Str) : List LivenessEvent → Nat
  | [] => 0
  | event :: history =>
      match event.op with
      | .update present _ => if present.contains key then 0 else absences key history + 1
      | _ => absences key history

def namedCalls (key : Str) : List LivenessEvent → Nat
  | [] => 0
  | event :: history =>
      match event.op with
      | .prune suppressed => if suppressed.contains key then namedCalls key history + 1 else 0
      | _ => namedCalls key history

def Folds (event : LivenessEvent) (key : Str) : Prop :=
  ∃ present armed, event.op = .update present armed ∧
    (key ∈ event.before.known ∨ key ∈ armed) ∧ key ∉ (livenessStep event.before event.op).1.known

def Prunes (event : LivenessEvent) (key : Str) : Prop :=
  ∃ suppressed, event.op = .prune suppressed ∧ key ∈ event.before.known ∧
    key ∉ (livenessStep event.before event.op).1.known

def Arms (event : LivenessEvent) (key : Str) : Prop :=
  ∃ present armed, event.op = .update present armed ∧ key ∈ armed

/-- Armed at some time, and not released, pruned or folded into the count since. -/
def Watched (key : Str) : List LivenessEvent → Prop
  | [] => False
  | event :: history =>
      (Arms event key ∨ Watched key history) ∧ event.op ≠ .release key ∧ ¬ Prunes event key ∧
        ¬ Folds event key

theorem absences_update (t : NodeLivenessTracker) (present armed : OSet Str)
    (out : Option NodeDeathReport) (key : Str) (history : List LivenessEvent) :
    absences key (⟨t, .update present armed, out⟩ :: history) =
      if present.contains key then 0 else absences key history + 1 := rfl

variable {present armed : OSet Str} {out : Option NodeDeathReport}

theorem arms_update {t : NodeLivenessTracker} {key : Str} :
    Arms ⟨t, .update present armed, out⟩ key ↔ key ∈ armed := by
  constructor
  · rintro ⟨_, _, ⟨⟩, hkey⟩
    exact hkey
  · exact fun hkey => ⟨present, armed, rfl, hkey⟩

theorem folds_update {t : NodeLivenessTracker} {key : Str} :
    Folds ⟨t, .update present armed, out⟩ key ↔
      (key ∈ t.known ∨ key ∈ armed) ∧ key ∉ (t.update present armed).1.known := by
  constructor
  · rintro ⟨_, _, ⟨⟩, hkey⟩
    exact hkey
  · exact fun hkey => ⟨present, armed, rfl, hkey⟩

theorem not_prunes_update {t : NodeLivenessTracker} {key : Str} :
    ¬ Prunes ⟨t, .update present armed, out⟩ key := by
  rintro ⟨_, ⟨⟩, -⟩

/-! ## The invariant -/

variable {c : LivenessSettings} {t t' : NodeLivenessTracker} {key : Str}
  {history : List LivenessEvent} {event : LivenessEvent}

structure LivenessInv (c : LivenessSettings) (history : List LivenessEvent) (t : NodeLivenessTracker) :
    Prop where
  settings : t.settings = c
  watched : ∀ key, key ∈ t.known ↔ Watched key history
  slot : ∀ key, t.slot key = {} ∨
    ((t.slot key).known = true ∧ (t.slot key).misses = some (absences key history : Int))
  streak : ∀ key, (t.slot key).streak.getD 0 ≤ (namedCalls key history : Int)
  plain : kCollapsedKey ∉ t.known

theorem livenessInv_init (c : LivenessSettings) : LivenessInv c [] (livenessMachine c).init where
  settings := rfl
  watched key := by simp [livenessMachine, Watched]
  slot key := .inl (by simp [livenessMachine, slot])
  streak key := by simp [livenessMachine, slot]
  plain := by simp [livenessMachine]

theorem mem_known_iff_slot : key ∈ t.known ↔ (t.slot key).known = true := Iff.rfl

theorem LivenessInv.of_slot_known (h : LivenessInv c history t) (hkey : key ∈ t.known) :
    (t.slot key).misses = some (absences key history : Int) := by
  rcases h.slot key with hnew | ⟨-, hmisses⟩
  · rw [mem_known_iff_slot, hnew] at hkey
    contradiction
  · exact hmisses

theorem LivenessInv.release (h : LivenessInv c history t) (key : Str) :
    LivenessInv c (⟨t, .release key, none⟩ :: history) (t.release key) where
  settings := h.settings
  watched other := by
    simp only [Watched, Arms, Prunes, Folds, reduceCtorEq, false_and, exists_false, not_false_eq_true,
      and_true, false_or, LivenessOp.release.injEq, ne_eq, ← h.watched]
    rw [show (t.release key).known = t.known.erase key from rfl, OSet.mem_erase_iff, and_comm,
      ne_comm]
  slot other := by
    by_cases hne : other = key
    · subst hne
      exact .inl (slot_release_self t other)
    · rw [slot_release_of_ne hne]
      exact h.slot other
  streak other := by
    by_cases hne : other = key
    · subst hne
      rw [slot_release_self]
      exact Int.natCast_nonneg _
    · rw [slot_release_of_ne hne]
      exact h.streak other
  plain hmem := h.plain (OSet.mem_erase_iff.mp hmem).2

theorem nextStreak_le {suppressed : OSet Str} {slot : KeySlot}
    (h : slot.streak.getD 0 ≤ (namedCalls key history : Int)) :
    nextStreak suppressed key slot.streak ≤
      (namedCalls key (⟨t, .prune suppressed, out⟩ :: history) : Int) := by
  unfold nextStreak namedCalls
  dsimp only
  split
  · push_cast
    omega
  · exact le_rfl

theorem LivenessInv.prune (h : LivenessInv c history t) (suppressed : OSet Str) :
    LivenessInv c (⟨t, .prune suppressed, none⟩ :: history) (t.prune suppressed) := by
  obtain ⟨hsettings, hslot⟩ := slot_prune t suppressed
  have hknown (key : Str) (hkey : key ∈ (t.prune suppressed).known) : key ∈ t.known := by
    by_contra hnot
    rw [mem_known_iff_slot, hslot, if_neg hnot] at hkey
    exact hnot hkey
  constructor
  case settings => exact hsettings.trans h.settings
  case watched =>
    intro key
    simp only [Watched, Arms, Prunes, Folds, reduceCtorEq, false_and, exists_false,
      not_false_eq_true, and_true, false_or, LivenessOp.prune.injEq, ne_eq, ← h.watched,
      exists_eq_left', true_and, livenessStep]
    constructor
    · exact fun hkey => ⟨hknown key hkey, fun hgone => hgone.2 hkey⟩
    · rintro ⟨hold, hkept⟩
      by_contra hnot
      exact hkept ⟨hold, hnot⟩
  case slot =>
    intro key
    rw [hslot]
    split
    · rename_i hkey
      have hmisses := h.of_slot_known hkey
      unfold pruned
      dsimp only
      split
      · exact .inl rfl
      · exact .inr ⟨hkey, hmisses⟩
    · exact h.slot key
  case streak =>
    intro key
    rw [hslot]
    split
    · unfold pruned
      dsimp only
      split
      · exact Int.natCast_nonneg _
      · exact nextStreak_le (h.streak key)
    · rename_i hkey
      rw [(h.slot key).resolve_right fun hold => hkey hold.1]
      exact Int.natCast_nonneg _
  case plain => exact fun hmem => h.plain (hknown _ hmem)

theorem streak_touched (present armed : OSet Str) (key : Str) (slot : KeySlot) :
    (touched present armed key slot).streak = slot.streak := by
  unfold touched
  split <;> rfl

theorem LivenessInv.slot_touched (h : LivenessInv c history t)
    (hpresent : ∀ key ∈ armed.toList, key ∈ present) (out : Option NodeDeathReport) (key : Str) :
    touched present armed key (t.slot key) = {} ∨
      ((touched present armed key (t.slot key)).known = true ∧
        (touched present armed key (t.slot key)).misses =
          some (absences key (⟨t, .update present armed, out⟩ :: history) : Int)) := by
  unfold touched
  split
  · rename_i hkey
    refine .inr ⟨rfl, congrArg some ?_⟩
    rw [absences_update]
    split
    · rfl
    · rename_i habsent
      -- a key that is armed for the first time is present
      have hold : key ∈ t.known := by
        rcases hkey with hold | harmed
        · exact hold
        · exact absurd (hpresent key (Std.ExtTreeSet.mem_toList.mpr harmed)) habsent
      rw [h.of_slot_known hold]
      push_cast
      rfl
  · rename_i hkey
    exact .inl ((h.slot key).resolve_right fun hold => hkey (.inl hold.1))

theorem LivenessInv.update (h : LivenessInv c history t)
    (hproper : Proper t (.update present armed)) (out : Option NodeDeathReport) :
    LivenessInv c (⟨t, .update present armed, out⟩ :: history) (t.update present armed).1 := by
  obtain ⟨hsettings, hslot, -, -⟩ := updates_update t present armed
  obtain ⟨hpresent, hplain⟩ := hproper
  have hknown (key : Str) (hkey : key ∈ (t.update present armed).1.known) :
      key ∈ armed ∨ key ∈ t.known := by
    rw [mem_known_iff_slot] at hkey
    rcases hslot key with heq | ⟨hgone, -⟩
    · by_contra hnot
      rw [heq, touched, if_neg fun hor => hnot hor.symm] at hkey
      exact hnot (.inr hkey)
    · rw [hgone] at hkey
      contradiction
  constructor
  case settings => exact hsettings.trans h.settings
  case watched =>
    intro key
    simp only [Watched, arms_update, folds_update, not_prunes_update, ne_eq, reduceCtorEq,
      not_false_eq_true, true_and, ← h.watched]
    constructor
    · exact fun hkey => ⟨hknown key hkey, fun hgone => hgone.2 hkey⟩
    · rintro ⟨hold, hkept⟩
      by_contra hnot
      exact hkept ⟨hold.symm, hnot⟩
  case slot =>
    intro key
    rcases hslot key with heq | ⟨hgone, -⟩
    · rw [heq]
      exact h.slot_touched hpresent out key
    · exact .inl hgone
  case streak =>
    intro key
    have hstreak := h.streak key
    rcases hslot key with heq | ⟨hgone, -⟩
    · rw [heq, streak_touched]
      exact hstreak
    · rw [hgone]
      exact Int.natCast_nonneg _
  case plain =>
    intro hmem
    rcases hknown _ hmem with harmed | hold
    · exact hplain harmed
    · exact h.plain hold

theorem livenessInv_of_runs (hrun : (livenessMachine c).Runs Proper history t) :
    LivenessInv c history t := by
  apply hrun.invariant (LivenessInv c) (livenessInv_init c)
  intro history t op _ hproper h
  cases op with
  | update present armed => exact h.update hproper _
  | prune suppressed => exact h.prune suppressed
  | release key => exact h.release key

/-! ## What holds of a call -/

def after (event : LivenessEvent) : NodeLivenessTracker := (livenessStep event.before event.op).1

/-- The counts that a call computes for a key, before anything is folded or pruned. -/
def counted (event : LivenessEvent) (key : Str) : Option Int :=
  match event.op with
  | .update present armed => ((event.before.admitArmed armed).countMisses present).misses[key]?
  | .prune suppressed => some (nextStreak suppressed key event.before.suppressedStreak[key]?)
  | .release _ => none

structure LivenessSound (c : LivenessSettings) (event : LivenessEvent) (history : List LivenessEvent) :
    Prop where
  dead : ∀ r, event.out = some r → ∀ key, Watched key (event :: history) →
    r.dead[key]? =
      if c.missGrace < absences key (event :: history) then
        some (deadDetail key (absences key (event :: history)))
      else none
  folded : ∀ key, Folds event key → c.missGrace < absences key (event :: history) ∧
    event.before.collapsedDeadCount < (after event).collapsedDeadCount
  presentKept : ∀ present armed, event.op = .update present armed → ∀ key, key ∈ present →
    ¬ Folds event key
  listed : ∀ r, event.out = some r → ∃ named : List Str,
    r.keysByFreshness = (if 0 < (after event).collapsedDeadCount then [kCollapsedKey] else []) ++ named ∧
    r.keysByFreshness.Nodup ∧ (∀ key, key ∈ r.keysByFreshness ↔ key ∈ r.dead) ∧
    (∀ key ∈ named, Watched key (event :: history)) ∧
    named.Pairwise fun key key' => absences key (event :: history) ≤ absences key' (event :: history)
  cap : ∀ r present armed, event.out = some r → event.op = .update present armed →
    r.trackingSaturated = false →
    (((after event).known.toList.filter fun key => !present.contains key).length : Int) ≤
      max 1 c.trackedKeyCap
  pruned : ∀ key, Prunes event key → c.pruneTicks < namedCalls key (event :: history)
  inRange : ∀ key, ∀ n ∈ counted event key, n ≤ intMax

theorem countsWithin_of_runs (hrun : (livenessMachine c).Runs Proper history t) :
    t.CountsWithin history.length history.length := by
  apply hrun.invariant (fun history t => t.CountsWithin history.length history.length)
  · exact fun key => ⟨le_rfl, le_rfl⟩
  · intro history t op _ _ h
    cases op with
    | update present armed => exact (countsWithin_update h present armed).mono le_rfl (Nat.le_succ _)
    | prune suppressed => exact (countsWithin_prune h suppressed).mono (Nat.le_succ _) le_rfl
    | release key => exact (countsWithin_release h key).mono (Nat.le_succ _) (Nat.le_succ _)

theorem inRange_of_countsWithin (h : t.CountsWithin history.length history.length)
    (hcalls : (history.length : Int) < intMax) (op : LivenessOp) (out : Option NodeDeathReport)
    {n : Int} (hn : n ∈ counted ⟨t, op, out⟩ key) : n ≤ intMax := by
  cases op with
  | update present armed =>
    have hkey : ((t.admitArmed armed).countMisses present).misses[key]?.getD 0 ≤ _ :=
      (countsWithin_countMisses h present armed key).1
    have hcounted : ((t.admitArmed armed).countMisses present).misses[key]? = some n := hn
    rw [hcounted, Option.getD_some] at hkey
    omega
  | prune suppressed =>
    obtain rfl := Option.some.inj hn
    exact (nextStreak_le_succ h suppressed key).trans (by omega)
  | release released => cases hn

theorem LivenessInv.misses (h : LivenessInv c history t) (hkey : key ∈ t.known) :
    t.misses[key]?.getD 0 = (absences key history : Int) := by
  have hslot : t.misses[key]? = some (absences key history : Int) := h.of_slot_known hkey
  rw [hslot, Option.getD_some]

theorem LivenessInv.deadLine_eq (h : LivenessInv c history t) (hkey : key ∈ t.known) :
    t.deadLine key =
      if c.missGrace < absences key history then some (deadDetail key (absences key history))
      else none := by
  unfold deadLine
  rw [h.misses hkey, h.settings]
  simp [hkey]

theorem mem_known_of_mem_namedKeys (h : key ∈ t.namedKeys) : key ∈ t.known := by
  by_contra hnot
  rw [mem_namedKeys, deadLine, if_neg fun hdead => hnot hdead.1] at h
  contradiction

theorem absent_of_folds (h : LivenessInv c history t) (hproper : Proper t (.update present armed))
    (out : Option NodeDeathReport) (hfolds : Folds ⟨t, .update present armed, out⟩ key) :
    c.missGrace < absences key (⟨t, .update present armed, out⟩ :: history) ∧
      t.collapsedDeadCount < (t.update present armed).1.collapsedDeadCount := by
  obtain ⟨hkey, hgone⟩ := folds_update.mp hfolds
  have htouched := h.slot_touched hproper.1 out key
  rcases (updates_update t present armed).slot key with heq | ⟨-, hcount, misses, hmisses, hpast⟩
  · have hkey : (t.slot key).known = true ∨ key ∈ armed := hkey
    rw [mem_known_iff_slot, heq, touched, if_pos hkey] at hgone
    exact absurd rfl hgone
  · refine ⟨?_, hcount⟩
    rcases htouched with hnew | ⟨-, habsences⟩
    · rw [hnew] at hmisses
      cases hmisses
    · rw [habsences] at hmisses
      cases hmisses
      rwa [h.settings] at hpast

theorem LivenessInv.length_absent_le (h : LivenessInv c history t)
    (habsent : ∀ key, present.contains key = false → 0 < absences key history) :
    (t.known.toList.filter fun key => !present.contains key).length ≤ t.departedCount := by
  have hkeys : ∀ key ∈ t.known.toList.filter fun key => !present.contains key,
      key ∈ (t.misses.toList.filter fun entry => entry.2 > 0).map Prod.fst := by
    intro key hkey
    obtain ⟨hknown, hgone⟩ := List.mem_filter.mp hkey
    rw [Std.ExtTreeSet.mem_toList] at hknown
    have hmisses : t.misses[key]? = some (absences key history : Int) := h.of_slot_known hknown
    have hpositive := habsent key (by simpa using hgone)
    refine List.mem_map.mpr ⟨(key, absences key history), List.mem_filter.mpr ⟨?_, ?_⟩, rfl⟩
    · exact Std.ExtTreeMap.mem_toList_iff_getElem?_eq_some.mpr hmisses
    · simpa using hpositive
  have hnodup := (OSet.nodup_toList t.known).filter fun key => !present.contains key
  have hle := (hnodup.subperm hkeys).length_le
  rwa [List.length_map] at hle

theorem LivenessInv.sound_update (hgrace : 0 ≤ c.missGrace) (h : LivenessInv c history t)
    (hproper : Proper t (.update present armed))
    (hrange : ∀ key, ∀ n ∈ counted ⟨t, .update present armed,
      some (t.update present armed).2⟩ key, n ≤ intMax) :
    LivenessSound c ⟨t, .update present armed, some (t.update present armed).2⟩ history := by
  have hafter := h.update hproper (some (t.update present armed).2)
  obtain ⟨hdead, hmem, hkeys⟩ := report_update t present armed
  constructor
  case dead =>
    rintro _ ⟨⟩ key hwatched
    have hkey := (hafter.watched key).mpr hwatched
    have hne : key ≠ kCollapsedKey := fun heq => hafter.plain (heq ▸ hkey)
    rw [hdead key hne]
    exact hafter.deadLine_eq hkey
  case folded => exact fun key hfolds => absent_of_folds h hproper _ hfolds
  case presentKept =>
    rintro _ _ ⟨⟩ key hkey hfolds
    have hpast := (absent_of_folds h hproper _ hfolds).1
    have hcontains : present.contains key = true := hkey
    rw [absences_update, if_pos hcontains] at hpast
    omega
  case listed =>
    rintro _ ⟨⟩
    refine ⟨_, hkeys, ?_, ?_, ?_, ?_⟩
    · rw [hkeys]
      have hnamed := nodup_namedKeys (t.update present armed).1
      split
      · refine List.nodup_cons.mpr ⟨?_, hnamed⟩
        exact fun hcount => hafter.plain (mem_known_of_mem_namedKeys hcount)
      · exact hnamed
    · intro key
      rw [hkeys, hmem, List.mem_append]
      split <;> simp_all [or_comm]
    · exact fun key hkey => (hafter.watched key).mp (mem_known_of_mem_namedKeys hkey)
    · refine (pairwise_namedKeys (t.update present armed).1).imp_of_mem ?_
      intro key key' hkey hkey' hle
      rw [hafter.misses (mem_known_of_mem_namedKeys hkey),
        hafter.misses (mem_known_of_mem_namedKeys hkey')] at hle
      exact Int.ofNat_le.mp hle
  case cap =>
    rintro _ _ _ ⟨⟩ ⟨⟩ hroom
    have hcap := (updates_update t present armed).cap hroom
    have habsent (key : Str) (hgone : present.contains key = false) : 0 < absences key
        (⟨t, .update present armed, some (t.update present armed).2⟩ :: history) := by
      rw [absences_update, hgone]
      exact Nat.succ_pos _
    have hle := (hafter.length_absent_le habsent).trans hcap
    rw [h.settings] at hle
    unfold LivenessSettings.keyCap at hle
    refine (Int.ofNat_le.mpr hle).trans ?_
    split <;> omega
  case pruned => exact fun key hprunes => absurd hprunes not_prunes_update
  case inRange => exact hrange

theorem LivenessInv.sound_prune (h : LivenessInv c history t) (suppressed : OSet Str)
    (hrange : ∀ key, ∀ n ∈ counted ⟨t, .prune suppressed, none⟩ key, n ≤ intMax) :
    LivenessSound c ⟨t, .prune suppressed, none⟩ history where
  dead := nofun
  folded := by
    rintro key ⟨_, _, ⟨⟩, -⟩
  presentKept := nofun
  listed := nofun
  cap := nofun
  pruned := by
    rintro key ⟨_, ⟨⟩, hkey, hgone⟩
    have hle : nextStreak suppressed key (t.slot key).streak ≤
        (namedCalls key (⟨t, .prune suppressed, none⟩ :: history) : Int) := nextStreak_le (h.streak key)
    rw [livenessStep, mem_known_iff_slot, (slot_prune t suppressed).2, if_pos hkey, h.settings] at hgone
    unfold pruned at hgone
    dsimp only at hgone
    split at hgone
    · exact lt_of_lt_of_le ‹_› hle
    · exact absurd hkey hgone
  inRange := hrange

/-- The ranges in which the `int` counters can tell a death: the grace is one that they can
exceed, the run is not longer than they can count, and so is the collapsed count. -/
structure Countable (c : LivenessSettings) (history : List LivenessEvent)
    (t' : NodeLivenessTracker) : Prop where
  grace : 0 ≤ c.missGrace ∧ c.missGrace < intMax
  calls : (history.length : Int) < intMax
  collapsed : (t'.collapsedDeadCount : Int) ≤ intMax

theorem liveness_matches_history (hrun : (livenessMachine c).Runs Proper history t)
    (op : LivenessOp) (hproper : Proper t op)
    (hcount : Countable c history (livenessStep t op).1) :
    LivenessSound c ⟨t, op, (livenessStep t op).2⟩ history := by
  have h := livenessInv_of_runs hrun
  have hrange (key : Str) (n : Int) (hn : n ∈ counted ⟨t, op, (livenessStep t op).2⟩ key) :
      n ≤ intMax := inRange_of_countsWithin (countsWithin_of_runs hrun) hcount.calls op _ hn
  cases op with
  | update present armed => exact h.sound_update hcount.grace.1 hproper hrange
  | prune suppressed => exact h.sound_prune suppressed hrange
  | release key =>
    constructor
    case folded =>
      rintro key ⟨_, _, ⟨⟩, -⟩
    case pruned =>
      rintro key ⟨_, ⟨⟩, -⟩
    all_goals exact nofun

def keySet (keys : List Str) : OSet Str := Std.ExtTreeSet.ofList keys compare

/-- A camera that leaves and is not named after one missed update, but after two. -/
theorem liveness_matches_history_of_camera :
    let c : LivenessSettings := { missGrace := 1 }
    let here := LivenessOp.update (keySet [str "/camera"]) (keySet [str "/camera"])
    let gone := LivenessOp.update ∅ ∅
    let m := livenessMachine c
    let t := m.exec m.init [here, gone]
    LivenessSound c ⟨t, gone, (livenessStep t gone).2⟩ (m.history [] m.init [here, gone]) :=
  liveness_matches_history (Machine.Runs.start.exec _ (by decide)) _ (by decide)
    ⟨by decide, by decide, by decide⟩

/-- With a negative grace a key that is present is folded into the count. A cap of zero keeps
one departed key. A key that is armed while it is away has missed only one update. -/
theorem present_key_folded :
    let a := str "/a"
    let b := str "/b"
    let d := str "/d"
    let eager : LivenessSettings := { missGrace := -1, trackedKeyCap := 1 }
    let capless : LivenessSettings := { missGrace := 1, trackedKeyCap := 0 }
    let all := LivenessOp.update (keySet [a, b, d]) (keySet [a, b, d])
    let here := LivenessOp.update (keySet [a]) (keySet [a])
    let gone := LivenessOp.update ∅ ∅
    let t := (livenessMachine eager).exec (livenessMachine eager).init [all]
    let t' := (livenessMachine capless).exec (livenessMachine capless).init [here]
    let t'' := (livenessMachine capless).exec (livenessMachine capless).init [gone, gone]
    (d ∈ t.known ∧ d ∉ (t.update (keySet [d]) (keySet [d])).1.known) ∧
      ((t'.update ∅ ∅).2.trackingSaturated = false ∧
        capless.trackedKeyCap < ((t'.update ∅ ∅).1.known.toList.length : Int)) ∧
      a ∉ (t''.update ∅ (keySet [a])).2.dead := by
  decide

end NodeLivenessTracker

end Medkit.GraphWatchdog
