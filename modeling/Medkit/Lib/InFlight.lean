import Medkit.Lib.OrderedMap

/-! Calls in flight. A concurrent program is a machine whose operations are the
atomic steps of its calls. The calls that have started and not yet returned are part
of its state, each under a number that is given out once. -/
namespace Lib

structure InFlight (γ : Type) where
  calls : OMap Nat γ := ∅
  last : Nat := 0
  le_last : ∀ (id : Nat) (call : γ), calls[id]? = some call → id ≤ last := by simp

namespace InFlight

variable {γ : Type} {P Q : Nat → γ → Prop} {f : InFlight γ}

def start (f : InFlight γ) (call : γ) : InFlight γ where
  calls := f.calls.insert (f.last + 1) call
  last := f.last + 1
  le_last := by
    intro id other h
    rw [Std.ExtTreeMap.getElem?_insert] at h
    split at h
    · rename_i heq
      exact (Nat.compare_eq_eq.mp heq).ge
    · exact (f.le_last id other h).trans (Nat.le_succ _)

def update (f : InFlight γ) (id : Nat) (g : γ → γ) : InFlight γ where
  calls := f.calls.modify id g
  last := f.last
  le_last := by
    intro other call h
    rw [Std.ExtTreeMap.getElem?_modify] at h
    split at h
    · rename_i heq
      obtain ⟨call', hcall, -⟩ := Option.map_eq_some_iff.mp h
      exact (Nat.compare_eq_eq.mp heq) ▸ f.le_last id call' hcall
    · exact f.le_last other call h

def finish (f : InFlight γ) (id : Nat) : InFlight γ where
  calls := f.calls.erase id
  last := f.last
  le_last := by
    intro other call h
    rw [Std.ExtTreeMap.getElem?_erase] at h
    split at h
    · cases h
    · exact f.le_last other call h

def map (f : InFlight γ) (g : γ → γ) : InFlight γ where
  calls := f.calls.map fun _ call => g call
  last := f.last
  le_last := by
    intro id call h
    rw [Std.ExtTreeMap.getElem?_map] at h
    obtain ⟨call', hcall, -⟩ := Option.map_eq_some_iff.mp h
    exact f.le_last id call' hcall

/-! ## What holds of every call -/

def All (P : Nat → γ → Prop) (f : InFlight γ) : Prop :=
  ∀ (id : Nat) (call : γ), f.calls[id]? = some call → P id call

instance [∀ id call, Decidable (P id call)] : Decidable (f.All P) :=
  decidable_of_iff (∀ entry ∈ f.calls.toList, P entry.1 entry.2) <| by
    simp only [All, Prod.forall, Std.ExtTreeMap.mem_toList_iff_getElem?_eq_some]

theorem All.imp (h : f.All P) (hpq : ∀ id call, f.calls[id]? = some call → P id call → Q id call) :
    f.All Q :=
  fun id call hcall => hpq id call hcall (h id call hcall)

theorem All.start {call : γ} (h : f.All P) (hnew : P (f.last + 1) call) : (f.start call).All P := by
  intro id other hother
  rw [InFlight.start, Std.ExtTreeMap.getElem?_insert] at hother
  split at hother
  · rename_i heq
    obtain rfl := Nat.compare_eq_eq.mp heq
    obtain rfl := Option.some.inj hother
    exact hnew
  · exact h id other hother

theorem All.update {id : Nat} {g : γ → γ} (h : f.All P)
    (hid : ∀ call, f.calls[id]? = some call → P id (g call)) : (f.update id g).All P := by
  intro other call hcall
  rw [InFlight.update, Std.ExtTreeMap.getElem?_modify] at hcall
  split at hcall
  · rename_i heq
    obtain rfl := Nat.compare_eq_eq.mp heq
    obtain ⟨call', hcall', rfl⟩ := Option.map_eq_some_iff.mp hcall
    exact hid call' hcall'
  · exact h other call hcall

theorem All.finish (h : f.All P) (id : Nat) : (f.finish id).All P := by
  intro other call hcall
  rw [InFlight.finish, Std.ExtTreeMap.getElem?_erase] at hcall
  split at hcall
  · cases hcall
  · exact h other call hcall

theorem All.map {g : γ → γ} (h : f.All fun id call => P id (g call)) : (f.map g).All P := by
  intro id call hcall
  rw [InFlight.map, Std.ExtTreeMap.getElem?_map] at hcall
  obtain ⟨call', hcall', rfl⟩ := Option.map_eq_some_iff.mp hcall
  exact h id call' hcall'

end InFlight

end Lib
