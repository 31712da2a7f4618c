import Mathlib

/-! A loop over distinct keys whose step only touches what is kept for its own key: in the
end each key of the list has taken its one step, and the others none. -/
namespace Lib

theorem foldl_keyed {σ κ β : Type} [DecidableEq κ] {g : σ → κ → σ} {v : σ → κ → β}
    {f : κ → β → β} {I : σ → Prop} (hI : ∀ s k, I s → I (g s k))
    (hself : ∀ s k, I s → v (g s k) k = f k (v s k))
    (hother : ∀ s k key, I s → key ≠ k → v (g s k) key = v s key)
    {keys : List κ} (hnodup : keys.Nodup) {s : σ} (hs : I s) :
    I (keys.foldl g s) ∧ ∀ key, v (keys.foldl g s) key =
      if key ∈ keys then f key (v s key) else v s key := by
  induction keys generalizing s with
  | nil => exact ⟨hs, fun key => by simp⟩
  | cons k keys ih =>
    rw [List.nodup_cons] at hnodup
    obtain ⟨hinv, hview⟩ := ih hnodup.2 (hI s k hs)
    refine ⟨hinv, fun key => ?_⟩
    rw [List.foldl_cons, hview key]
    by_cases hkey : key = k
    · subst hkey
      simp [hnodup.1, hself s key hs]
    · simp [hkey, hother s k key hs hkey]

end Lib
