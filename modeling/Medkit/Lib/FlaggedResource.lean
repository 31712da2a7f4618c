import Mathlib

/-! A resource that is kept while someone wants it. Acquiring and releasing are calls that
hold no lock, so a flag says who has to make them: it is set before the resource is
acquired and taken back before it is released. A release that has been overtaken by a new
wish is repaired: the one who made it looks at the wishes again, takes the flag back and
sets it anew. No wish may be dropped while somebody relies on it. -/
namespace Lib.FlaggedResource

variable {α : Type}

inductive Stage where
  | flag
  | acquire
  | release
  | recheck
  | repair
deriving DecidableEq

structure State (α : Type) where
  wanted : Set α
  flagged : Set α
  held : Set α
  stages : Multiset (Stage × α)

/-- `s` are the stages of the other calls. -/
inductive Step (st : State α) : State α → Prop
  | wish (x : α) :
      Step st { st with wanted := insert x st.wanted, stages := (.flag, x) ::ₘ st.stages }
  | forget {w : Set α} : w ⊆ st.wanted →
      (∀ x ∈ st.wanted, x ∉ w → ∀ stage, (stage, x) ∈ st.stages → stage = .acquire) →
      Step st { st with wanted := w }
  | settled {x : α} {s} : st.stages = (.flag, x) ::ₘ s → x ∈ st.flagged →
      Step st { st with stages := s }
  | flag {x : α} {s} : st.stages = (.flag, x) ::ₘ s →
      Step st { st with flagged := insert x st.flagged, stages := (.acquire, x) ::ₘ s }
  | acquire {x : α} {s} : st.stages = (.acquire, x) ::ₘ s →
      Step st { st with held := insert x st.held, stages := s }
  | unflag {x : α} : x ∉ st.wanted →
      Step st { st with flagged := st.flagged \ {x}, stages := (.release, x) ::ₘ st.stages }
  | release {x : α} {s} : st.stages = (.release, x) ::ₘ s →
      Step st { st with held := st.held \ {x}, stages := (.recheck, x) ::ₘ s }
  | unwanted {x : α} {s} : st.stages = (.recheck, x) ::ₘ s → x ∉ st.wanted →
      Step st { st with stages := s }
  | overtaken {x : α} {s} : st.stages = (.recheck, x) ::ₘ s → x ∈ st.wanted →
      Step st { st with stages := (.repair, x) ::ₘ s }
  | repair {x : α} {s} : st.stages = (.repair, x) ::ₘ s →
      Step st { st with flagged := st.flagged \ {x}, stages := (.flag, x) ::ₘ s }

structure Inv (st : State α) : Prop where
  /-- a flag stands for the resource or for a call that will see to it -/
  flagged : ∀ x ∈ st.flagged, x ∈ st.held ∨ (.acquire, x) ∈ st.stages ∨
    (.recheck, x) ∈ st.stages ∨ (.repair, x) ∈ st.stages
  wanted : ∀ x ∈ st.wanted, x ∈ st.flagged ∨ (.flag, x) ∈ st.stages
  /-- who is about to set the flag does it for someone -/
  acquires : ∀ x, (.flag, x) ∈ st.stages ∨ (.repair, x) ∈ st.stages → x ∈ st.wanted
  /-- a flag that was set since a release began was set for someone -/
  releases : ∀ x, (.release, x) ∈ st.stages ∨ (.recheck, x) ∈ st.stages → x ∈ st.flagged →
    x ∈ st.wanted

theorem Inv.start : Inv (⟨∅, ∅, ∅, 0⟩ : State α) := by
  constructor <;> simp

theorem Inv.step {st st' : State α} (hstep : Step st st') (h : Inv st) : Inv st' := by
  obtain ⟨hflagged, hwanted, hacquires, hreleases⟩ := h
  cases hstep with
  | wish x => constructor <;> grind
  | forget hsub hrely => constructor <;> grind
  | settled hstages hx => constructor <;> grind
  | @flag x _ hstages =>
    -- a release in flight will find the wish that the flag is set for
    have hx : x ∈ st.wanted := hacquires x (.inl (hstages ▸ Multiset.mem_cons_self _ _))
    constructor <;> grind
  | acquire hstages => constructor <;> grind
  | unflag hx => constructor <;> grind
  | release hstages => constructor <;> grind
  | @unwanted x _ hstages hx =>
    -- nobody has set the flag since, so that nothing has to be repaired
    have hunflagged : x ∉ st.flagged := fun hf =>
      hx (hreleases x (.inr (hstages ▸ Multiset.mem_cons_self _ _)) hf)
    constructor <;> grind
  | overtaken hstages hx => constructor <;> grind
  | @repair x _ hstages =>
    have hx : x ∈ st.wanted := hacquires x (.inr (hstages ▸ Multiset.mem_cons_self _ _))
    constructor <;> grind

theorem Inv.held {st : State α} (h : Inv st) (hidle : st.stages = 0) : st.wanted ⊆ st.held := by
  intro x hx
  have hx := h.wanted x hx
  rw [hidle] at hx
  have hx := h.flagged x (by simpa using hx)
  rw [hidle] at hx
  simpa using hx

end Lib.FlaggedResource
