import Mathlib

/-! Computations with a state that may fail, the state at the failure included: what such a
computation keeps of its state and promises of its result, and when it returns one, with a rule for
each way to build one. -/
namespace Lib

variable {σ ε α β : Type}

/-- From a state with `inv` the computation ends in one with `inv`, also when it fails. What it
returns satisfies `post`, and the state is then `sound` exactly if it was before and what is
returned satisfies `cond`. -/
def Ensures (inv sound : σ → Prop) (m : ExceptT ε (StateM σ) α) (post cond : α → Prop) : Prop :=
  ∀ s, inv s → inv (m.run.run s).2 ∧ ∀ a, (m.run.run s).1 = .ok a →
    post a ∧ (sound (m.run.run s).2 ↔ sound s ∧ cond a)

namespace Ensures

variable {inv sound : σ → Prop} {m : ExceptT ε (StateM σ) α} {post cond : α → Prop}

theorem weaken {post' cond' : α → Prop} (h : Ensures inv sound m post cond)
    (hpost : ∀ a, post a → post' a ∧ (cond' a ↔ cond a)) : Ensures inv sound m post' cond' := by
  intro s hs
  refine ⟨(h s hs).1, fun a ha => ?_⟩
  obtain ⟨hp, hsound⟩ := (h s hs).2 a ha
  obtain ⟨hp', hcond⟩ := hpost a hp
  exact ⟨hp', hsound.trans (and_congr_right fun _ => hcond.symm)⟩

theorem pure {a : α} (hpost : post a) (hcond : cond a) :
    Ensures inv sound (Pure.pure a : ExceptT ε (StateM σ) α) post cond := by
  intro s hs
  refine ⟨hs, fun b hb => ?_⟩
  obtain rfl : a = b := Except.ok.inj hb
  exact ⟨hpost, (and_iff_left hcond).symm⟩

theorem throw (e : ε) :
    Ensures inv sound (MonadExcept.throw e : ExceptT ε (StateM σ) α) post cond :=
  fun _ hs => ⟨hs, nofun⟩

theorem run_bind (m : ExceptT ε (StateM σ) α) (f : α → ExceptT ε (StateM σ) β) (s : σ) :
    (m >>= f).run.run s =
      match m.run.run s with
      | (.ok a, s') => (f a).run.run s'
      | (.error e, s') => (.error e, s') := by
  simp only [ExceptT.run_bind, StateT.run_bind]
  rcases m.run.run s with ⟨r, s'⟩
  cases r <;> rfl

theorem bind {f : α → ExceptT ε (StateM σ) β} {post' cond' : β → Prop} (rest : α → β → Prop)
    (h : Ensures inv sound m post cond) (hf : ∀ a, post a → Ensures inv sound (f a)
      (fun b => post' b ∧ (cond' b ↔ cond a ∧ rest a b)) (rest a)) :
    Ensures inv sound (m >>= f) post' cond' := by
  intro s hs
  obtain ⟨hinv, hpost⟩ := h s hs
  rw [run_bind]
  rcases hrun : m.run.run s with ⟨r, s'⟩
  rw [hrun] at hinv hpost
  cases r with
  | error e => exact ⟨hinv, nofun⟩
  | ok a =>
    obtain ⟨hp, hsound⟩ := hpost a rfl
    obtain ⟨hinv', hpost'⟩ := hf a hp s' hinv
    refine ⟨hinv', fun b hb => ?_⟩
    obtain ⟨⟨hp', hcond⟩, hsound'⟩ := hpost' b hb
    exact ⟨hp', by rw [hsound', hsound, hcond, and_assoc]⟩

/-- A first computation that leaves soundness alone. -/
theorem bind_plain {f : α → ExceptT ε (StateM σ) β} {post' cond' : β → Prop}
    (h : Ensures inv sound m post fun _ => True)
    (hf : ∀ a, post a → Ensures inv sound (f a) post' cond') :
    Ensures inv sound (m >>= f) post' cond' :=
  bind (fun _ => cond') h fun a ha => (hf a ha).weaken fun _ hb => ⟨⟨hb, by simp⟩, .rfl⟩

theorem mapM {f : α → ExceptT ε (StateM σ) β} {post' cond' : β → Prop} {l : List α}
    (hf : ∀ a ∈ l, Ensures inv sound (f a) post' cond') :
    Ensures inv sound (l.mapM f) (fun results => ∀ b ∈ results, post' b)
      fun results => ∀ b ∈ results, cond' b := by
  induction l with
  | nil => exact pure (by simp) (by simp)
  | cons a l ih =>
    rw [List.mapM_cons]
    refine bind (fun b results => ∀ c ∈ results.tail, cond' c) (hf a List.mem_cons_self)
      fun b hb => ?_
    refine bind (fun _ _ => True) (ih fun x hx => hf x (List.mem_cons_of_mem _ hx))
      fun bs hbs => pure ⟨⟨?_, ?_⟩, ?_⟩ trivial
    · exact List.forall_mem_cons.mpr ⟨hb, hbs⟩
    · exact List.forall_mem_cons
    · simp

theorem mapM_post {f : α → ExceptT ε (StateM σ) β} {post' : β → Prop} {l : List α}
    (hf : ∀ a ∈ l, Ensures inv sound (f a) post' fun _ => True) :
    Ensures inv sound (l.mapM f) (fun results => ∀ b ∈ results, post' b) fun _ => True :=
  (mapM hf).weaken fun _ h => ⟨h, by simp⟩

theorem mapM_cond {f : α → ExceptT ε (StateM σ) β} {cond' : β → Prop} {l : List α}
    (hf : ∀ a ∈ l, Ensures inv sound (f a) (fun _ => True) cond') :
    Ensures inv sound (l.mapM f) (fun _ => True) fun results => ∀ b ∈ results, cond' b :=
  (mapM hf).weaken fun _ _ => ⟨trivial, .rfl⟩

end Ensures

/-! ## Computations that decide whether they return -/

/-- From every state the computation returns exactly if `ok` holds, and then something that
satisfies `post`. -/
def ReturnsIff (ok : Prop) (m : ExceptT ε (StateM σ) α) (post : α → Prop) : Prop :=
  ∀ s, (∃ a, (m.run.run s).1 = .ok a ∧ ok ∧ post a) ∨ ∃ e, (m.run.run s).1 = .error e ∧ ¬ ok

namespace ReturnsIff

variable {ok ok' : Prop} {m : ExceptT ε (StateM σ) α} {post : α → Prop}

theorem pure {a : α} (h : post a) :
    ReturnsIff True (Pure.pure a : ExceptT ε (StateM σ) α) post :=
  fun _ => .inl ⟨a, rfl, trivial, h⟩

theorem weaken {post' : α → Prop} (h : ReturnsIff ok m post) (hok : ok ↔ ok')
    (hpost : ∀ a, post a → post' a) : ReturnsIff ok' m post' := by
  intro s
  rcases h s with ⟨a, ha, hok', hp⟩ | ⟨e, he, hok'⟩
  · exact .inl ⟨a, ha, hok.mp hok', hpost a hp⟩
  · exact .inr ⟨e, he, fun h => hok' (hok.mpr h)⟩

theorem bind {f : α → ExceptT ε (StateM σ) β} {post' : β → Prop} (h : ReturnsIff ok m post)
    (hf : ∀ a, post a → ReturnsIff ok' (f a) post') :
    ReturnsIff (ok ∧ ok') (m >>= f) post' := by
  intro s
  rw [Ensures.run_bind]
  have hs := h s
  rcases hrun : m.run.run s with ⟨r, s'⟩
  rw [hrun] at hs
  rcases hs with ⟨a, rfl, hok, hp⟩ | ⟨e, rfl, hok⟩
  · rcases hf a hp s' with ⟨b, hb, hok', hp'⟩ | ⟨e, he, hok'⟩
    · exact .inl ⟨b, hb, ⟨hok, hok'⟩, hp'⟩
    · exact .inr ⟨e, he, fun h => hok' h.2⟩
  · exact .inr ⟨e, rfl, fun h => hok h.1⟩

theorem bind_of_true {f : α → ExceptT ε (StateM σ) β} {post' : β → Prop}
    (h : ReturnsIff True m post) (hf : ∀ a, post a → ReturnsIff ok (f a) post') :
    ReturnsIff ok (m >>= f) post' :=
  (h.bind hf).weaken (iff_of_eq (true_and _)) fun _ hp => hp

theorem bind_true {f : α → ExceptT ε (StateM σ) β} {post' : β → Prop} (h : ReturnsIff ok m post)
    (hf : ∀ a, post a → ReturnsIff True (f a) post') : ReturnsIff ok (m >>= f) post' :=
  (h.bind hf).weaken (iff_of_eq (and_true _)) fun _ hp => hp

theorem mapM {f : α → ExceptT ε (StateM σ) β} {post : α → β → Prop} {l : List α}
    (hf : ∀ a ∈ l, ReturnsIff True (f a) (post a)) :
    ReturnsIff True (l.mapM f) fun results => List.Forall₂ post l results := by
  induction l with
  | nil => exact pure .nil
  | cons a l ih =>
    rw [List.mapM_cons]
    refine (hf a List.mem_cons_self).bind_of_true fun b hb => ?_
    refine (ih fun x hx => hf x (List.mem_cons_of_mem _ hx)).bind_of_true fun bs hbs => ?_
    exact pure (.cons hb hbs)

theorem mapM_true {f : α → ExceptT ε (StateM σ) β} {l : List α}
    (hf : ∀ a ∈ l, ReturnsIff True (f a) fun _ => True) :
    ReturnsIff True (l.mapM f) fun _ => True :=
  (mapM hf).weaken .rfl fun _ _ => trivial

end ReturnsIff

end Lib
