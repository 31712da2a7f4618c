import Mathlib

/-! Hash chains. Every event is linked to the digest of the events before it; a
tail of the chain is what a reader finds when a prefix has been dropped. Linking
that is injective on well-formed inputs makes a tail the only list of blocks that
ends in the digest of its events. -/
namespace Lib.HashChain

variable {ε η : Type}

structure Block (ε η : Type) where
  seq : Int
  event : ε
  prev : η
  hash : η

def digest (link : η → Int → ε → η) (genesis : η) (events : List ε) : η :=
  (events.zipIdx 1).foldl (fun hash entry => link hash entry.2 entry.1) genesis

/-- Contiguous numbers from `seq` on, each block linked to the one before. -/
def Linked (link : η → Int → ε → η) : Int → η → List (Block ε η) → Prop
  | _, _, [] => True
  | seq, prev, b :: rest =>
      b.seq = seq ∧ b.prev = prev ∧ link b.prev b.seq b.event = b.hash ∧
        Linked link (b.seq + 1) b.hash rest

/-- The number and the link that the next block would have to carry. -/
def chainEnd : Int → η → List (Block ε η) → Int × η
  | seq, prev, [] => (seq, prev)
  | _, _, b :: rest => chainEnd (b.seq + 1) b.hash rest

def chainTail (link : η → Int → ε → η) (genesis : η) (events : List ε) (lo : Nat) :
    List (Block ε η) :=
  (events.zipIdx.drop lo).map fun entry =>
    { seq := entry.2 + 1
      event := entry.1
      prev := digest link genesis (events.take entry.2)
      hash := digest link genesis (events.take (entry.2 + 1)) }

section Append

variable (link : η → Int → ε → η) (genesis : η)

theorem digest_concat (events : List ε) (e : ε) :
    digest link genesis (events ++ [e]) =
      link (digest link genesis events) (events.length + 1) e := by
  simp [digest, List.zipIdx_append, add_comm]

variable {link}

theorem linked_concat {seq : Int} {prev : η} {bs : List (Block ε η)} {b : Block ε η} :
    Linked link seq prev (bs ++ [b]) ↔
      Linked link seq prev bs ∧ b.seq = (chainEnd seq prev bs).1 ∧
        b.prev = (chainEnd seq prev bs).2 ∧ link b.prev b.seq b.event = b.hash := by
  induction bs generalizing seq prev with
  | nil => simp [Linked, chainEnd]
  | cons a bs ih => simp [Linked, chainEnd, ih, and_assoc]

theorem chainEnd_concat (seq : Int) (prev : η) (bs : List (Block ε η)) (b : Block ε η) :
    chainEnd seq prev (bs ++ [b]) = (b.seq + 1, b.hash) := by
  induction bs generalizing seq prev with
  | nil => rfl
  | cons a bs ih => exact ih _ _

theorem chainEnd_fst {seq : Int} {prev : η} {bs : List (Block ε η)}
    (h : Linked link seq prev bs) : (chainEnd seq prev bs).1 = seq + bs.length := by
  induction bs generalizing seq prev with
  | nil => simp [chainEnd]
  | cons a bs ih =>
    obtain ⟨hseq, -, -, hrest⟩ := h
    rw [chainEnd, ih hrest, hseq, List.length_cons]
    push_cast
    ring

end Append

section Tail

variable {link : η → Int → ε → η} {genesis : η} {events : List ε} {lo : Nat}

theorem chainTail_concat (hlo : lo ≤ events.length) (e : ε) :
    chainTail link genesis (events ++ [e]) lo =
      chainTail link genesis events lo ++
        [{ seq := events.length + 1, event := e, prev := digest link genesis events
           hash := link (digest link genesis events) (events.length + 1) e }] := by
  unfold chainTail
  rw [List.zipIdx_append, List.drop_append_of_le_length (by simpa using hlo), List.map_append]
  congr 1
  · refine List.map_congr_left fun entry hentry => ?_
    have hidx : entry.2 < events.length := by
      have := List.snd_lt_add_of_mem_zipIdx (List.mem_of_mem_drop hentry)
      simpa using this
    rw [List.take_append_of_le_length (by omega), List.take_append_of_le_length (by omega)]
  · have hall : (events ++ [e]).take (events.length + 1) = events ++ [e] :=
      List.take_of_length_le (by simp)
    simp [hall, digest_concat]

theorem chainTail_eq_nil (hlo : events.length ≤ lo) : chainTail link genesis events lo = [] := by
  simp [chainTail, hlo]

@[simp] theorem length_chainTail : (chainTail link genesis events lo).length = events.length - lo := by
  simp [chainTail]

theorem filter_chainTail {lo' : Nat} (hle : lo ≤ lo') :
    (chainTail link genesis events lo).filter (fun b => ¬ b.seq ≤ (lo' : Int)) =
      chainTail link genesis events lo' := by
  induction events using List.reverseRecOn with
  | nil => simp [chainTail]
  | append_singleton events e ih =>
    by_cases hlo : lo ≤ events.length
    · rw [chainTail_concat hlo, List.filter_append, ih]
      by_cases hlo' : lo' ≤ events.length
      · rw [chainTail_concat hlo', List.filter_cons_of_pos (by simp; omega), List.filter_nil]
      · rw [chainTail_eq_nil (by omega), chainTail_eq_nil (by simp; omega),
          List.filter_cons_of_neg (by simp; omega), List.filter_nil, List.append_nil]
    · rw [chainTail_eq_nil (by simp; omega), chainTail_eq_nil (by simp; omega), List.filter_nil]

theorem mem_chainTail {b : Block ε η} :
    b ∈ chainTail link genesis events lo ↔ ∃ i e, lo ≤ i ∧ events[i]? = some e ∧
      b = { seq := i + 1, event := e, prev := digest link genesis (events.take i)
            hash := digest link genesis (events.take (i + 1)) } := by
  rw [← filter_chainTail (Nat.zero_le lo), List.mem_filter, chainTail, List.drop_zero, List.mem_map]
  constructor
  · rintro ⟨⟨⟨e, i⟩, hmem, rfl⟩, hseq⟩
    refine ⟨i, e, ?_, List.mem_zipIdx_iff_getElem?.mp hmem, rfl⟩
    simp only [decide_eq_true_eq] at hseq
    omega
  · rintro ⟨i, e, hle, he, rfl⟩
    refine ⟨⟨(e, i), List.mem_zipIdx_iff_getElem?.mpr he, rfl⟩, ?_⟩
    simp only [decide_eq_true_eq]
    omega

theorem linked_chainTail (hlo : lo ≤ events.length) :
    Linked link (lo + 1) (digest link genesis (events.take lo))
        (chainTail link genesis events lo) ∧
      chainEnd (lo + 1) (digest link genesis (events.take lo)) (chainTail link genesis events lo) =
        ((events.length : Int) + 1, digest link genesis events) := by
  induction events using List.reverseRecOn with
  | nil =>
    obtain rfl : lo = 0 := by simpa using hlo
    simp [chainTail, Linked, chainEnd]
  | append_singleton events e ih =>
    rw [List.length_append, List.length_singleton] at hlo
    by_cases hlast : lo = events.length + 1
    · subst hlast
      rw [chainTail_eq_nil (by simp), List.take_of_length_le (by simp)]
      simp [Linked, chainEnd]
    · have hle : lo ≤ events.length := by omega
      obtain ⟨hlinked, hend⟩ := ih hle
      rw [chainTail_concat hle, List.take_append_of_le_length hle, linked_concat, hend,
        chainEnd_concat, digest_concat]
      simp [hlinked]

end Tail

/-- Linking is injective on hashes and events that are well formed, and produces
well-formed hashes. -/
structure InjectiveLink (link : η → Int → ε → η) (GoodHash : η → Prop) (GoodEvent : ε → Prop) :
    Prop where
  good : ∀ prev seq event, GoodHash (link prev seq event)
  inj : ∀ {prev prev' seq event event'}, GoodHash prev → GoodHash prev' → GoodEvent event →
    GoodEvent event' → link prev seq event = link prev' seq event' → prev = prev' ∧ event = event'

section Unique

variable {link : η → Int → ε → η} {genesis : η} {GoodHash : η → Prop} {GoodEvent : ε → Prop}

theorem InjectiveLink.good_digest (hl : InjectiveLink link GoodHash GoodEvent)
    (hgenesis : GoodHash genesis) (events : List ε) : GoodHash (digest link genesis events) := by
  induction events using List.reverseRecOn with
  | nil => exact hgenesis
  | append_singleton events e _ =>
    rw [digest_concat]
    exact hl.good _ _ _

theorem InjectiveLink.good_chainEnd (hl : InjectiveLink link GoodHash GoodEvent) {seq : Int}
    {prev : η} (hprev : GoodHash prev) {bs : List (Block ε η)} (h : Linked link seq prev bs) :
    GoodHash (chainEnd seq prev bs).2 := by
  induction bs generalizing seq prev with
  | nil => exact hprev
  | cons b bs ih =>
    obtain ⟨-, -, hhash, hrest⟩ := h
    exact ih (hhash ▸ hl.good _ _ _) hrest

/-- A linked list of blocks that ends in the digest of `events` is the tail of
`events` from where it starts. The induction runs backwards from the newest
block. -/
theorem InjectiveLink.eq_chainTail (hl : InjectiveLink link GoodHash GoodEvent)
    (hgenesis : GoodHash genesis) {events : List ε} (hevents : ∀ e ∈ events, GoodEvent e)
    {bs : List (Block ε η)} (hbs : ∀ b ∈ bs, GoodEvent b.event) {prev : η}
    (hprev : GoodHash prev) {lo : Nat} (hlinked : Linked link (lo + 1) prev bs)
    (hend : chainEnd (lo + 1) prev bs =
      ((events.length : Int) + 1, digest link genesis events)) :
    bs = chainTail link genesis events lo := by
  induction bs using List.reverseRecOn generalizing events with
  | nil =>
    have hlen : (lo : Int) + 1 = events.length + 1 := congrArg Prod.fst hend
    rw [chainTail_eq_nil (by omega)]
  | append_singleton bs b ih =>
    rw [chainEnd_concat] at hend
    obtain ⟨hseq, hhash⟩ := Prod.mk.inj hend
    obtain ⟨hinit, hbseq, hbprev, hblink⟩ := linked_concat.mp hlinked
    have hcount := chainEnd_fst hinit
    have hlen : events.length = lo + 1 + bs.length := by omega
    rcases List.eq_nil_or_concat events with rfl | ⟨es, e, rfl⟩
    · simp at hlen
      omega
    · rw [List.concat_eq_append] at *
      rw [List.length_append, List.length_singleton] at hlen
      have hseq' : b.seq = (es.length : Int) + 1 := by
        rw [hbseq, hcount]
        omega
      have hlast : link b.prev b.seq b.event =
          link (digest link genesis es) b.seq e := by
        rw [hblink, hhash, digest_concat, hseq']
      have hgood : GoodHash b.prev := hbprev ▸ hl.good_chainEnd hprev hinit
      obtain ⟨hp, he⟩ := hl.inj hgood (hl.good_digest hgenesis es) (hbs b (by simp))
        (hevents e (by simp)) hlast
      have hfront : chainEnd (lo + 1) prev bs =
          ((es.length : Int) + 1, digest link genesis es) := by
        rw [← hseq', ← hp, hbseq, hbprev]
      have hrest := ih (fun x hx => hevents x (by simp [hx])) (fun x hx => hbs x (by simp [hx]))
        hinit hfront
      rw [chainTail_concat (by omega), ← hrest]
      congr 1
      cases b
      simp_all [digest_concat]

end Unique

end Lib.HashChain
