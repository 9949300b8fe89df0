import Mathlib.Data.Finset.Card
import Mathlib.Data.Finset.Max
import Peerpaste.Order.Clockwise

/-!
This module contains the ring that a finite set of points forms under the clockwise walk: the next
point of the ring after one of its points, the first point met from anywhere, what inserting one
point does to them and the number of points a forward route has left.
-/

namespace Clockwise

variable {α : Type u} [LinearOrder α]

/--
`y` is the first point of the ring that is met clockwise strictly after `x`, which is `x` itself on
a ring of one point.
-/
def IsNext (ring : Finset α) (x y : α) : Prop :=
  y ∈ ring ∧ ∀ z ∈ ring, ¬ Between x z y

/--
`y` is the first point of the ring that the walk from `id` meets, `id` included.
-/
def IsSuccessor (ring : Finset α) (id y : α) : Prop :=
  y ∈ ring ∧ ∀ z ∈ ring, ¬ Before id z y

instance (ring : Finset α) (x y : α) : Decidable (IsNext ring x y) :=
  inferInstanceAs (Decidable (_ ∧ _))

namespace IsSuccessor

variable {ring : Finset α} {id y y' : α}

theorem unique (h : IsSuccessor ring id y) (h' : IsSuccessor ring id y') : y = y' := by
  rcases Before.trichotomy id y y' with hlt | heq | hlt
  . exact absurd hlt (h'.2 y h.1)
  . exact heq
  . exact absurd hlt (h.2 y' h'.1)

theorem iff_cases :
    IsSuccessor ring id y
      ↔
    y ∈ ring ∧ (id ∈ ring → y = id) ∧ (id ∉ ring → ∀ z ∈ ring, ¬ Between id z y) := by
  unfold IsSuccessor
  constructor
  . rintro ⟨hmem, hfirst⟩
    refine ⟨hmem, ?_, ?_⟩
    . intro hid
      by_contra hne
      exact hfirst id hid (Before.start hne)
    . rintro hid z hz ⟨_, heq | hbefore⟩
      . exact hid (heq ▸ hmem)
      . exact hfirst z hz hbefore
  . rintro ⟨hmem, hin, hout⟩
    refine ⟨hmem, ?_⟩
    intro z hz hbefore
    by_cases hid : id ∈ ring
    . rw [hin hid] at hbefore
      exact Before.not_start id z hbefore
    . apply hout hid z hz
      refine ⟨?_, Or.inr hbefore⟩
      rintro rfl
      exact hid hz

end IsSuccessor

namespace IsNext

variable {ring : Finset α} {x y y' p s n id : α}

theorem unique (h : IsNext ring x y) (h' : IsNext ring x y') : y = y' := by
  have hy := h'.2 y h.1
  have hy' := h.2 y' h'.1
  simp only [between_iff] at hy hy'
  grind

theorem unique_left {x' : α} (h : IsNext ring x y) (h' : IsNext ring x' y) (hx : x ∈ ring)
    (hx' : x' ∈ ring) : x = x' := by
  have h := h.2 x' hx'
  have h' := h'.2 x hx
  simp only [between_iff] at h h'
  grind

theorem of_lt_of_lt {a b c : α} (hab : a < b) (hbc : b < c) :
    IsNext {a, b, c} a b ∧ IsNext {a, b, c} b c ∧ IsNext {a, b, c} c a := by
  have hac := hab.trans hbc
  refine ⟨⟨by simp, ?_⟩, ⟨by simp, ?_⟩, ⟨by simp, ?_⟩⟩
  all_goals
    simp only [Finset.mem_insert, Finset.mem_singleton, between_iff]
    grind

theorem isSuccessor (h : IsNext ring x s) (hid : Between x id s ∨ id = s) :
    IsSuccessor ring id s := by
  rcases hid with hid | rfl
  . rw [IsSuccessor.iff_cases]
    refine ⟨h.1, ?_, ?_⟩
    . intro hmem
      exact absurd hid (h.2 id hmem)
    . intro _ z hz hbetween
      exact h.2 z hz (hid.trans hbetween)
  . exact ⟨h.1, fun z _ => Before.not_start id z⟩

theorem between_of_not_reached (h : IsNext ring x s) (hx : x ∈ ring)
    (hid : ¬ (Between x id s ∨ id = s)) : Between x s id := by
  simp only [not_or] at hid
  apply Between.of_not hid.2
  . rintro rfl
    -- on a ring of one point every `id` is in reach
    apply hid.1
    rw [Between.self_iff]
    exact hid.2
  . exact hid.1

end IsNext

section Insert

variable {ring : Finset α} {x y p s n : α}

theorem IsNext.between_insert (h : IsNext ring p s) (hp : p ∈ ring) (hn : n ∉ ring)
    (hs : IsSuccessor ring n s) : Between p n s := by
  rw [IsSuccessor.iff_cases] at hs
  have hnp : n ≠ p := fun heq => hn (heq ▸ hp)
  have hns : n ≠ s := fun heq => hn (heq ▸ h.1)
  have hps := hs.2.2 hn p hp
  simp only [between_iff] at *
  grind

theorem IsNext.insert_left (h : IsNext ring p s) (hp : p ∈ ring) (hn : n ∉ ring)
    (hs : IsSuccessor ring n s) : IsNext (insert n ring) p n := by
  have hbetween := h.between_insert hp hn hs
  refine ⟨Finset.mem_insert_self n ring, ?_⟩
  intro z hz hzn
  rcases Finset.mem_insert.mp hz with rfl | hz
  . exact hzn.ne_right rfl
  . apply h.2 z hz
    rw [hbetween.split]
    exact Or.inl hzn

theorem IsNext.insert_right (hn : n ∉ ring) (hs : IsSuccessor ring n s) :
    IsNext (insert n ring) n s := by
  rw [IsSuccessor.iff_cases] at hs
  refine ⟨Finset.mem_insert_of_mem hs.1, ?_⟩
  intro z hz
  rcases Finset.mem_insert.mp hz with rfl | hz
  . exact fun h => h.ne_left rfl
  . exact hs.2.2 hn z hz

theorem IsNext.insert_of_ne (h : IsNext ring x y) (hx : x ∈ ring) (hne : x ≠ p)
    (hps : IsNext ring p s) (hp : p ∈ ring) (hn : n ∉ ring) (hs : IsSuccessor ring n s) :
    IsNext (insert n ring) x y := by
  have hbetween := hps.between_insert hp hn hs
  refine ⟨Finset.mem_insert_of_mem h.1, ?_⟩
  intro z hz
  rcases Finset.mem_insert.mp hz with rfl | hz
  . have hxp := h.2 p hp
    have hpx := hps.2 x hx
    have hpy := hps.2 y h.1
    simp only [between_iff] at *
    grind
  . exact h.2 z hz

end Insert

section Erase

variable {ring ring' : Finset α} {x y d : α}

theorem IsNext.between_right (h : IsNext ring x d) (hy : y ∈ ring) (hyd : y ≠ d) :
    Between x d y := by
  have hnone := h.2 y hy
  simp only [between_iff] at *
  grind

theorem IsNext.between_left (h : IsNext ring d y) (hx : x ∈ ring) (hxd : x ≠ d) :
    Between x d y := by
  have hnone := h.2 x hx
  simp only [between_iff] at *
  grind

theorem IsNext.mono (h : IsNext ring x y) (hsub : ring' ⊆ ring) (hy : y ∈ ring') :
    IsNext ring' x y :=
  ⟨hy, fun z hz => h.2 z (hsub hz)⟩

theorem IsNext.skip (h : IsNext ring x d) (h' : IsNext ring d y) (hyd : y ≠ d) :
    IsNext (ring.erase d) x y := by
  refine ⟨Finset.mem_erase.mpr ⟨hyd, h'.1⟩, ?_⟩
  intro z hz
  rw [Finset.mem_erase] at hz
  have hxz := h.2 z hz.2
  have hdz := h'.2 z hz.2
  have hxy := h.2 y h'.1
  simp only [between_iff] at *
  grind

theorem isNext_of_path {path : List α} (hpath : (x :: (path ++ [y])).IsChain (IsNext ring))
    (hnodup : (path ++ [y]).Nodup) : IsNext (ring \ path.toFinset) x y := by
  induction path generalizing ring with
  | nil => simpa using hpath
  | cons d path ih =>
    simp only [List.cons_append, List.nodup_cons] at hpath hnodup
    rw [List.isChain_cons_cons] at hpath
    have hring : ring \ (d :: path).toFinset = ring.erase d \ path.toFinset := by
      rw [List.toFinset_cons, Finset.sdiff_insert, Finset.erase_sdiff_comm]
    rw [hring]
    apply ih _ hnodup.2
    have hrest : ∀ z ∈ path ++ [y], z ≠ d := fun z hz heq => hnodup.1 (heq ▸ hz)
    -- the points after `d` are still in the ring, so that only the first step gets longer
    have hchain : (d :: (path ++ [y])).IsChain (IsNext (ring.erase d)) := by
      apply hpath.2.imp_of_mem_tail_imp
      intro z w _ hw hzw
      exact hzw.mono (Finset.erase_subset _ _) (Finset.mem_erase.mpr ⟨hrest w hw, hzw.1⟩)
    rw [List.isChain_cons] at hchain ⊢
    refine ⟨?_, hchain.2⟩
    intro w hw
    apply hpath.1.skip _ (hrest w (List.mem_of_mem_head? hw))
    exact (List.isChain_cons.mp hpath.2).1 w hw

end Erase

section Remaining

variable {ring : Finset α} {x y id : α}

def remaining (ring : Finset α) (x id : α) : Finset α :=
  ring.filter (Between x · id)

theorem remaining_ssubset (hy : y ∈ ring) (h : Between x y id) :
    remaining ring y id ⊂ remaining ring x id := by
  rw [Finset.ssubset_iff_of_subset]
  . refine ⟨y, ?_, ?_⟩
    . simp [remaining, hy, h]
    . simp only [remaining, Finset.mem_filter, not_and]
      exact fun _ hself => hself.ne_left rfl
  . intro z
    simp only [remaining, Finset.mem_filter, and_imp]
    exact fun hz hbetween => ⟨hz, h.trans hbetween⟩

theorem card_remaining_lt (hy : y ∈ ring) (h : Between x y id) :
    (remaining ring y id).card < (remaining ring x id).card := by
  exact Finset.card_lt_card (remaining_ssubset hy h)

theorem card_remaining_lt_card (id : α) (hx : x ∈ ring) :
    (remaining ring x id).card < ring.card := by
  -- a route never goes back to where it is, so fewer points remain than there are
  apply Finset.card_lt_card
  unfold remaining
  rw [Finset.ssubset_iff_of_subset (Finset.filter_subset _ _)]
  refine ⟨x, hx, ?_⟩
  simp only [Finset.mem_filter, not_and]
  exact fun _ hself => hself.ne_left rfl

end Remaining

end Clockwise
