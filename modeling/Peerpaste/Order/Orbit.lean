import Mathlib.Data.Finset.Card
import Mathlib.Data.List.Iterate
import Mathlib.Dynamics.PeriodicPts.Defs

/-!
This module contains functions that lead around a finite set, from each of its points to every other
one: a walk comes by each point once and is back then where it has started.
-/

open Function

structure LeadsAround (next : α → α) (points : Finset α) : Prop where
  mem : ∀ a ∈ points, next a ∈ points
  reaches : ∀ a ∈ points, ∀ b ∈ points, ∃ k, next^[k] a = b

namespace LeadsAround

variable {next : α → α} {points : Finset α} {a b : α} {k : Nat}

theorem iterate_mem (h : LeadsAround next points) (ha : a ∈ points) (k : Nat) :
    next^[k] a ∈ points := by
  induction k with
  | zero => exact ha
  | succ k ih =>
    rw [iterate_succ_apply']
    exact h.mem _ ih

theorem mem_periodicPts (h : LeadsAround next points) (ha : a ∈ points) : a ∈ periodicPts next := by
  rcases h.reaches (next a) (h.mem a ha) a ha with ⟨k, hk⟩
  apply mk_mem_periodicPts (Nat.succ_pos k)
  unfold IsPeriodicPt IsFixedPt
  rw [iterate_succ_apply, hk]

theorem minimalPeriod_eq_card (h : LeadsAround next points) (ha : a ∈ points) :
    minimalPeriod next a = points.card := by
  have hpos := minimalPeriod_pos_of_mem_periodicPts (h.mem_periodicPts ha)
  symm
  apply Finset.card_eq_of_bijective fun i _ => next^[i] a
  . intro b hb
    rcases h.reaches a ha b hb with ⟨k, hk⟩
    refine ⟨k % minimalPeriod next a, Nat.mod_lt _ hpos, ?_⟩
    rw [iterate_mod_minimalPeriod_eq, hk]
  . intro i _
    exact h.iterate_mem ha i
  . intro i j hi hj heq
    exact (iterate_eq_iterate_iff_of_lt_minimalPeriod hi hj).mp heq

theorem iterate_card (h : LeadsAround next points) (ha : a ∈ points) :
    next^[points.card] a = a := by
  rw [← h.minimalPeriod_eq_card ha]
  exact iterate_minimalPeriod

theorem iterate_mem_iterate_iff (h : LeadsAround next points) (ha : a ∈ points) (hpos : 0 < k)
    (hk : k ≤ points.card) : next^[k] a ∈ List.iterate next a k ↔ k = points.card := by
  constructor
  . intro hmem
    rcases List.mem_iterate.mp hmem with ⟨i, hi, heq⟩
    by_cases hlt : k < points.card
    . rw [← h.minimalPeriod_eq_card ha] at hlt
      rw [iterate_eq_iterate_iff_of_lt_minimalPeriod hlt (by omega)] at heq
      omega
    . omega
  . intro heq
    rw [heq, h.iterate_card ha]
    exact List.mem_iterate.mpr ⟨0, by omega, rfl⟩

theorem mem_iterate_card_iff (h : LeadsAround next points) (ha : a ∈ points) :
    b ∈ List.iterate next a points.card ↔ b ∈ points := by
  rw [List.mem_iterate]
  constructor
  . rintro ⟨k, _, rfl⟩
    exact h.iterate_mem ha k
  . intro hb
    rcases h.reaches a ha b hb with ⟨k, rfl⟩
    have hperiod := h.minimalPeriod_eq_card ha
    refine ⟨k % points.card, Nat.mod_lt _ (Finset.card_pos.mpr ⟨a, ha⟩), ?_⟩
    rw [← hperiod, iterate_mod_minimalPeriod_eq]

end LeadsAround
