import Mathlib.Order.Lattice
import Mathlib.Data.List.Chain
import Mathlib.Data.List.Nodup

/-!
This module contains the clockwise walk on a linear order that is bent into a circle: the walk that
starts at a point `a` first meets everything from `a` upwards and then everything below `a`.
-/

namespace Clockwise

variable {α : Type u} [LinearOrder α]

/--
The walk that starts at `a` meets `x` strictly before `y`.
-/
def Before (a x y : α) : Prop :=
  (a ≤ x ∧ x < y) ∨ (x < y ∧ y < a) ∨ (y < a ∧ a ≤ x)

/--
The walk that starts at `a` meets `b` strictly after `a` and strictly before it reaches `c` next.
For `a = c` the walk goes once around.
-/
def Between (a b c : α) : Prop :=
  b ≠ a ∧ (c = a ∨ Before a b c)

namespace Before

theorem irrefl (a x : α) : ¬ Before a x x := by
  unfold Before
  grind

theorem trans {a x y z : α} (hxy : Before a x y) (hyz : Before a y z) : Before a x z := by
  unfold Before at *
  grind

theorem trichotomy (a x y : α) : Before a x y ∨ x = y ∨ Before a y x := by
  unfold Before
  grind

theorem start {a x : α} (h : x ≠ a) : Before a a x := by
  unfold Before
  grind

theorem not_start (a x : α) : ¬ Before a x a := by
  unfold Before
  grind

end Before

theorem between_iff (a b c : α) :
    Between a b c ↔ if a < c then a < b ∧ b < c else a < b ∨ b < c := by
  unfold Between Before
  split
  . grind
  . grind

instance (a b c : α) : Decidable (Between a b c) :=
  decidable_of_iff _ (between_iff a b c).symm

namespace Between

theorem ne_left {a b c : α} (h : Between a b c) : b ≠ a := by
  exact h.1

theorem ne_right {a b c : α} (h : Between a b c) : b ≠ c := by
  intro heq
  subst heq
  rcases h with ⟨hne, heq | hbefore⟩
  . exact hne heq
  . exact Before.irrefl a b hbefore

theorem self_iff (a b : α) : Between a b a ↔ b ≠ a := by
  simp [Between]

theorem split {a b c : α} (h : Between a b c) (x : α) :
    Between a x c ↔ Between a x b ∨ x = b ∨ Between b x c := by
  simp only [between_iff] at *
  grind

theorem trans {a b c x : α} (h : Between a b c) (hx : Between b x c) : Between a x c := by
  rw [h.split]
  exact Or.inr (Or.inr hx)

theorem rotate {a b c : α} (hab : a ≠ b) (hca : c ≠ a) : Between a b c ↔ Between b c a := by
  simp only [between_iff]
  grind

theorem iff_not_swap {a b c : α} (hab : a ≠ b) (hbc : b ≠ c) (hca : c ≠ a) :
    Between a b c ↔ ¬ Between c b a := by
  -- the two arcs between `a` and `c` have nothing in common and leave nothing out
  simp only [between_iff]
  grind

theorem of_not {a b c : α} (hbc : b ≠ c) (hca : c ≠ a) (h : ¬ Between a b c) : Between a c b := by
  refine ⟨hca, ?_⟩
  by_cases hba : b = a
  . exact Or.inl hba
  . right
    rcases Before.trichotomy a b c with hbefore | heq | hbefore
    . exact absurd ⟨hba, Or.inr hbefore⟩ h
    . exact absurd heq hbc
    . exact hbefore

end Between

section Route

variable {route : List α}

theorem pairwise_of_isChain (id : α) (h : route.IsChain (fun x y => Between x y id)) :
    route.Pairwise (fun x y => Between x y id) := by
  have : IsTrans α (fun x y => Between x y id) := ⟨fun _ _ _ hxy hyz => hxy.trans hyz⟩
  exact List.isChain_iff_pairwise.mp h

theorem nodup_of_isChain (id : α) (h : route.IsChain (fun x y => Between x y id)) :
    route.Nodup := by
  refine (pairwise_of_isChain id h).imp ?_
  intro x y hxy
  exact hxy.ne_left.symm

end Route

end Clockwise
