import Mathlib.Data.List.Dedup
import Mathlib.Data.Set.Insert
import Peerpaste.Order.Clockwise

/-!
This module contains the point of a set that a clockwise walk meets last: keeping it while the
points arrive one after another, and picking it from a list in which the points stand in some order.
-/

namespace Clockwise

variable {α : Type u} [LinearOrder α]

/--
`y` is the point of the set that the walk from `start` meets last. The point closest to its start is
the one behind it, and the start itself is a full turn away.
-/
def IsLast (start : α) (points : Set α) (y : α) : Prop :=
  y ∈ points ∧ ∀ x ∈ points, x = y ∨ Before start x y

instance (a x y : α) : Decidable (Before a x y) :=
  inferInstanceAs (Decidable (_ ∨ _))

theorem between_iff_before (a b c : α) : Between a b c ↔ Before c a b := by
  unfold Between Before
  grind

namespace Between

variable {s x y id : α}

theorem of_before (hy : Between s y id) (h : Before s x y) : Between x y id := by
  simp only [between_iff, Before] at *
  grind

theorem before (hx : Between s x id) (h : Between x y id) : Before s x y := by
  simp only [between_iff, Before] at *
  grind

end Between

namespace IsLast

variable {start x y y' : α} {points : Set α}

theorem unique (h : IsLast start points y) (h' : IsLast start points y') : y = y' := by
  rcases h.2 y' h'.1 with heq | hlt
  . exact heq.symm
  rcases h'.2 y h.1 with heq | hlt'
  . exact heq
  . exact absurd (hlt.trans hlt') (Before.irrefl start y')

theorem singleton (start x : α) : IsLast start {x} x := by
  refine ⟨rfl, ?_⟩
  intro z hz
  exact Or.inl hz

theorem insert (h : IsLast start points y) (x : α) :
    IsLast start (Insert.insert x points) (if Between y x start then x else y) := by
  simp only [between_iff_before]
  by_cases hlt : Before start y x
  . rw [if_pos hlt]
    refine ⟨Set.mem_insert x points, ?_⟩
    rintro z (rfl | hz)
    . exact Or.inl rfl
    . right
      rcases h.2 z hz with rfl | hz
      . exact hlt
      . exact hz.trans hlt
  . rw [if_neg hlt]
    refine ⟨Set.mem_insert_of_mem x h.1, ?_⟩
    rintro z (rfl | hz)
    . rcases Before.trichotomy start z y with hlt' | heq | hlt'
      . exact Or.inr hlt'
      . exact Or.inl heq
      . exact absurd hlt' hlt
    . exact h.2 z hz

end IsLast

section Pick

variable {s : α} {l : List α}

def lastInside (s : α) (l : List α) (id : α) : Option α :=
  l.reverse.find? (Between s · id)

def lastOccurrences (s : α) (l : List α) : List α :=
  (l.filter (· ≠ s)).dedup

theorem mem_lastOccurrences {x : α} : x ∈ lastOccurrences s l ↔ x ∈ l ∧ x ≠ s := by
  simp [lastOccurrences]

theorem nodup_lastOccurrences (s : α) (l : List α) : (lastOccurrences s l).Nodup := by
  exact List.nodup_dedup _

theorem lastInside_cons (x : α) (id : α) :
    lastInside s (x :: l) id =
      (lastInside s l id).or (if Between s x id then some x else none) := by
  simp only [lastInside, List.reverse_cons, List.find?_append, List.find?_singleton,
    decide_eq_true_eq]

theorem exists_lastInside {x id : α} (hx : x ∈ l) (h : Between s x id) :
    ∃ r, lastInside s l id = some r := by
  cases hr : lastInside s l id with
  | none =>
    rw [lastInside, List.find?_eq_none] at hr
    have := hr x (List.mem_reverse.mpr hx)
    simp [h] at this
  | some r => exact ⟨r, rfl⟩

theorem lastInside_lastOccurrences (s : α) (l : List α) (id : α) :
    lastInside s (lastOccurrences s l) id = lastInside s l id := by
  induction l with
  | nil => rfl
  | cons x l ih =>
    rw [lastInside_cons, ← ih]
    by_cases hxs : x = s
    . -- the start is never strictly inside
      have hx : ¬ Between s x id := fun h => h.ne_left hxs
      have hcons : lastOccurrences s (x :: l) = lastOccurrences s l := by
        simp [lastOccurrences, hxs]
      rw [hcons, if_neg hx, Option.or_none]
    by_cases hxl : x ∈ l
    . have hmem : x ∈ lastOccurrences s l := mem_lastOccurrences.mpr ⟨hxl, hxs⟩
      have hcons : lastOccurrences s (x :: l) = lastOccurrences s l := by
        unfold lastOccurrences at *
        rw [List.mem_dedup] at hmem
        rw [List.filter_cons_of_pos (by simpa using hxs), List.dedup_cons_of_mem hmem]
      rw [hcons]
      split
      . next h =>
        rcases exists_lastInside hmem h with ⟨r, hr⟩
        rw [hr]
        rfl
      . rw [Option.or_none]
    . have hcons : lastOccurrences s (x :: l) = x :: lastOccurrences s l := by
        unfold lastOccurrences
        rw [List.filter_cons_of_pos (by simpa using hxs), List.dedup_cons_of_notMem]
        simp [hxl]
      rw [hcons, lastInside_cons]

def PicksClosest (s : α) (l : List α) (id : α) : Prop :=
  ∀ r, lastInside s l id = some r → ∀ q ∈ l, ¬ Between r q id

theorem picksClosest_of_pairwise (h : (lastOccurrences s l).Pairwise (Before s)) (id : α) :
    PicksClosest s l id := by
  intro r hr q hq hbetween
  rw [← lastInside_lastOccurrences] at hr
  have hrs : Between s r id := by simpa using List.find?_some hr
  have hqs : Between s q id := hrs.trans hbetween
  have hlt : Before s r q := hrs.before hbetween
  rw [lastInside, List.find?_eq_some_iff_append] at hr
  rcases hr with ⟨_, as, bs, hrev, has⟩
  rw [← List.pairwise_reverse, hrev, List.pairwise_append, List.pairwise_cons] at h
  have hq : q ∈ (lastOccurrences s l).reverse := by
    rw [List.mem_reverse, mem_lastOccurrences]
    exact ⟨hq, hqs.ne_left⟩
  -- what comes before the picked entry in the reversed list is not inside, the rest is not closer
  rw [hrev, List.mem_append, List.mem_cons] at hq
  rcases hq with hq | rfl | hq
  . have := has q hq
    simp [hqs] at this
  . exact Before.irrefl s q hlt
  . exact Before.irrefl s r (hlt.trans (h.2.1.1 q hq))

theorem pairwise_of_find? (id : α) (out : List α) {rest : List α}
    (hpick : ∀ id r, (out ++ rest).find? (Between s · id) = some r → ∀ q ∈ rest, ¬ Between r q id)
    (hout : ∀ x ∈ out, ¬ Between s x id) (hrest : ∀ x ∈ rest, Between s x id)
    (hnodup : rest.Nodup) :
    rest.Pairwise (fun x y => Before s y x) := by
  induction rest generalizing out id with
  | nil => exact List.Pairwise.nil
  | cons m rest ih =>
    have hm := hrest m List.mem_cons_self
    have hfind : (out ++ m :: rest).find? (Between s · id) = some m := by
      rw [List.find?_eq_some_iff_append]
      refine ⟨by simpa using hm, out, rest, rfl, ?_⟩
      intro x hx
      simpa using hout x hx
    rw [List.nodup_cons] at hnodup
    have hbefore : ∀ x ∈ rest, Before s x m := by
      intro x hx
      rcases Before.trichotomy s x m with hlt | heq | hlt
      . exact hlt
      . exact absurd (heq ▸ hx) hnodup.1
      . have hx' := List.mem_cons_of_mem m hx
        exact absurd ((hrest x hx').of_before hlt) (hpick id m hfind x hx')
    rw [List.pairwise_cons]
    refine ⟨hbefore, ?_⟩
    -- the walk only as far as `m` leaves out `m` itself
    apply ih m (out ++ [m])
    . intro id' r hr q hq
      rw [List.append_assoc, List.singleton_append] at hr
      exact hpick id' r hr q (List.mem_cons_of_mem m hq)
    . intro x hx hbetween
      rw [List.mem_append, List.mem_singleton] at hx
      rcases hx with hx | rfl
      . exact hout x hx (hm.split x |>.mpr (Or.inl hbetween))
      . exact hbetween.ne_right rfl
    . intro x hx
      refine ⟨(hrest x (List.mem_cons_of_mem m hx)).ne_left, Or.inr (hbefore x hx)⟩
    . exact hnodup.2

theorem picksClosest_iff (s : α) (l : List α) :
    (∀ id, PicksClosest s l id) ↔ (lastOccurrences s l).Pairwise (Before s) := by
  constructor
  . intro h
    rw [← List.pairwise_reverse]
    apply pairwise_of_find? s []
    . intro id r hr q hq
      rw [List.mem_reverse, mem_lastOccurrences] at hq
      apply h id r _ q hq.1
      rw [← lastInside_lastOccurrences]
      exact hr
    . intro x hx
      cases hx
    . intro x hx
      rw [List.mem_reverse, mem_lastOccurrences] at hx
      rw [Between.self_iff]
      exact hx.2
    . rw [List.nodup_reverse]
      exact nodup_lastOccurrences s l
  . exact picksClosest_of_pairwise

end Pick

end Clockwise
