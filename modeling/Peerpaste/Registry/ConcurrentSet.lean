import Mathlib.Data.List.Nodup

/-!
This module contains `ConcurrentSet`, a set whose elements are found by a key. Each of its methods
runs under the mutex of the set and so is one step. The order of a `std::set` is not kept, as no
method shows it.
-/

structure ConcurrentSet (T : Type u) {Key : Type v} (key : T → Key) where
  set : List T
  nodup : (set.map key).Nodup

namespace ConcurrentSet

variable {T : Type u} {Key : Type v} {key : T → Key}

def empty : ConcurrentSet T key where
  set := []
  nodup := List.nodup_nil

def eraseIf (s : ConcurrentSet T key) (predicate : T → Bool) : ConcurrentSet T key where
  set := s.set.filter fun a => !predicate a
  nodup := s.nodup.sublist (List.filter_sublist.map key)

instance : Membership T (ConcurrentSet T key) where
  mem s a := a ∈ s.set

variable {s : ConcurrentSet T key} {k : Key} {a b : T} {pred : T → Bool}

theorem mem_def : a ∈ s ↔ a ∈ s.set := Iff.rfl

theorem not_mem_empty (a : T) : a ∉ (empty : ConcurrentSet T key) :=
  List.not_mem_nil

theorem mem_eraseIf : a ∈ s.eraseIf pred ↔ a ∈ s ∧ pred a = false := by
  simp [mem_def, eraseIf]

theorem eq_of_key (ha : a ∈ s) (hb : b ∈ s) (hkey : key a = key b) : a = b :=
  List.inj_on_of_nodup_map s.nodup ha hb hkey

variable [DecidableEq Key]

def find (s : ConcurrentSet T key) (k : Key) : Option T :=
  s.set.find? (key · = k)

/--
An element with the same key stays and the new one is dropped, as `std::set::insert` has it.
-/
def insert (s : ConcurrentSet T key) (value : T) : ConcurrentSet T key :=
  if h : key value ∈ s.set.map key then
    s
  else
    { set := value :: s.set
      nodup := by
        rw [List.map_cons, List.nodup_cons]
        exact ⟨h, s.nodup⟩ }

def getAndEraseIf (s : ConcurrentSet T key) (k : Key) (pred : T → Bool) :
    Option T × ConcurrentSet T key :=
  match s.find k with
  | none => (none, s)
  | some value => (some value, if pred value then s.eraseIf (key · = k) else s)

theorem find_eq_some_iff : s.find k = some a ↔ a ∈ s ∧ key a = k := by
  constructor
  . intro h
    have hkey := List.find?_some h
    exact ⟨List.mem_of_find?_eq_some h, by simpa using hkey⟩
  . intro h
    cases hfind : s.find k with
    | none =>
      have hnone := List.find?_eq_none.mp hfind a h.1
      simp [h.2] at hnone
    | some b =>
      have hkey := List.find?_some hfind
      rw [eq_of_key (List.mem_of_find?_eq_some hfind) h.1 (by simpa [h.2] using hkey)]

theorem find_eq_none_iff : s.find k = none ↔ ∀ a ∈ s, key a ≠ k := by
  unfold find
  rw [List.find?_eq_none]
  simp [mem_def]

theorem mem_of_mem_insert (h : a ∈ s.insert b) : a = b ∨ a ∈ s := by
  unfold insert at h
  split at h
  . exact Or.inr h
  . exact List.mem_cons.mp h

theorem mem_insert_of_mem (h : a ∈ s) : a ∈ s.insert b := by
  unfold insert
  split
  . exact h
  . exact List.mem_cons_of_mem b h

theorem mem_insert_self (h : s.find (key a) = none) : a ∈ s.insert a := by
  unfold insert
  split
  . next hmem =>
    rw [find_eq_none_iff] at h
    rw [List.mem_map] at hmem
    rcases hmem with ⟨b, hb, hkey⟩
    exact absurd hkey (h b hb)
  . exact List.mem_cons_self

@[simp]
theorem getAndEraseIf_fst : (s.getAndEraseIf k pred).1 = s.find k := by
  unfold getAndEraseIf
  split
  . next h => exact h.symm
  . next h => exact h.symm

theorem mem_getAndEraseIf :
    a ∈ (s.getAndEraseIf k pred).2 ↔ a ∈ s ∧ (key a = k → pred a = false) := by
  -- only the element that was found can be gone, and it is if the predicate says so
  unfold getAndEraseIf
  cases hfind : s.find k with
  | none =>
    rw [find_eq_none_iff] at hfind
    constructor
    . intro h
      exact ⟨h, fun hkey => absurd hkey (hfind a h)⟩
    . exact And.left
  | some b =>
    rw [find_eq_some_iff] at hfind
    have hsame (ha : a ∈ s) (hkey : key a = k) : a = b :=
      eq_of_key ha hfind.1 (hkey.trans hfind.2.symm)
    dsimp only
    split
    . next hpred =>
      rw [mem_eraseIf, decide_eq_false_iff_not]
      constructor
      . intro h
        exact ⟨h.1, fun hkey => absurd hkey h.2⟩
      . intro h
        refine ⟨h.1, ?_⟩
        intro hkey
        have hfalse := h.2 hkey
        rw [hsame h.1 hkey, hpred] at hfalse
        cases hfalse
    . next hpred =>
      constructor
      . intro h
        refine ⟨h, ?_⟩
        intro hkey
        rw [hsame h hkey]
        simpa using hpred
      . exact And.left

end ConcurrentSet
