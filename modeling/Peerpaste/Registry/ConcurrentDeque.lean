import Mathlib.Data.List.Perm.Basic

/-!
This module contains `ConcurrentDeque`, a deque of pointers to objects that are checked in turn and
taken out when they are done. Each of its methods runs under the mutex of the deque and so is one
step.
-/

/--
What the deque calls of an object that a pointer `T` leads to, and what becomes of everything that
the calls reach. `release` is the end of a pointer that was overwritten or popped.
-/
structure Pointee (T : Type u) (σ : Type v) where
  checkState : T → σ → σ
  isDone : T → σ → Bool
  release : T → σ → σ

/--
A pointer that was moved from is null.
-/
structure ConcurrentDeque (T : Type u) where
  deque : List (Option T)
  deriving DecidableEq, Repr

namespace ConcurrentDeque

variable {T : Type u} {σ : Type v}

def ofList (l : List T) : ConcurrentDeque T where
  deque := l.map some

def pushBack (d : ConcurrentDeque T) (newValue : T) : ConcurrentDeque T where
  deque := d.deque ++ [some newValue]

/--
`*it = std::move(deque_.back())`. A pointer that is moved to itself keeps its value.
-/
def moveBackTo (deque : List (Option T)) (it : Nat) : List (Option T) :=
  if it + 1 = deque.length then
    deque
  else
    (deque.set it (deque.getLast?.join)).set (deque.length - 1) none

theorem moveBackTo_length (deque : List (Option T)) (it : Nat) :
    (moveBackTo deque it).length = deque.length := by
  unfold moveBackTo
  split
  . rfl
  . simp

/--
The loop of `clean`, where `it` is the place that the iterator is at. `none` if a null pointer is
used.
-/
def cleanFrom (p : Pointee T σ) (deque : List (Option T)) (it : Nat) (s : σ) :
    Option (ConcurrentDeque T × σ) :=
  if h : it < deque.length then
    match deque[it] with
    | none => none
    | some a =>
      let s := p.checkState a s
      if !p.isDone a s then
        cleanFrom p deque (it + 1) s
      else
        cleanFrom p (moveBackTo deque it).dropLast it (p.release a s)
  else
    some (⟨deque⟩, s)
  termination_by deque.length - it
  decreasing_by
    . omega
    . rw [List.length_dropLast, moveBackTo_length]
      omega

def clean (p : Pointee T σ) (d : ConcurrentDeque T) (s : σ) : Option (ConcurrentDeque T × σ) :=
  cleanFrom p d.deque 0 s

def checkAll (p : Pointee T σ) : List T → σ → List (T × Bool) × σ
  | [], s => ([], s)
  | a :: as, s =>
    let s := p.checkState a s
    let checked := checkAll p as (if p.isDone a s then p.release a s else s)
    ((a, p.isDone a s) :: checked.1, checked.2)

def notDone (checked : List (T × Bool)) : List T :=
  (checked.filter (!·.2)).map (·.1)

section Loop

variable {p : Pointee T σ} {a b : T} {kept todo : List T} {s : σ}

theorem cleanFrom_nil (p : Pointee T σ) (kept : List T) (s : σ) :
    cleanFrom p (kept.map some) kept.length s = some (ofList kept, s) := by
  unfold cleanFrom
  simp [ofList]

theorem cleanFrom_of_not_done (hdone : p.isDone a (p.checkState a s) = false) :
    cleanFrom p ((kept ++ a :: todo).map some) kept.length s =
      cleanFrom p (((kept ++ [a]) ++ todo).map some) (kept ++ [a]).length (p.checkState a s) := by
  rw [cleanFrom]
  simp [hdone]

theorem moveBackTo_self (kept : List T) (a : T) :
    (moveBackTo ((kept ++ [a]).map some) kept.length).dropLast = kept.map some := by
  simp [moveBackTo]

theorem moveBackTo_back (kept todo : List T) (a b : T) :
    (moveBackTo ((kept ++ a :: (todo ++ [b])).map some) kept.length).dropLast =
      (kept ++ b :: todo).map some := by
  have heq : (kept ++ a :: (todo ++ [b])).map some = (kept ++ a :: todo).map some ++ [some b] := by
    simp
  have hlength : ((kept ++ a :: todo).map some).length = ((kept ++ b :: todo).map some).length := by
    simp
  have hset : ((kept ++ a :: todo).map some ++ [some b]).set kept.length (some b) =
      (kept ++ b :: todo).map some ++ [some b] := by
    simp
  unfold moveBackTo
  rw [heq, if_neg (by simp), List.getLast?_concat, Option.join_some, hset, List.length_append,
    List.length_singleton, Nat.add_sub_cancel, hlength, List.set_append_right _ _ (Nat.le_refl _),
    Nat.sub_self, List.set_cons_zero, List.dropLast_concat]

theorem cleanFrom_of_done (hdone : p.isDone a (p.checkState a s) = true) :
    cleanFrom p ((kept ++ a :: todo).map some) kept.length s =
      cleanFrom p (moveBackTo ((kept ++ a :: todo).map some) kept.length).dropLast kept.length
        (p.release a (p.checkState a s)) := by
  rw [cleanFrom]
  simp [hdone]

theorem cleanFrom_checkAll (p : Pointee T σ) (kept todo : List T) (s : σ) :
    ∃ order, order.Perm todo
      ∧ cleanFrom p ((kept ++ todo).map some) kept.length s =
        some (ofList (kept ++ notDone (checkAll p order s).1), (checkAll p order s).2) := by
  -- the iterator stands behind the objects that are kept, and what is behind it gets shorter
  induction h : todo.length generalizing kept todo s with
  | zero =>
    rw [List.length_eq_zero_iff] at h
    subst h
    refine ⟨[], .nil, ?_⟩
    simpa [checkAll, notDone] using cleanFrom_nil p kept s
  | succ n ih =>
    rcases List.exists_cons_of_length_eq_add_one h with ⟨a, todo, rfl⟩
    simp only [List.length_cons, Nat.add_right_cancel_iff] at h
    cases hdone : p.isDone a (p.checkState a s) with
    | false =>
      rcases ih (kept ++ [a]) todo (p.checkState a s) h with ⟨order, hperm, hclean⟩
      refine ⟨a :: order, hperm.cons a, ?_⟩
      rw [cleanFrom_of_not_done hdone, hclean]
      simp [checkAll, notDone, hdone]
    | true =>
      rw [cleanFrom_of_done hdone]
      rcases List.eq_nil_or_concat' todo with rfl | ⟨todo, b, rfl⟩
      . refine ⟨[a], .refl _, ?_⟩
        rw [moveBackTo_self, cleanFrom_nil]
        simp [checkAll, notDone, hdone]
      . rw [List.length_append, List.length_singleton] at h
        rcases ih kept (b :: todo) (p.release a (p.checkState a s)) (by simpa using h) with
          ⟨order, hperm, hclean⟩
        refine ⟨a :: order, (hperm.trans (List.perm_append_singleton b todo).symm).cons a, ?_⟩
        rw [moveBackTo_back, hclean]
        simp [checkAll, notDone, hdone]

theorem checkAll_map_fst (p : Pointee T σ) (order : List T) (s : σ) :
    (checkAll p order s).1.map (·.1) = order := by
  induction order generalizing s with
  | nil => rfl
  | cons a as ih =>
    simp only [checkAll, List.map_cons]
    rw [ih]

theorem mem_notDone_iff {checked : List (T × Bool)} :
    a ∈ notDone checked ↔ (a, false) ∈ checked := by
  simp [notDone]

end Loop

/--
`clean` comes to its end, calls `check_state` once for each object in the deque, and keeps exactly
those that were not done then.
-/
theorem clean_keepsNotDone (p : Pointee T σ) (l : List T) (s : σ) :
    ∃ checked s', clean p (ofList l) s = some (ofList (notDone checked), s')
      ∧ checkAll p (checked.map (·.1)) s = (checked, s')
      ∧ (checked.map (·.1)).Perm l := by
  rcases cleanFrom_checkAll p [] l s with ⟨order, hperm, hclean⟩
  refine ⟨_, _, hclean, ?_, ?_⟩
  . rw [checkAll_map_fst]
  . rw [checkAll_map_fst]
    exact hperm

end ConcurrentDeque
