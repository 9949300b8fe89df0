import Peerpaste.Run.Basic

/-!
This module contains `ConcurrentQueue` with the threads that push to it, pop from it and wait on its
condition variable, of which a push wakes up one. Whoever is woken up still has to get the mutex.
-/

structure Waiter (τ : Type v) where
  thread : τ
  isTimed : Bool
  timedOut : Bool := false
  deriving DecidableEq, Repr

/--
`condition` are the threads that sleep and `woken` those that were woken up. Nothing reads what was
pushed and what the calls have returned.
-/
structure ConcurrentQueue (α : Type u) (τ : Type v) where
  queue : List α := []
  condition : List (Waiter τ) := []
  woken : List (Waiter τ) := []
  pushed : List α := []
  returned : List (τ × Option α) := []
  deriving DecidableEq, Repr

/--
`push` has the place of the waiter that `notify_one` picks, if somebody sleeps.
-/
inductive QueueEvent (α : Type u) (τ : Type v) where
  | push (newValue : α) (i : Nat)
  | tryPop (t : τ)
  | waitAndPop (t : τ)
  | waitForAndPop (t : τ)
  | recheck (i : Nat)
  | spuriousWakeup (i : Nat)
  | timeOut (i : Nat)
  deriving DecidableEq, Repr

namespace ConcurrentQueue

variable {α : Type u} {τ : Type v}

def popFront (q : ConcurrentQueue α τ) (t : τ) : ConcurrentQueue α τ :=
  { q with queue := q.queue.tail, returned := q.returned ++ [(t, q.queue.head?)] }

def notifyOne (q : ConcurrentQueue α τ) (i : Nat) : Option (ConcurrentQueue α τ) :=
  if q.condition = [] then
    some q
  else
    q.condition[i]?.map fun w => { q with
      condition := q.condition.eraseIdx i, woken := q.woken ++ [w] }

def push (q : ConcurrentQueue α τ) (newValue : α) (i : Nat) : Option (ConcurrentQueue α τ) :=
  notifyOne { q with queue := q.queue ++ [newValue], pushed := q.pushed ++ [newValue] } i

/--
The loop of `wait` with the predicate, for a thread that has the mutex. `wait_for` returns the
predicate when the time is over.
-/
def check (q : ConcurrentQueue α τ) (w : Waiter τ) : ConcurrentQueue α τ :=
  if q.queue ≠ [] ∨ w.timedOut then
    q.popFront w.thread
  else
    { q with condition := q.condition ++ [w] }

def isWaiting [DecidableEq τ] (q : ConcurrentQueue α τ) (t : τ) : Bool :=
  (q.condition ++ q.woken).any (·.thread = t)

def step [DecidableEq τ] (q : ConcurrentQueue α τ) : QueueEvent α τ → Option (ConcurrentQueue α τ)
  | .push newValue i => q.push newValue i
  | .tryPop t => if q.isWaiting t then none else some (q.popFront t)
  | .waitAndPop t => if q.isWaiting t then none else some (q.check ⟨t, false, false⟩)
  | .waitForAndPop t => if q.isWaiting t then none else some (q.check ⟨t, true, false⟩)
  | .recheck i => q.woken[i]?.map fun w => { q with woken := q.woken.eraseIdx i }.check w
  | .spuriousWakeup i => q.condition[i]?.map fun w =>
    { q with condition := q.condition.eraseIdx i, woken := q.woken ++ [w] }
  | .timeOut i => q.condition[i]?.bind fun w =>
    if w.isTimed then
      some { q with
        condition := q.condition.eraseIdx i, woken := q.woken ++ [{ w with timedOut := true }] }
    else
      none

/--
What was pushed has been returned once, in the order in which it was pushed, or is in the queue. If
somebody sleeps, then there are no more values than threads that are on their way to them.
-/
structure Delivers (q : ConcurrentQueue α τ) : Prop where
  inOrder : q.returned.filterMap (·.2) ++ q.queue = q.pushed
  noLostWakeup : q.condition ≠ [] → q.queue.length ≤ q.woken.length

variable {q q' : ConcurrentQueue α τ}

theorem popFront_inOrder (h : q.returned.filterMap (·.2) ++ q.queue = q.pushed) (t : τ) :
    (q.popFront t).returned.filterMap (·.2) ++ (q.popFront t).queue = (q.popFront t).pushed := by
  refine Eq.trans ?_ h
  cases hqueue : q.queue with
  | nil => simp [popFront, hqueue]
  | cons a rest => simp [popFront, hqueue]

theorem check_delivers (w : Waiter τ) (hinOrder : q.returned.filterMap (·.2) ++ q.queue = q.pushed)
    (hwoken : q.condition ≠ [] → q.queue.length ≤ q.woken.length + 1) : (q.check w).Delivers := by
  unfold check
  split
  . refine ⟨popFront_inOrder hinOrder w.thread, ?_⟩
    intro hne
    have := hwoken hne
    simp only [popFront, List.length_tail]
    omega
  . next hempty =>
    have hnil : q.queue = [] := Classical.byContradiction fun hne => hempty (Or.inl hne)
    refine ⟨hinOrder, ?_⟩
    intro _
    rw [hnil]
    exact Nat.zero_le _

theorem push_delivers (h : q.Delivers) {newValue : α} {i : Nat}
    (hpush : q.push newValue i = some q') :
    q'.Delivers := by
  have hinOrder : q.returned.filterMap (·.2) ++ (q.queue ++ [newValue]) = q.pushed
    ++ [newValue] := by
    rw [← List.append_assoc, h.inOrder]
  unfold push notifyOne at hpush
  split at hpush
  . next hnil =>
    cases hpush
    exact ⟨hinOrder, fun hne => absurd hnil hne⟩
  . next hne =>
    rcases Option.map_eq_some_iff.mp hpush with ⟨w, _, rfl⟩
    refine ⟨hinOrder, ?_⟩
    intro _
    have := h.noLostWakeup hne
    simp only [List.length_append, List.length_singleton]
    omega

theorem wake_delivers (h : q.Delivers) {i : Nat} {w : Waiter τ} (hi : q.condition[i]? = some w)
    (w' : Waiter τ) :
    Delivers { q with condition := q.condition.eraseIdx i, woken := q.woken ++ [w'] } := by
  refine ⟨h.inOrder, ?_⟩
  intro _
  have hne : q.condition ≠ [] := List.ne_nil_of_mem (List.mem_of_getElem? hi)
  have := h.noLostWakeup hne
  simp only [List.length_append, List.length_singleton]
  omega

theorem recheck_delivers (h : q.Delivers) {i : Nat} {w : Waiter τ} (hi : q.woken[i]? = some w) :
    Delivers (check { q with woken := q.woken.eraseIdx i } w) := by
  refine check_delivers (q := { q with woken := q.woken.eraseIdx i }) w h.inOrder ?_
  intro hne
  have := h.noLostWakeup hne
  have hlt := (List.getElem?_eq_some_iff.mp hi).1
  simp only [List.length_eraseIdx_of_lt hlt]
  omega

theorem step_delivers [DecidableEq τ] {e : QueueEvent α τ} (h : q.Delivers)
    (hstep : q.step e = some q') :
    q'.Delivers := by
  have hcheck (w : Waiter τ) : (q.check w).Delivers := by
    apply check_delivers w h.inOrder
    intro hne
    exact Nat.le_succ_of_le (h.noLostWakeup hne)
  cases e with
  | push newValue i => exact push_delivers h hstep
  | tryPop t =>
    simp only [step, Option.ite_none_left_eq_some, Option.some.injEq] at hstep
    rw [← hstep.2]
    refine ⟨popFront_inOrder h.inOrder t, ?_⟩
    intro hne
    have := h.noLostWakeup hne
    simp only [popFront, List.length_tail]
    omega
  | waitAndPop t =>
    simp only [step, Option.ite_none_left_eq_some, Option.some.injEq] at hstep
    exact hstep.2 ▸ hcheck _
  | waitForAndPop t =>
    simp only [step, Option.ite_none_left_eq_some, Option.some.injEq] at hstep
    exact hstep.2 ▸ hcheck _
  | recheck i =>
    rcases Option.map_eq_some_iff.mp hstep with ⟨w, hi, rfl⟩
    exact recheck_delivers h hi
  | spuriousWakeup i =>
    rcases Option.map_eq_some_iff.mp hstep with ⟨w, hi, rfl⟩
    exact wake_delivers h hi w
  | timeOut i =>
    rcases Option.bind_eq_some_iff.mp hstep with ⟨w, hi, hstep⟩
    rw [Option.ite_none_right_eq_some, Option.some.injEq] at hstep
    rw [← hstep.2]
    exact wake_delivers h hi _

theorem exec_recheck [DecidableEq τ] (h : q.Delivers) :
    ∃ q', Run.exec step q (List.replicate q.woken.length (.recheck 0)) = some q' ∧ q'.woken = []
      ∧ (q'.queue = [] ∨ q'.condition = []) := by
  generalize hn : q.woken.length = n
  induction n generalizing q with
  | zero =>
    refine ⟨q, rfl, List.eq_nil_of_length_eq_zero hn, ?_⟩
    by_cases hne : q.condition = []
    . exact Or.inr hne
    . have := h.noLostWakeup hne
      exact Or.inl (List.eq_nil_of_length_eq_zero (by omega))
  | succ n ih =>
    rcases List.exists_cons_of_length_eq_add_one hn with ⟨w, woken, hwoken⟩
    have hi : q.woken[0]? = some w := by
      rw [hwoken]
      rfl
    have hstep : q.step (.recheck 0) = some (check { q with woken := q.woken.eraseIdx 0 } w) := by
      simp only [step, hi, Option.map_some]
    have hlength : (check { q with woken := q.woken.eraseIdx 0 } w).woken.length = n := by
      have hlt := (List.getElem?_eq_some_iff.mp hi).1
      have hsame : (check { q with woken := q.woken.eraseIdx 0 } w).woken = q.woken.eraseIdx 0 := by
        unfold check
        split
        . rfl
        . rfl
      rw [hsame, List.length_eraseIdx_of_lt hlt]
      omega
    rcases ih (recheck_delivers h hi) hlength with ⟨q', hexec, hq'⟩
    refine ⟨q', ?_, hq'⟩
    rw [List.replicate_succ, Run.exec_cons, hstep, Option.bind_some, hexec]

/--
However threads push, pop and wait: what was pushed has been returned once and in its order or is
still in the queue, and nobody sleeps beside a value for longer than those take who were woken up,
whomever `notify_one` picks, and whatever wakes up early or goes at the end of its time.
-/
theorem queue_delivers [DecidableEq τ] {events : List (QueueEvent α τ)}
    (hexec : Run.exec step ({} : ConcurrentQueue α τ) events = some q) :
    q.returned.filterMap (·.2) ++ q.queue = q.pushed
      ∧ (q.condition ≠ [] → q.queue.length ≤ q.woken.length)
      ∧ ∃ q', Run.exec step q (List.replicate q.woken.length (.recheck 0)) = some q' ∧ q'.woken = []
        ∧ (q'.queue = [] ∨ q'.condition = []) := by
  have hstart : Delivers ({} : ConcurrentQueue α τ) := ⟨rfl, fun hne => absurd rfl hne⟩
  have h : q.Delivers := Run.exec_invariant (fun _ _ _ => step_delivers) hstart hexec
  exact ⟨h.inOrder, h.noLostWakeup, exec_recheck h⟩

/--
A value comes while two threads wait, and a third one takes it before the one that is woken up has
the mutex.
-/
theorem queue_delivers_threeThreads :
    let events : List (QueueEvent String Nat) :=
      [.waitAndPop 1, .waitForAndPop 2, .push "a" 0, .tryPop 3, .recheck 0, .push "b" 1,
        .timeOut 0, .recheck 1]
    ∃ q, Run.exec step {} events = some q ∧ q.returned.filterMap (·.2) ++ q.queue = ["a", "b"] := by
  intro events
  have hexec : (Run.exec step ({} : ConcurrentQueue String Nat) events).isSome := by decide
  rcases Option.isSome_iff_exists.mp hexec with ⟨q, hq⟩
  have hpushed : ∀ q ∈ Run.exec step ({} : ConcurrentQueue String Nat) events, q.pushed
    = ["a", "b"] := by decide
  have hdelivers := queue_delivers hq
  rw [hpushed q hq] at hdelivers
  exact ⟨q, hq, hdelivers.1⟩

end ConcurrentQueue
