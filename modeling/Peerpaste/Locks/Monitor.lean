import Mathlib.Logic.Function.Basic
import Peerpaste.Run.Basic

/-!
This module contains data with a mutex and a condition variable: threads that wait until the data is
ready, threads that change it, and when a waiter misses that it became ready.
-/

namespace Locks

inductive WaitState where
  | outside
  | asleep
  | woken
  deriving DecidableEq, Repr

structure Monitor (σ : Type u) (τ : Type v) where
  shared : σ
  waiters : τ → WaitState

namespace Monitor

/--
What the threads wait for, and the calls that change the data, each of them with the mutex. Some of
them end with `notify_all`.
-/
structure Code (σ : Type u) (ε : Type w) where
  ready : σ → Bool
  run : σ → ε → Option σ
  notifies : ε → Bool

inductive Event (τ : Type v) (ε : Type w) where
  | wait (t : τ)
  | recheck (t : τ)
  | spuriousWakeup (t : τ)
  | call (e : ε)
  deriving DecidableEq, Repr

variable {σ : Type u} {τ : Type v} {ε : Type w}

def start (shared : σ) : Monitor σ τ where
  shared := shared
  waiters _ := .outside

def notifyAll (m : Monitor σ τ) : Monitor σ τ :=
  { m with waiters := fun t => if m.waiters t = .asleep then .woken else m.waiters t }

def LeavesNoneAsleep (code : Code σ ε) (m : Monitor σ τ) : Event τ ε → Prop
  | .call e => code.notifies e = false → ∀ shared, code.run m.shared e = some shared →
    code.ready shared = true → ∀ t, m.waiters t ≠ .asleep
  | _ => True

def NoLostWakeup (code : Code σ ε) (m : Monitor σ τ) : Prop :=
  code.ready m.shared = true → ∀ t, m.waiters t ≠ .asleep

theorem start_noLostWakeup (code : Code σ ε) (shared : σ) :
    NoLostWakeup code (start shared : Monitor σ τ) := by
  intro _ t h
  cases h

theorem notifyAll_waiters (m : Monitor σ τ) (t : τ) : m.notifyAll.waiters t ≠ .asleep := by
  unfold notifyAll
  dsimp only
  split
  . simp
  . assumption

section Step

variable [DecidableEq τ]

def check (code : Code σ ε) (m : Monitor σ τ) (t : τ) : Monitor σ τ :=
  { m with
    waiters := Function.update m.waiters t (if code.ready m.shared then .outside else .asleep) }

def step (code : Code σ ε) (m : Monitor σ τ) : Event τ ε → Option (Monitor σ τ)
  | .wait t => if m.waiters t = .outside then some (m.check code t) else none
  | .recheck t => if m.waiters t = .woken then some (m.check code t) else none
  | .spuriousWakeup t =>
    if m.waiters t = .asleep then
      some { m with waiters := Function.update m.waiters t .woken }
    else
      none
  | .call e => (code.run m.shared e).map fun shared =>
    let m := { m with shared := shared }
    if code.notifies e then m.notifyAll else m

variable {code : Code σ ε} {m m' : Monitor σ τ}

theorem NoLostWakeup.update (h : NoLostWakeup code m) {t : τ} {state : WaitState}
    (hstate : code.ready m.shared = true → state ≠ .asleep) :
    NoLostWakeup code { m with waiters := Function.update m.waiters t state } := by
  intro hready u
  dsimp only
  rw [Function.update_apply]
  split
  . exact hstate hready
  . exact h hready u

theorem NoLostWakeup.check (h : NoLostWakeup code m) (t : τ) :
    NoLostWakeup code (m.check code t) := by
  apply h.update
  intro hready
  simp [hready]

theorem step_noLostWakeup_iff {e : Event τ ε} (h : NoLostWakeup code m)
    (hstep : m.step code e = some m') :
    LeavesNoneAsleep code m e ↔ NoLostWakeup code m' := by
  cases e with
  | wait t =>
    simp only [step, Option.ite_none_right_eq_some, Option.some.injEq] at hstep
    rw [← hstep.2]
    exact ⟨fun _ => h.check t, fun _ => trivial⟩
  | recheck t =>
    simp only [step, Option.ite_none_right_eq_some, Option.some.injEq] at hstep
    rw [← hstep.2]
    exact ⟨fun _ => h.check t, fun _ => trivial⟩
  | spuriousWakeup t =>
    simp only [step, Option.ite_none_right_eq_some, Option.some.injEq] at hstep
    rw [← hstep.2]
    exact ⟨fun _ => h.update (by simp), fun _ => trivial⟩
  | call e =>
    simp only [step, Option.map_eq_some_iff] at hstep
    rcases hstep with ⟨shared, hrun, rfl⟩
    cases hnotifies : code.notifies e with
    | true =>
      constructor
      . intro _ _ t
        exact notifyAll_waiters _ t
      . intro _ hfalse
        rw [hnotifies] at hfalse
        cases hfalse
    | false =>
      constructor
      . intro hnone hready
        exact hnone hnotifies shared hrun hready
      . intro hnone _ shared' hrun' hready
        rw [hrun, Option.some.injEq] at hrun'
        exact hnone (hrun' ▸ hready)

end Step

end Monitor

end Locks
