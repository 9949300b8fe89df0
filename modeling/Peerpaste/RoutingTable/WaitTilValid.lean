import Peerpaste.Locks.Monitor
import Peerpaste.RoutingTable.Validity

/-!
This module contains threads that wait in `wait_til_valid` while others set the parts of the routing
table.
-/

namespace Peerpaste

namespace ConcurrentRoutingTable

open Locks (Monitor)

variable {T : Type} {τ : Type u}

def Call.notifies : Call T → Bool
  | .setPredecessor _ => true
  | .setSuccessor _ => true
  | _ => false

def waitTilValid [Inhabited T] : Monitor.Code (ConcurrentRoutingTable T) (Call T) where
  ready := isValid
  run := call
  notifies := Call.notifies

def SelfNotLast (m : Monitor (ConcurrentRoutingTable T) τ) : Monitor.Event τ (Call T) → Prop
  | .call (.setSelf _) => m.shared.predecessorIsSet → m.shared.successorIsSet →
    ∀ t, m.waiters t ≠ .asleep
  | _ => True

section Call

variable {t t' : ConcurrentRoutingTable T} [Inhabited T]

theorem isValid_of_call {c : Call T} (hnotifies : c.notifies = false)
    (hself : ∀ self, c ≠ .setSelf self) (hcall : t.call c = some t') (hvalid : t'.isValid = true) :
    t.isValid = true := by
  cases c with
  | tryGetSelf =>
    simp only [call, tryGetSelf, Option.some.injEq] at hcall
    split at hcall
    . subst hcall
      simp [isValid] at hvalid
    . subst hcall
      exact hvalid
  | setSelf self => exact absurd rfl (hself self)
  | tryGetPredecessor =>
    simp only [call, tryGetPredecessor, Option.some.injEq] at hcall
    split at hcall
    . subst hcall
      simp [isValid] at hvalid
    . subst hcall
      exact hvalid
  | setPredecessor predecessor => cases hnotifies
  | tryGetSuccessor =>
    simp only [call, tryGetSuccessor, Option.some.injEq] at hcall
    split at hcall
    . subst hcall
      simp [isValid] at hvalid
    . subst hcall
      exact hvalid
  | setSuccessor successor => cases hnotifies
  | replaceAfterSuccessor newSuccList =>
    rcases Option.map_eq_some_iff.mp hcall with ⟨rt, _, rfl⟩
    exact hvalid
  | resetPredecessor =>
    cases hcall
    exact hvalid
  | replaceSuccessorList newSuccList =>
    cases hcall
    exact hvalid
  | popFront =>
    cases hcall
    exact hvalid

end Call

section Step

variable [Inhabited T] {m : Monitor (ConcurrentRoutingTable T) τ}

theorem selfNotLast_iff (h : Monitor.NoLostWakeup waitTilValid m) (e : Monitor.Event τ (Call T)) :
    SelfNotLast m e ↔ Monitor.LeavesNoneAsleep waitTilValid m e := by
  cases e with
  | call c =>
    by_cases hself : ∃ self, c = .setSelf self
    . rcases hself with ⟨self, rfl⟩
      constructor
      . intro hlast _ t hcall hvalid
        cases hcall
        simp only [waitTilValid, isValid, setSelf, withTable, Bool.true_and, Bool.and_eq_true]
          at hvalid
        exact hlast hvalid.1 hvalid.2
      . intro hnone hpredecessor hsuccessor
        apply hnone rfl _ rfl
        simp [waitTilValid, isValid, setSelf, withTable, hpredecessor, hsuccessor]
    . have hne : ∀ self, c ≠ .setSelf self := fun self heq => hself ⟨self, heq⟩
      constructor
      . intro _ hnotifies t hcall hvalid
        exact h (isValid_of_call hnotifies hne hcall hvalid)
      . intro _
        cases c with
        | setSelf self => exact absurd rfl (hne self)
        | _ => trivial
  | _ => exact Iff.rfl

theorem selfNotLast_of_step_none [DecidableEq τ] {e : Monitor.Event τ (Call T)}
    (hstep : m.step waitTilValid e = none) : SelfNotLast m e := by
  cases e with
  | call c =>
    cases c with
    | setSelf self => cases hstep
    | _ => trivial
  | _ => trivial

end Step

theorem noLostWakeup_iff [Inhabited T] [DecidableEq τ]
    (selfIsSet predecessorIsSet successorIsSet : Bool) (events : List (Monitor.Event τ (Call T))) :
    (∀ pre, pre <+: events → ∀ m, Run.exec (Monitor.step waitTilValid)
        (Monitor.start (construct selfIsSet predecessorIsSet successorIsSet)) pre = some m →
      Monitor.NoLostWakeup waitTilValid m)
      ↔
    Run.Along (Monitor.step waitTilValid) SelfNotLast
      (Monitor.start (construct selfIsSet predecessorIsSet successorIsSet)) events := by
  symm
  refine Run.along_iff_of_step (fun m e (_ : True) hnone => selfNotLast_of_step_none hnone) ?_
    trivial (Monitor.start_noLostWakeup _ _)
  intro m e m' _ h hstep
  refine ⟨trivial, ?_⟩
  rw [selfNotLast_iff h]
  exact Monitor.step_noLostWakeup_iff h hstep

/--
A thread waits, and of the three parts the self is set last.
-/
theorem not_noLostWakeup_ofSelfLast :
    let peer : Peer := ⟨"123ABC", "10.0.0.1", "1337"⟩
    let events : List (Monitor.Event Nat (Call Peer)) :=
      [.wait 0, .call (.setPredecessor peer), .call (.setSuccessor peer), .recheck 0,
        .call (.setSelf peer)]
    ¬ ∀ pre, pre <+: events → ∀ m, Run.exec (Monitor.step waitTilValid)
        (Monitor.start (construct false false false)) pre = some m →
      Monitor.NoLostWakeup waitTilValid m := by
  intro peer events h
  exact h events List.prefix_rfl _ rfl rfl 0 rfl

end ConcurrentRoutingTable

end Peerpaste
