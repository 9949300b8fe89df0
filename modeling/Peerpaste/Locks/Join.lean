import Peerpaste.Locks.Scoped
import Peerpaste.Message.Basic
import Peerpaste.Messages.Basic
import Peerpaste.Run.Basic

/-!
This module contains the mutexes that the chord thread and the dispatcher take around a `Join` and
the messages it depends on.
-/

namespace Peerpaste

namespace JoinLocks

open Locks

/--
The mutex of `active_messages_`, the ones of the message objects, and three that are only taken for
a moment.
-/
inductive Mutex where
  | activeMessages
  | message (n : Nat)
  | routingTable
  | activeHandlers
  | sendQueue
  deriving DecidableEq, Repr

inductive ThreadName where
  | chord
  | dispatcher
  deriving DecidableEq, Repr

instance : Fintype ThreadName where
  elems := {.chord, .dispatcher}
  complete := by
    intro t
    cases t
    . simp
    . simp

/--
The parts of the code that run with the mutexes that were taken for them, under the names of their
functions. `anyOf` and `alreadyTimedOut` are the loop over the dependencies in `check_state`.
-/
inductive Call where
  | clean
  | cleanFrom (it : Nat)
  | cleaned (it : Nat)
  | checkState (n : Nat)
  | anyOf (n : Nat) (dependencies : List Nat)
  | alreadyTimedOut (n : Nat) (dependencies : List Nat)
  | getAndEraseIf (k : Nat)
  | lockParent (k : Nat)
  | handleResponse (k : Nat)
  | requestDestruction (n : Nat)
  | handleNotification (i : Nat)
  | createRequest (k : Nat)
  | insert (k : Nat)
  deriving DecidableEq, Repr

abbrev Code := List (Op Mutex Call)

structure Object where
  type : MessageType
  parent : Option Nat := none
  state : MessageState := .valid
  isDone : Bool := false
  hasPromise : Bool := false
  hasHandler : Bool := false
  dependencies : List Nat := []
  deriving DecidableEq, Repr

structure Shared where
  objects : Nat → Option Object
  next : Nat
  activeMessages : List Nat
  returned : MessageState := .valid

namespace Object

def setPromise (o : Object) : Object :=
  { o with hasPromise := true }

def handleFailed (o : Object) : Object :=
  match o.type with
  | .query | .findSuccessor => o.setPromise
  | .getSuccessorList => { o.setPromise with state := .failed }
  | _ => { o with state := .failed }

end Object

namespace Shared

def modify (s : Shared) (n : Nat) (f : Object → Object) : Shared :=
  { s with objects := Function.update s.objects n ((s.objects n).map f) }

def isAlive (s : Shared) (k : Nat) : Bool :=
  s.activeMessages.any fun i => (s.objects i).any fun o => decide (k ∈ o.dependencies)

end Shared

def checkState (n : Nat) : Code :=
  scopedLock (.message n) [.call (.checkState n)]

def createRequest (k : Nat) : Code :=
  scopedLock (.message k) [.call (.createRequest k)]

def start (s : Shared) (i : Nat) (type : MessageType) : Shared :=
  let k := s.next
  let s := s.modify i fun o => { o with dependencies := [k] }
  { s with
    objects := Function.update s.objects k (some { type := type, parent := some i })
    next := k + 1 }

/--
What is behind a call. The `choice` says whether the time of an object is over, or whether a
response has one peer. `none` is the end of the thread.
-/
def expand (s : Shared) (_ : ThreadName) (c : Call) (choice : Bool) : Option (Shared × Code) :=
  match c with
  | .clean => some (s, [.call (.cleanFrom 0)])
  | .cleanFrom it =>
    match s.activeMessages[it]? with
    | none => some (s, [])
    | some n => some (s, checkState n ++ [.call (.cleaned it)])
  | .cleaned it => do
    let n ← s.activeMessages[it]?
    let o ← s.objects n
    if o.isDone then
      let last ← s.activeMessages.getLast?
      return ({ s with activeMessages := (s.activeMessages.set it last).dropLast },
        [.call (.cleanFrom it)])
    else
      return (s, [.call (.cleanFrom (it + 1))])
  | .checkState n => do
    let o ← s.objects n
    if o.isDone then
      return ({ s with returned := o.state }, [])
    else if choice then
      let o := { o with state := .timedOut, isDone := true }.handleFailed
      return ({ s.modify n (fun _ => o) with returned := o.state }, [])
    else
      return (s, [.call (.anyOf n o.dependencies)])
  | .anyOf _ [] => some ({ s with returned := .valid }, [])
  | .anyOf n (k :: dependencies) =>
    some (s, checkState k ++ [.call (.alreadyTimedOut n dependencies)])
  | .alreadyTimedOut n dependencies =>
    if s.returned = .failed ∨ s.returned = .timedOut then
      some ({ s.modify n (fun o => { o.handleFailed with isDone := true }) with
        returned := .timedOut }, [])
    else
      some (s, [.call (.anyOf n dependencies)])
  | .getAndEraseIf k => some (s.modify k fun o => { o with hasHandler := false }, [])
  | .lockParent k =>
    if s.isAlive k then
      some (s, scopedLock (.message k) [.call (.handleResponse k)])
    else
      some (s, [])
  | .handleResponse k => do
    let o ← s.objects k
    if o.hasPromise then
      none
    else
      let answered (state : MessageState) : Shared :=
        s.modify k fun o => { o.setPromise with state := state }
      match o.type, choice with
      | .query, true =>
        some (answered .done, scopedLock .routingTable [] ++ [.call (.requestDestruction k)])
      | .query, false => some (answered .failed, [.call (.requestDestruction k)])
      | .findSuccessor, true | .getSuccessorList, _ =>
        some (answered .done, [.call (.requestDestruction k)])
      | _, _ => none
  | .requestDestruction n => do
    let o ← s.objects n
    let s := s.modify n fun o => { o with isDone := true }
    match o.parent with
    | none => return (s, scopedLock .activeHandlers [])
    | some i =>
      if i ∈ s.activeMessages then
        return (s, scopedLock (.message i) [.call (.handleNotification i)])
      else
        return (s, [])
  | .handleNotification i => do
    let o ← s.objects i
    let k ← o.dependencies.head?
    let dependency ← s.objects k
    if !dependency.isDone || dependency.state ≠ .done then
      return (s.modify i fun o => { o with state := .failed }, [.call (.requestDestruction i)])
    else
      match dependency.type with
      | .query => return (start s i .findSuccessor, createRequest s.next)
      | .findSuccessor =>
        return (start s i .getSuccessorList, scopedLock .routingTable [] ++ createRequest s.next)
      | .getSuccessorList =>
        return (s.modify i fun o => { o with state := .done },
          scopedLock .routingTable [] ++ [.call (.requestDestruction i)])
      | _ => return (s, [])
  | .createRequest k =>
    some (s, scopedLock .activeHandlers [.call (.insert k)] ++ scopedLock .sendQueue [])
  | .insert k => some (s.modify k fun o => { o with hasHandler := true }, [])

abbrev State := Locks.State Shared ThreadName Mutex Call

def init : State where
  shared := { objects := fun _ => none, next := 0, activeMessages := [] }
  threads _ := {}

/--
A thread that calls `join` puts the new object into `active_messages_` after its query is out, when
it has no other mutex any more.
-/
inductive Event where
  | join
  | clean
  | response (k : Nat)
  | run (t : ThreadName) (choice : Bool)
  deriving DecidableEq, Repr

def join (s : Shared) : Shared :=
  let i := s.next
  let k := i + 1
  { s with
    objects := Function.update (Function.update s.objects i
      (some { type := .join, dependencies := [k] })) k
      (some { type := .query, parent := some i, hasHandler := true })
    next := k + 1
    activeMessages := s.activeMessages ++ [i] }

def step (s : State) : Event → Option State
  | .join =>
    if ∀ t, .activeMessages ∉ (s.threads t).held then
      some { s with shared := join s.shared }
    else
      none
  | .clean =>
    if (s.threads .chord).code = [] then
      some (s.set .chord ⟨(s.threads .chord).held, scopedLock .activeMessages [.call .clean]⟩)
    else
      none
  | .response k =>
    if (s.threads .dispatcher).code = [] ∧ (s.shared.objects k).any (·.hasHandler) then
      some (s.set .dispatcher ⟨(s.threads .dispatcher).held,
        scopedLock .activeHandlers [.call (.getAndEraseIf k)] ++ [.call (.lockParent k)]⟩)
    else
      none
  | .run t choice => s.run expand t choice

def NoLockCycle (s : State) : Prop :=
  ∀ t u, ¬ (s.Waits t u ∧ s.Waits u t)

def KeepsApart (s : State) : Event → Prop
  | .run .chord _ => ∀ i k dependencies code,
    (s.threads .chord).code = .call (.anyOf i (k :: dependencies)) :: code →
    .message k ∉ (s.threads .dispatcher).held
  | .run .dispatcher _ => ∀ k,
    (s.threads .dispatcher).held = [] → (s.threads .dispatcher).wants = some (.message k) →
    (s.threads .chord).wants ≠ some (.message k)
  | _ => True

def checked? : Code → Option Nat
  | .call (.anyOf _ (k :: _)) :: _ => some k
  | _ => none

def Mutex.isMessage : Mutex → Bool
  | .message _ => true
  | _ => false

theorem keepsApart_chord_iff {s : State} {choice : Bool} :
    KeepsApart s (.run .chord choice)
      ↔
    ∀ k ∈ checked? (s.threads .chord).code, .message k ∉ (s.threads .dispatcher).held := by
  simp only [KeepsApart]
  constructor
  . intro h k hk
    unfold checked? at hk
    split at hk
    . next hcode =>
      cases hk
      exact h _ _ _ _ hcode
    . cases hk
  . intro h i k dependencies code hcode
    apply h k
    rw [hcode]
    rfl

theorem keepsApart_dispatcher_iff {s : State} {choice : Bool} :
    KeepsApart s (.run .dispatcher choice)
      ↔
    ((s.threads .dispatcher).held = [] → ∀ m ∈ (s.threads .dispatcher).wants, m.isMessage →
      (s.threads .chord).wants ≠ some m) := by
  simp only [KeepsApart]
  constructor
  . intro h hheld m hm hmessage
    cases m with
    | message k => exact h k hheld hm
    | _ => cases hmessage
  . intro h k hheld hwants
    exact h hheld (.message k) hwants rfl

instance (s : State) : ∀ e, Decidable (KeepsApart s e)
  | .run .chord _ => decidable_of_iff _ keepsApart_chord_iff.symm
  | .run .dispatcher _ => decidable_of_iff _ keepsApart_dispatcher_iff.symm
  | .join => isTrue trivial
  | .clean => isTrue trivial
  | .response _ => isTrue trivial

end JoinLocks

end Peerpaste
