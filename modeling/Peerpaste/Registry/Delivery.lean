import Mathlib.Logic.Function.Basic
import Peerpaste.Message.Basic
import Peerpaste.Registry.ConcurrentSet
import Peerpaste.Run.Basic

/-!
This module contains how responses find the objects that asked for them: the registry of handlers,
the threads that register requests, sweep the registry and destroy objects, and the dispatcher.
-/

namespace Peerpaste

structure HandlerObject (Handler : Type u) (Parent : Type v) where
  correlationId : String
  handler : Handler
  parent : Parent
  isPersistent : Bool := false
  deriving DecidableEq, Repr

abbrev ActiveHandlers (Handler : Type u) (Parent : Type v) :=
  ConcurrentSet (HandlerObject Handler Parent) (·.correlationId)

/--
Where the dispatcher is in `handle_response`: it has copied a handler out of the registry, or it has
locked the weak pointer and calls the handler.
-/
inductive DispatcherState where
  | idle
  | found (handler : HandlerObject Nat Nat) (response : RequestObject)
  | calling (handler : HandlerObject Nat Nat)
  deriving DecidableEq, Repr

/--
The message objects and the functions bound to them are numbered in the order of their creation.
`registering` are the requests whose handler is in the registry and which are not in the send queue
yet.
-/
structure Delivery where
  activeHandlers : ActiveHandlers Nat Nat
  alive : Nat → Bool
  nextObject : Nat
  nextHandler : Nat
  registering : List RequestObject
  sendQueue : List RequestObject
  dispatcher : DispatcherState

namespace Delivery

inductive Event where
  | create
  | insert (request : RequestObject) (parent : Nat) (isPersistent : Bool)
  | push (request : RequestObject)
  | response (response : RequestObject)
  | lock
  | release
  | sweep
  | destroy (i : Nat)
  deriving DecidableEq, Repr

def init : Delivery where
  activeHandlers := .empty
  alive _ := false
  nextObject := 0
  nextHandler := 0
  registering := []
  sendQueue := []
  dispatcher := .idle

def isValid (d : Delivery) (h : HandlerObject Nat Nat) : Bool :=
  d.alive h.parent

def handlerObject (d : Delivery) (request : RequestObject) (parent : Nat) (isPersistent : Bool) :
    HandlerObject Nat Nat :=
  ⟨request.message.header.transactionId, d.nextHandler, parent, isPersistent⟩

/--
One step of one of the threads, if it is possible. Whoever calls a method of an object keeps it
alive, and `push` follows on `insert` in the same call.
-/
def step (d : Delivery) : Event → Option Delivery
  | .create =>
    some { d with
      alive := Function.update d.alive d.nextObject true
      nextObject := d.nextObject + 1 }
  | .insert request parent isPersistent =>
    if d.alive parent then
      some { d with
        activeHandlers := d.activeHandlers.insert (d.handlerObject request parent isPersistent)
        nextHandler := d.nextHandler + 1
        registering := request :: d.registering }
    else
      none
  | .push request =>
    if request ∈ d.registering then
      some { d with
        registering := d.registering.erase request
        sendQueue := d.sendQueue ++ [request] }
    else
      none
  | .response response =>
    match d.dispatcher with
    | .idle =>
      let result := d.activeHandlers.getAndEraseIf response.message.header.correlationalId
        (!·.isPersistent)
      some { d with
        activeHandlers := result.2
        dispatcher := result.1.elim .idle (.found · response) }
    | _ => none
  | .lock =>
    match d.dispatcher with
    | .found handler _ =>
      some { d with dispatcher := if d.alive handler.parent then .calling handler else .idle }
    | _ => none
  | .release =>
    match d.dispatcher with
    | .calling _ => some { d with dispatcher := .idle }
    | _ => none
  | .sweep => some { d with activeHandlers := d.activeHandlers.eraseIf (!d.isValid ·) }
  | .destroy i =>
    match d.dispatcher with
    | .calling handler =>
      if handler.parent = i then none else some { d with alive := Function.update d.alive i false }
    | _ => some { d with alive := Function.update d.alive i false }

structure Call where
  handler : HandlerObject Nat Nat
  response : RequestObject
  alive : Bool

structure Log where
  registered : Nat → Option (HandlerObject Nat Nat)
  responses : Nat → Nat
  calls : List Call

namespace Log

def empty : Log where
  registered _ := none
  responses _ := 0
  calls := []

def matching (η : Log) (response : RequestObject) (n : Nat) : Bool :=
  (η.registered n).any (·.correlationId == response.message.header.correlationalId)

def count (η : Log) (n : Nat) : Nat :=
  η.calls.countP (·.handler.handler == n)

end Log

def record (d : Delivery) (η : Log) : Event → Log
  | .insert request parent isPersistent =>
    { η with
      registered := Function.update η.registered d.nextHandler
        (some (d.handlerObject request parent isPersistent)) }
  | .response response =>
    { η with
      responses := fun n => if η.matching response n then η.responses n + 1 else η.responses n }
  | .lock =>
    match d.dispatcher, (d.step .lock).map dispatcher with
    | .found _ response, some (.calling handler) =>
      { η with calls := ⟨handler, response, d.alive handler.parent⟩ :: η.calls }
    | _, _ => η
  | _ => η

def stepWithLog : Delivery × Log → Event → Option (Delivery × Log) :=
  Run.observe step record

def pending (d : Delivery) (n : Nat) : Nat :=
  match d.dispatcher with
  | .found handler _ => if handler.handler = n then 1 else 0
  | _ => 0

/--
Responses are passed to the handler that was registered under their id, while its object is alive,
to a handler that is not persistent at most once and to a persistent one each time, no sweep takes
the handler of an object that is alive and the first response finds its handler.
-/
structure Delivers (t : Delivery × Log) : Prop where
  matched : ∀ c ∈ t.2.calls, t.2.registered c.handler.handler = some c.handler
    ∧ c.handler.correlationId = c.response.message.header.correlationalId ∧ c.alive = true
  locked : ∀ h, t.1.dispatcher = .calling h → t.1.alive h.parent = true
  once : ∀ n h, t.2.registered n = some h → h.isPersistent = false → t.2.count n ≤ 1
  persistent : ∀ n h, t.2.registered n = some h → h.isPersistent = true →
    t.1.alive h.parent = true → t.2.count n + t.1.pending n = t.2.responses n
  swept : ∀ h ∈ t.1.activeHandlers, t.1.alive h.parent = true →
    h ∈ t.1.activeHandlers.eraseIf (!t.1.isValid ·)
  first : ∀ n h, t.2.registered n = some h → t.1.alive h.parent = true → t.2.responses n = 0 →
    t.1.activeHandlers.find h.correlationId = some h

def DistinctFromLive (t : Delivery × Log) : Event → Prop
  | .insert request _ _ => ∀ n h, t.2.registered n = some h → t.1.alive h.parent = true →
    h.correlationId ≠ request.message.header.transactionId
  | _ => True

def DistinctFromRegistered (t : Delivery × Log) : Event → Prop
  | .insert request _ _ =>
    ∀ h ∈ t.1.activeHandlers, h.correlationId ≠ request.message.header.transactionId
  | _ => True

instance (t : Delivery × Log) : ∀ e, Decidable (DistinctFromRegistered t e)
  | .insert request _ _ => inferInstanceAs (Decidable
    (∀ h ∈ t.1.activeHandlers.set, h.correlationId ≠ request.message.header.transactionId))
  | .create | .push _ | .response _ | .lock | .release | .sweep | .destroy _ => isTrue trivial

structure Accounted (t : Delivery × Log) : Prop where
  alive_lt : ∀ i, t.1.alive i = true → i < t.1.nextObject
  parent_lt : ∀ n h, t.2.registered n = some h → h.parent < t.1.nextObject
  known : ∀ h ∈ t.1.activeHandlers, t.2.registered h.handler = some h
  numbered : ∀ n h, t.2.registered n = some h → h.handler = n ∧ n < t.1.nextHandler
  unused : ∀ n, t.1.nextHandler ≤ n → t.2.responses n = 0
  found : ∀ h r, t.1.dispatcher = .found h r →
    t.2.registered h.handler = some h ∧ h.correlationId = r.message.header.correlationalId
  locked : ∀ h, t.1.dispatcher = .calling h → t.1.alive h.parent = true
  matched : ∀ c ∈ t.2.calls, t.2.registered c.handler.handler = some c.handler
    ∧ c.handler.correlationId = c.response.message.header.correlationalId ∧ c.alive = true
  spent : ∀ n h, t.2.registered n = some h → h.isPersistent = false →
    t.2.count n + t.1.pending n ≤ 1 ∧ (h ∈ t.1.activeHandlers → t.2.count n + t.1.pending n = 0)
  kept : ∀ n h, t.2.registered n = some h → t.1.alive h.parent = true →
    h.isPersistent = true ∨ t.2.responses n = 0 → h ∈ t.1.activeHandlers
  balanced : ∀ n h, t.2.registered n = some h → h.isPersistent = true → t.1.alive h.parent = true →
    t.2.count n + t.1.pending n = t.2.responses n

variable {d d' : Delivery} {η : Log} {e : Event}

theorem init_accounted : Accounted (init, .empty) := by
  constructor
  case alive_lt =>
    intro i hi
    cases hi
  case parent_lt =>
    intro n h hh
    cases hh
  case known =>
    intro h hh
    exact absurd hh (ConcurrentSet.not_mem_empty h)
  case numbered =>
    intro n h hh
    cases hh
  case unused =>
    intro n _
    rfl
  case found =>
    intro h r hh
    cases hh
  case locked =>
    intro h hh
    cases hh
  case matched =>
    intro c hc
    cases hc
  case spent =>
    intro n h hh
    cases hh
  case kept =>
    intro n h hh
    cases hh
  case balanced =>
    intro n h hh
    cases hh

theorem Accounted.delivers {t : Delivery × Log} (h : Accounted t) : Delivers t := by
  constructor
  case matched => exact h.matched
  case locked => exact h.locked
  case once =>
    intro n handler hn hpersistent
    have := (h.spent n handler hn hpersistent).1
    omega
  case persistent => exact h.balanced
  case swept =>
    intro handler hhandler halive
    rw [ConcurrentSet.mem_eraseIf]
    refine ⟨hhandler, ?_⟩
    simp [isValid, halive]
  case first =>
    intro n handler hn halive hresponses
    rw [ConcurrentSet.find_eq_some_iff]
    exact ⟨h.kept n handler hn halive (Or.inr hresponses), rfl⟩

theorem Accounted.count_nextHandler (h : Accounted (d, η)) :
    η.count d.nextHandler + d.pending d.nextHandler = 0 := by
  -- a handler that is to come has not been called
  have hlt (n : Nat) (handler : HandlerObject Nat Nat) (hn : η.registered n = some handler) :
    n < d.nextHandler :=
    (h.numbered n handler hn).2
  have hcount : η.count d.nextHandler = 0 := by
    unfold Log.count
    rw [List.countP_eq_zero]
    intro c hc
    have := hlt _ _ (h.matched c hc).1
    simp only [beq_iff_eq]
    omega
  have hpending : d.pending d.nextHandler = 0 := by
    unfold pending
    cases hdispatcher : d.dispatcher with
    | found handler response =>
      have := hlt _ _ (h.found handler response hdispatcher).1
      dsimp only
      rw [if_neg (by omega)]
    | idle => rfl
    | calling handler => rfl
  omega

theorem Accounted.insert (h : Accounted (d, η)) {request : RequestObject} {parent : Nat}
    {isPersistent : Bool}
    (hcond : DistinctFromRegistered (d, η) (.insert request parent isPersistent))
    (hstep : d.step (.insert request parent isPersistent) = some d') :
    Accounted (d', record d η (.insert request parent isPersistent)) := by
  simp only [step, Option.ite_none_right_eq_some, Option.some.injEq] at hstep
  rcases hstep with ⟨halive, rfl⟩
  have hnew : d.handlerObject request parent isPersistent ∈
      d.activeHandlers.insert (d.handlerObject request parent isPersistent) := by
    apply ConcurrentSet.mem_insert_self
    rw [ConcurrentSet.find_eq_none_iff]
    exact hcond
  have hregistered (n : Nat) (handler : HandlerObject Nat Nat)
      (hn : Function.update η.registered d.nextHandler
        (some (d.handlerObject request parent isPersistent)) n = some handler) :
      (n = d.nextHandler ∧ handler = d.handlerObject request parent isPersistent)
        ∨ (n < d.nextHandler ∧ η.registered n = some handler) := by
    rw [Function.update_apply] at hn
    split at hn
    . next heq =>
      cases hn
      exact Or.inl ⟨heq, rfl⟩
    . exact Or.inr ⟨(h.numbered n handler hn).2, hn⟩
  have hold (n : Nat) (handler : HandlerObject Nat Nat) (hn : η.registered n = some handler) :
      Function.update η.registered d.nextHandler
        (some (d.handlerObject request parent isPersistent)) n = some handler := by
    rw [Function.update_of_ne]
    . exact hn
    . exact Nat.ne_of_lt (h.numbered n handler hn).2
  have hzero := h.count_nextHandler
  have hunused := h.unused d.nextHandler (Nat.le_refl _)
  constructor
  case alive_lt => exact h.alive_lt
  case parent_lt =>
    intro n handler hn
    rcases hregistered n handler hn with ⟨rfl, rfl⟩ | ⟨_, hn⟩
    . exact h.alive_lt parent halive
    . exact h.parent_lt n handler hn
  case known =>
    intro handler hhandler
    rcases ConcurrentSet.mem_of_mem_insert hhandler with rfl | hhandler
    . exact Function.update_self _ _ _
    . exact hold _ _ (h.known handler hhandler)
  case numbered =>
    intro n handler hn
    change handler.handler = n ∧ n < d.nextHandler + 1
    rcases hregistered n handler hn with ⟨rfl, rfl⟩ | ⟨hlt, hn⟩
    . exact ⟨rfl, Nat.lt_succ_self _⟩
    . exact ⟨(h.numbered n handler hn).1, Nat.lt_succ_of_lt hlt⟩
  case unused =>
    intro n hn
    exact h.unused n (Nat.le_of_succ_le hn)
  case found =>
    intro handler response hfound
    have hold' := h.found handler response hfound
    exact ⟨hold _ _ hold'.1, hold'.2⟩
  case locked => exact h.locked
  case matched =>
    intro c hc
    have hold' := h.matched c hc
    exact ⟨hold _ _ hold'.1, hold'.2⟩
  case spent =>
    intro n handler hn hpersistent
    rcases hregistered n handler hn with ⟨rfl, rfl⟩ | ⟨hlt, hn⟩
    . change η.count d.nextHandler + d.pending d.nextHandler ≤ 1
        ∧ (_ → η.count d.nextHandler + d.pending d.nextHandler = 0)
      exact ⟨by omega, fun _ => hzero⟩
    . have hspent := h.spent n handler hn hpersistent
      refine ⟨hspent.1, ?_⟩
      intro hhandler
      rcases ConcurrentSet.mem_of_mem_insert hhandler with rfl | hhandler
      . exact absurd (h.numbered n _ hn).1 (Nat.ne_of_gt hlt)
      . exact hspent.2 hhandler
  case kept =>
    intro n handler hn halive' hfirst
    rcases hregistered n handler hn with ⟨rfl, rfl⟩ | ⟨hlt, hn⟩
    . exact hnew
    . exact ConcurrentSet.mem_insert_of_mem (h.kept n handler hn halive' hfirst)
  case balanced =>
    intro n handler hn hpersistent halive'
    rcases hregistered n handler hn with ⟨rfl, rfl⟩ | ⟨hlt, hn⟩
    . change η.count d.nextHandler + d.pending d.nextHandler = η.responses d.nextHandler
      exact hzero.trans hunused.symm
    . exact h.balanced n handler hn hpersistent halive'

theorem Accounted.pending_found (h : Accounted (d, η)) (k : String) {response : RequestObject}
    {n : Nat} {handler : HandlerObject Nat Nat} (hn : η.registered n = some handler) :
    pending { d with
      activeHandlers := (d.activeHandlers.getAndEraseIf k (!·.isPersistent)).2
      dispatcher := (d.activeHandlers.find k).elim .idle (.found · response) } n =
      if d.activeHandlers.find k = some handler then 1 else 0 := by
  unfold pending
  cases hfind : d.activeHandlers.find k with
  | none => simp
  | some f =>
    have hf := h.known f (ConcurrentSet.find_eq_some_iff.mp hfind).1
    dsimp only [Option.elim_some] at hf ⊢
    have hiff : f.handler = n ↔ some f = some handler := by
      constructor
      . intro heq
        rw [← hf, heq, hn]
      . intro heq
        rw [Option.some.inj heq]
        exact (h.numbered n handler hn).1
    simp only [hiff]

theorem Accounted.response (h : Accounted (d, η)) {response : RequestObject}
    (hstep : d.step (.response response) = some d') :
    Accounted (d', record d η (.response response)) := by
  simp only [step] at hstep
  split at hstep
  . next hidle =>
    simp only [ConcurrentSet.getAndEraseIf_fst, Option.some.injEq] at hstep
    subst hstep
    generalize hk : response.message.header.correlationalId = k at *
    have hmatching {n : Nat} {handler : HandlerObject Nat Nat}
        (hn : η.registered n = some handler) :
        η.matching response n = (handler.correlationId == k) := by
      simp [Log.matching, hn, hk]
    -- the dispatcher has nothing in its hands before it takes the response
    have hbefore (n : Nat) : d.pending n = 0 := by
      unfold pending
      rw [hidle]
    constructor
    case alive_lt => exact h.alive_lt
    case parent_lt => exact h.parent_lt
    case known =>
      intro handler hhandler
      exact h.known handler (ConcurrentSet.mem_getAndEraseIf.mp hhandler).1
    case numbered => exact h.numbered
    case unused =>
      intro n hn
      have hnone : η.registered n = none := by
        cases hregistered : η.registered n with
        | none => rfl
        | some handler =>
          have := (h.numbered n handler hregistered).2
          exact absurd this (Nat.not_lt.mpr hn)
      simp only [record, Log.matching, hnone, Option.any_none, Bool.false_eq_true, if_false]
      exact h.unused n hn
    case found =>
      intro handler r hfound
      dsimp only at hfound
      cases hfind : d.activeHandlers.find k with
      | none =>
        rw [hfind] at hfound
        cases hfound
      | some f =>
        rw [hfind] at hfound
        cases hfound
        have hf := ConcurrentSet.find_eq_some_iff.mp hfind
        exact ⟨h.known handler hf.1, hf.2.trans hk.symm⟩
    case locked =>
      intro handler hcalling
      dsimp only at hcalling
      cases hfind : d.activeHandlers.find k with
      | none =>
        rw [hfind] at hcalling
        cases hcalling
      | some f =>
        rw [hfind] at hcalling
        cases hcalling
    case matched => exact h.matched
    case spent =>
      intro n handler hn hpersistent
      have hspent := h.spent n handler hn hpersistent
      dsimp only at hspent ⊢
      rw [h.pending_found k hn]
      rw [hbefore] at hspent
      change η.count n + _ ≤ 1 ∧ (_ → η.count n + _ = 0)
      split
      . next hfind =>
        have hmem := (ConcurrentSet.find_eq_some_iff.mp hfind).1
        have hzero := hspent.2 hmem
        refine ⟨by omega, ?_⟩
        intro hstill
        have herased := (ConcurrentSet.mem_getAndEraseIf.mp hstill).2
          (ConcurrentSet.find_eq_some_iff.mp hfind).2
        rw [hpersistent] at herased
        cases herased
      . refine ⟨hspent.1, ?_⟩
        intro hstill
        exact hspent.2 (ConcurrentSet.mem_getAndEraseIf.mp hstill).1
    case kept =>
      intro n handler hn halive hfirst
      dsimp only at halive
      simp only [record, hmatching hn] at hfirst
      apply ConcurrentSet.mem_getAndEraseIf.mpr
      rcases hfirst with hpersistent | hresponses
      . exact ⟨h.kept n handler hn halive (Or.inl hpersistent), fun _ => by simp [hpersistent]⟩
      . split at hresponses
        . cases hresponses
        . next hid =>
          refine ⟨h.kept n handler hn halive (Or.inr hresponses), ?_⟩
          intro hkey
          simp [hkey] at hid
    case balanced =>
      intro n handler hn hpersistent halive
      have hbalanced := h.balanced n handler hn hpersistent halive
      have hmem := h.kept n handler hn halive (Or.inl hpersistent)
      dsimp only at hbalanced hmem ⊢
      rw [h.pending_found k hn]
      rw [hbefore] at hbalanced
      simp only [record, hmatching hn]
      change η.count n + _ = _
      by_cases hid : handler.correlationId = k
      . rw [if_pos (ConcurrentSet.find_eq_some_iff.mpr ⟨hmem, hid⟩), if_pos (by simpa using hid)]
        omega
      . rw [if_neg, if_neg (by simpa using hid)]
        . exact hbalanced
        . intro hfind
          exact hid (ConcurrentSet.find_eq_some_iff.mp hfind).2
  . cases hstep

theorem pending_eq_of_found {handler : HandlerObject Nat Nat} {response : RequestObject}
    (hfound : d.dispatcher = .found handler response) (n : Nat) :
    d.pending n = if handler.handler = n then 1 else 0 := by
  unfold pending
  rw [hfound]

theorem Accounted.lock_alive (h : Accounted (d, η)) {handler : HandlerObject Nat Nat}
    {response : RequestObject} (hfound : d.dispatcher = .found handler response)
    (halive : d.alive handler.parent = true) :
    Accounted ({ d with dispatcher := .calling handler },
      { η with calls := ⟨handler, response, d.alive handler.parent⟩ :: η.calls }) := by
  -- what was pending is counted now
  have hcount (n : Nat) : Log.count { η with
        calls := ⟨handler, response, d.alive handler.parent⟩ :: η.calls } n
      + pending { d with dispatcher := .calling handler } n = η.count n + d.pending n := by
    rw [pending_eq_of_found hfound]
    simp only [Log.count, pending, List.countP_cons, beq_iff_eq]
    omega
  constructor
  case alive_lt => exact h.alive_lt
  case parent_lt => exact h.parent_lt
  case known => exact h.known
  case numbered => exact h.numbered
  case unused => exact h.unused
  case found =>
    intro _ _ hother
    cases hother
  case locked =>
    intro _ hcalling
    cases hcalling
    exact halive
  case matched =>
    intro c hc
    rcases List.mem_cons.mp hc with rfl | hc
    . have hhandler := h.found handler response hfound
      exact ⟨hhandler.1, hhandler.2, halive⟩
    . exact h.matched c hc
  case spent =>
    intro n handler' hn hpersistent
    rw [hcount]
    exact h.spent n handler' hn hpersistent
  case kept => exact h.kept
  case balanced =>
    intro n handler' hn hpersistent halive'
    rw [hcount]
    exact h.balanced n handler' hn hpersistent halive'

theorem Accounted.lock_dead (h : Accounted (d, η)) {handler : HandlerObject Nat Nat}
    {response : RequestObject} (hfound : d.dispatcher = .found handler response)
    (halive : d.alive handler.parent = false) :
    Accounted ({ d with dispatcher := .idle }, η) := by
  have hafter (n : Nat) : pending { d with dispatcher := .idle } n = 0 := rfl
  constructor
  case alive_lt => exact h.alive_lt
  case parent_lt => exact h.parent_lt
  case known => exact h.known
  case numbered => exact h.numbered
  case unused => exact h.unused
  case found =>
    intro _ _ hother
    cases hother
  case locked =>
    intro _ hcalling
    cases hcalling
  case matched => exact h.matched
  case spent =>
    intro n handler' hn hpersistent
    have hspent := h.spent n handler' hn hpersistent
    rw [hafter]
    dsimp only at hspent ⊢
    refine ⟨by omega, ?_⟩
    intro hmem
    have := hspent.2 hmem
    omega
  case kept => exact h.kept
  case balanced =>
    intro n handler' hn hpersistent halive'
    -- nothing was pending for an object that is alive
    have hbalanced := h.balanced n handler' hn hpersistent halive'
    have hne : handler.handler ≠ n := by
      rintro rfl
      have hhandler : η.registered handler.handler = some handler :=
        (h.found handler response hfound).1
      rw [hhandler, Option.some.injEq] at hn
      rw [← hn] at halive'
      rw [show d.alive handler.parent = true from halive'] at halive
      cases halive
    rw [hafter]
    rw [pending_eq_of_found hfound, if_neg hne] at hbalanced
    exact hbalanced

theorem Accounted.lock (h : Accounted (d, η)) (hstep : d.step .lock = some d') :
    Accounted (d', record d η .lock) := by
  have hstep' := hstep
  simp only [step] at hstep
  split at hstep
  . next handler response hfound =>
    cases halive : d.alive handler.parent with
    | true =>
      simp only [halive, if_true, Option.some.injEq] at hstep
      subst hstep
      have hrecord : record d η .lock =
          { η with calls := ⟨handler, response, d.alive handler.parent⟩ :: η.calls } := by
        simp only [record, hfound, hstep', Option.map_some]
      rw [hrecord]
      exact h.lock_alive hfound halive
    | false =>
      simp only [halive, Bool.false_eq_true, if_false, Option.some.injEq] at hstep
      subst hstep
      have hrecord : record d η .lock = η := by
        simp only [record, hfound, hstep', Option.map_some]
      rw [hrecord]
      exact h.lock_dead hfound halive
  . cases hstep

theorem Accounted.mono (h : Accounted (d, η)) (hhandler : d'.nextHandler = d.nextHandler)
    (hobject : d.nextObject ≤ d'.nextObject)
    (halive : ∀ i, d'.alive i = true → i < d'.nextObject ∧ (i < d.nextObject → d.alive i = true))
    (hmem : ∀ handler ∈ d'.activeHandlers, handler ∈ d.activeHandlers)
    (hkept : ∀ handler ∈ d.activeHandlers, d'.alive handler.parent = true →
      handler ∈ d'.activeHandlers)
    (hfound : ∀ handler r, d'.dispatcher = .found handler r ↔ d.dispatcher = .found handler r)
    (hlocked : ∀ handler, d'.dispatcher = .calling handler → d'.alive handler.parent = true) :
    Accounted (d', η) := by
  -- a step that calls no handler and registers none, after which the dispatcher is idle or where it
  -- was
  have hpending (n : Nat) : d'.pending n = d.pending n := by
    unfold pending
    cases hd : d.dispatcher with
    | found handler r => rw [(hfound handler r).mpr hd]
    | _ =>
      cases hd' : d'.dispatcher with
      | found handler r =>
        rw [(hfound handler r).mp hd'] at hd
        cases hd
      | _ => rfl
  have hbefore {n : Nat} {handler : HandlerObject Nat Nat} (hn : η.registered n = some handler)
      (hafter : d'.alive handler.parent = true) : d.alive handler.parent = true :=
    (halive _ hafter).2 (h.parent_lt n handler hn)
  constructor
  case alive_lt =>
    intro i hi
    exact (halive i hi).1
  case parent_lt =>
    intro n handler hn
    exact Nat.lt_of_lt_of_le (h.parent_lt n handler hn) hobject
  case known =>
    intro handler hhandler
    exact h.known handler (hmem handler hhandler)
  case numbered =>
    intro n handler hn
    dsimp only
    rw [hhandler]
    exact h.numbered n handler hn
  case unused =>
    intro n hn
    dsimp only at hn
    rw [hhandler] at hn
    exact h.unused n hn
  case found =>
    intro handler r hr
    exact h.found handler r ((hfound handler r).mp hr)
  case locked => exact hlocked
  case matched => exact h.matched
  case spent =>
    intro n handler hn hpersistent
    dsimp only
    rw [hpending]
    have hspent := h.spent n handler hn hpersistent
    exact ⟨hspent.1, fun hafter => hspent.2 (hmem handler hafter)⟩
  case kept =>
    intro n handler hn hafter hfirst
    exact hkept handler (h.kept n handler hn (hbefore hn hafter) hfirst) hafter
  case balanced =>
    intro n handler hn hpersistent hafter
    dsimp only
    rw [hpending]
    exact h.balanced n handler hn hpersistent (hbefore hn hafter)

theorem Accounted.create (h : Accounted (d, η)) (hstep : d.step .create = some d') :
    Accounted (d', η) := by
  simp only [Delivery.step, Option.some.injEq] at hstep
  subst hstep
  refine h.mono rfl (Nat.le_succ _) ?_ (fun _ h => h) (fun _ h _ => h) (fun _ _ => Iff.rfl) ?_
  . intro i hi
    dsimp only at hi ⊢
    rw [Function.update_apply] at hi
    split at hi
    . next heq =>
      rw [heq]
      exact ⟨Nat.lt_succ_self _, fun hlt => absurd hlt (Nat.lt_irrefl _)⟩
    . exact ⟨Nat.lt_succ_of_lt (h.alive_lt i hi), fun _ => hi⟩
  . intro handler hcalling
    have halive := h.locked handler hcalling
    dsimp only at halive ⊢
    rw [Function.update_apply, halive]
    split <;> rfl

theorem Accounted.push (h : Accounted (d, η)) {request : RequestObject}
    (hstep : d.step (.push request) = some d') : Accounted (d', η) := by
  simp only [Delivery.step, Option.ite_none_right_eq_some, Option.some.injEq] at hstep
  rcases hstep with ⟨_, rfl⟩
  exact h.mono rfl (Nat.le_refl _) (fun i hi => ⟨h.alive_lt i hi, fun _ => hi⟩) (fun _ h => h)
    (fun _ h _ => h) (fun _ _ => Iff.rfl) h.locked

theorem Accounted.release (h : Accounted (d, η)) (hstep : d.step .release = some d') :
    Accounted (d', η) := by
  simp only [Delivery.step] at hstep
  split at hstep
  . next handler hcalling =>
    simp only [Option.some.injEq] at hstep
    subst hstep
    refine h.mono rfl (Nat.le_refl _) (fun i hi => ⟨h.alive_lt i hi, fun _ => hi⟩) (fun _ h => h)
      (fun _ h _ => h) ?_ ?_
    . intro _ _
      rw [hcalling]
      constructor <;> intro hother <;> cases hother
    . intro _ hother
      cases hother
  . cases hstep

theorem Accounted.sweep (h : Accounted (d, η)) (hstep : d.step .sweep = some d') :
    Accounted (d', η) := by
  simp only [Delivery.step, Option.some.injEq] at hstep
  subst hstep
  refine h.mono rfl (Nat.le_refl _) (fun i hi => ⟨h.alive_lt i hi, fun _ => hi⟩) ?_ ?_
    (fun _ _ => Iff.rfl) h.locked
  . intro handler hhandler
    exact (ConcurrentSet.mem_eraseIf.mp hhandler).1
  . intro handler hhandler halive
    dsimp only at halive
    apply ConcurrentSet.mem_eraseIf.mpr
    exact ⟨hhandler, by simp [isValid, halive]⟩

theorem Accounted.destroyed (h : Accounted (d, η)) {i : Nat}
    (hother : ∀ handler, d.dispatcher = .calling handler → handler.parent ≠ i) :
    Accounted ({ d with alive := Function.update d.alive i false }, η) := by
  have hbefore (j : Nat) (hj : Function.update d.alive i false j = true) : d.alive j = true := by
    rw [Function.update_apply] at hj
    split at hj
    . cases hj
    . exact hj
  refine h.mono rfl (Nat.le_refl _) ?_ (fun _ h => h) (fun _ h _ => h) (fun _ _ => Iff.rfl) ?_
  . intro j hj
    exact ⟨h.alive_lt j (hbefore j hj), fun _ => hbefore j hj⟩
  . intro handler hcalling
    exact (Function.update_of_ne (hother handler hcalling) _ _).trans (h.locked handler hcalling)

theorem Accounted.destroy (h : Accounted (d, η)) {i : Nat} (hstep : d.step (.destroy i) = some d') :
    Accounted (d', η) := by
  simp only [Delivery.step] at hstep
  split at hstep
  . next handler hcalling =>
    split at hstep
    . cases hstep
    . next hne =>
      simp only [Option.some.injEq] at hstep
      subst hstep
      apply h.destroyed
      intro handler' hcalling'
      rw [hcalling] at hcalling'
      cases hcalling'
      exact hne
  . next hnot =>
    simp only [Option.some.injEq] at hstep
    subst hstep
    apply h.destroyed
    intro handler hcalling
    exact absurd hcalling (hnot handler)

theorem Accounted.step {t t' : Delivery × Log} (h : Accounted t)
    (hcond : DistinctFromRegistered t e) (hstep : stepWithLog t e = some t') : Accounted t' := by
  rcases t with ⟨d, η⟩
  rcases t' with ⟨d', η'⟩
  rw [stepWithLog, Run.observe_eq_some] at hstep
  rcases hstep with ⟨hstep, hη'⟩
  dsimp only at hstep hη'
  rw [hη']
  cases e with
  | create => exact h.create hstep
  | insert request parent isPersistent => exact h.insert hcond hstep
  | push request => exact h.push hstep
  | response response => exact h.response hstep
  | lock => exact h.lock hstep
  | release => exact h.release hstep
  | destroy i => exact h.destroy hstep
  | sweep => exact h.sweep hstep

theorem delivers_exec (events : List Event) (t : Delivery × Log)
    (hcond : Run.Along stepWithLog DistinctFromRegistered (init, .empty) events)
    (hexec : Run.exec stepWithLog (init, .empty) events = some t) : Delivers t := by
  apply Accounted.delivers
  exact Run.exec_of_along (fun _ _ _ h hcond hstep => h.step hcond hstep) init_accounted hcond hexec

/--
A transfer gets its chunks while a query is registered beside it. The object of the query is
destroyed, a request comes to its entry before the sweep removes it, and the answer to the query
comes too late.
-/
theorem delivers_exec_transfer :
    let peer : Peer := ⟨"cd", "127.0.0.1", "1338"⟩
    let transfer : RequestObject := ⟨Message.createRequest "get_file" [] "t", .peer peer⟩
    let query : RequestObject := ⟨Message.createRequest "query" [] "q", .peer peer⟩
    let lookup : RequestObject := ⟨Message.createRequest "find_successor" [] "f", .peer peer⟩
    let answer (request : RequestObject) : RequestObject :=
      ⟨request.message.generateResponse "u", .session ⟨0, "127.0.0.1"⟩⟩
    let events : List Event :=
      [.create, .insert transfer 0 true, .push transfer,
        .create, .insert query 1 false, .push query,
        .response (answer transfer), .lock, .release, .destroy 1,
        .create, .insert lookup 2 false, .push lookup,
        .sweep, .response (answer query), .response (answer lookup), .lock, .release,
        .response (answer transfer), .lock]
    ∃ t, Run.exec stepWithLog (init, .empty) events = some t ∧ Delivers t := by
  intro peer transfer query lookup answer events
  have hcond : Run.Along stepWithLog DistinctFromRegistered (init, .empty) events := by
    decide +kernel
  have hsome : (Run.exec stepWithLog (init, .empty) events).isSome = true := by
    decide +kernel
  rcases Option.isSome_iff_exists.mp hsome with ⟨t, hexec⟩
  exact ⟨t, hexec, delivers_exec events t hcond hexec⟩

/--
An object is destroyed and before the sweep another one asks under the same id. The entry of the
first stays in the registry and the response to the second finds that.
-/
theorem not_delivers_exec :
    let request : RequestObject :=
      ⟨Message.createRequest "query" [] "t", .peer ⟨"", "127.0.0.1", "1338"⟩⟩
    let events : List Event :=
      [.create, .insert request 0 false, .push request, .destroy 0, .create,
        .insert request 1 false, .push request]
    Run.Along stepWithLog DistinctFromLive (init, .empty) events
      ∧ ∃ t, Run.exec stepWithLog (init, .empty) events = some t ∧ ¬ Delivers t := by
  intro request events
  constructor
  . refine ⟨trivial, fun t₁ h₁ => ⟨?_, fun t₂ h₂ =>
      ⟨trivial, fun t₃ h₃ => ⟨trivial, fun t₄ h₄ => ⟨trivial,
      fun t₅ h₅ => ⟨?_, fun _ _ => ⟨trivial, fun _ _ => trivial⟩⟩⟩⟩⟩⟩⟩
    . cases h₁
      intro n h hh
      cases hh
    . cases h₁
      cases h₂
      cases h₃
      cases h₄
      cases h₅
      intro n h hh halive
      change Function.update (fun _ => none) 0 (some ⟨"t", 0, 0, false⟩) n = some h at hh
      rw [Function.update_apply] at hh
      split at hh
      . cases hh
        cases halive
      . cases hh
  . refine ⟨_, rfl, ?_⟩
    intro hdelivers
    have hfirst := hdelivers.first 1 ⟨"t", 1, 1, false⟩ rfl rfl rfl
    revert hfirst
    decide

end Delivery

end Peerpaste
