import Peerpaste.MessageHandler.Basic
import Peerpaste.Run.Basic

/-!
This module contains when a running node removes the front of its successor list: a `Stabilize` that
fails or gets an empty answer removes whoever is in front then.
-/

namespace Peerpaste

namespace MessageHandler

def recordFronts (sha256 : String → String) (h : MessageHandler) (changed : Nat → Bool)
    (e : Event) : Nat → Bool :=
  match h.step sha256 e with
  | none => changed
  | some h' => fun i =>
    decide (i < h.next)
      && (changed i || h'.routingTable.tryGetSuccessor != h.routingTable.tryGetSuccessor)

def stepWithFronts (sha256 : String → String) :
    MessageHandler × (Nat → Bool) → Event → Option (MessageHandler × (Nat → Bool)) :=
  Run.observe (step sha256) (recordFronts sha256)

def initWithFronts (self : Peer) : MessageHandler × (Nat → Bool) :=
  (init self, fun _ => false)

/--
The front is only removed when a `Stabilize` times out that has asked this very peer and got no
answer, and only if it has been the front since then.
-/
def EvictsOnlyFailed (sha256 : String → String) (t : MessageHandler × (Nat → Bool)) (e : Event) :
    Prop :=
  ∀ h', t.1.step sha256 e = some h' → h'.routingTable.size < t.1.routingTable.size →
    ∃ i s target, e = .timeOut i ∧ t.1.active i = some (.stabilize s) ∧ s.isDone = false
      ∧ s.unanswered = some target ∧ t.1.routingTable.tryGetSuccessor = some target
      ∧ t.2 i = false

/--
Unless the successor list has one entry only, a `Stabilize` gets no empty answer from its successor,
and one that times out on it does so with the front as it was at its start.
-/
def NoneDisturbed (t : MessageHandler × (Nat → Bool)) : Event → Prop
  | .response i response _ => ∀ s, t.1.active i = some (.stabilize s) →
    response.message.isRequest = false → s.awaits .getPredAndSuccList →
    response.message.peers = [] → t.1.routingTable.size ≤ 1
  | .timeOut i => ∀ s, t.1.active i = some (.stabilize s) → s.isDone = false →
    s.dependencies.length = 1 → t.2 i = true → t.1.routingTable.size ≤ 1
  | _ => True

section Front

variable {sha256 : String → String} {t t' : MessageHandler × (Nat → Bool)} {h h' : MessageHandler}
  {e : Event}

theorem step_size_le (hstep : h.step sha256 e = some h')
    (hsize : h.routingTable.size ≤ RoutingTable.succListSize) :
    h'.routingTable.size ≤ RoutingTable.succListSize := by
  generalize hrt : h'.routingTable = rt
  cases hrt ▸ step_tableStep hstep with
  | grows hgrows => exact (hgrows.size_le hsize).2
  | notified _ => exact hsize
  | probeFailed _ _ => exact hsize
  | stabilizeFailed _ _ _ => exact (RoutingTable.popFront_size_le _).trans hsize
  | emptyAnswer _ _ _ _ => exact (RoutingTable.popFront_size_le _).trans hsize

structure FrontsKnown (t : MessageHandler × (Nat → Bool)) : Prop where
  fresh : t.1.Fresh
  size_le : t.1.routingTable.size ≤ RoutingTable.succListSize
  target : ∀ i s, t.1.active i = some (.stabilize s) → s.isDone = false →
    s.dependencies.length ≤ 1 →
    ∃ target, s.unanswered = some target
      ∧ (t.2 i = false → t.1.routingTable.tryGetSuccessor = some target)

theorem initWithFronts_known (self : Peer) : FrontsKnown (initWithFronts self) := by
  constructor
  case fresh =>
    intro i m hm
    cases hm
  case size_le => exact (RoutingTable.init_represented self).size_le
  case target =>
    intro i s hs
    cases hs

theorem recordFronts_of_lt {changed : Nat → Bool} {i : Nat} (hstep : h.step sha256 e = some h')
    (hi : i < h.next) (hchanged : recordFronts sha256 h changed e i = false) :
    changed i = false
      ∧ h'.routingTable.tryGetSuccessor = h.routingTable.tryGetSuccessor := by
  simpa [recordFronts, hstep, hi] using hchanged

theorem FrontsKnown.step (hknown : FrontsKnown t) (hstep : stepWithFronts sha256 t e = some t') :
    FrontsKnown t' := by
  rw [stepWithFronts, Run.observe_eq_some] at hstep
  rcases hstep with ⟨hstep, hfronts⟩
  refine ⟨hknown.fresh.step hstep, step_size_le hstep hknown.size_le, ?_⟩
  intro i s hs hdone hlength
  rw [hfronts]
  generalize hm : ActiveMessage.stabilize s = m at hs
  cases step_activeStep hstep hs with
  | kept hi =>
    subst hm
    rcases hknown.target i s hi hdone hlength with ⟨target, htarget, hfront⟩
    refine ⟨target, htarget, ?_⟩
    intro hchanged
    rcases recordFronts_of_lt hstep (hknown.fresh i _ hi) hchanged with ⟨hbefore, heq⟩
    rw [heq]
    exact hfront hbefore
  | @stabilizeReceives s₀ response transactionId hi hresponse =>
    cases hm
    -- whoever got an answer does not wait for it any more
    have hadvances := s₀.receive_advances t.1.node response transactionId
    have hdone₀ : s₀.isDone = false := by
      by_contra h
      simp [hadvances.isDone (by simpa using h)] at hdone
    have hlength₀ := hadvances.length_le.trans hlength
    rcases hknown.target i s₀ hi hdone₀ hlength₀ with ⟨target, htarget, _⟩
    rcases Stabilize.receive_unanswered t.1.node transactionId htarget hresponse with h | h
    . simp [h] at hdone
    . omega
  | stabilizeTimesOut _ =>
    cases hm
    simp [Stabilize.timeOut_isDone] at hdone
  | joins _ => cases hm
  | probeReceives _ _ => cases hm
  | probeTimesOut _ => cases hm
  | created _ _ htable hcreates =>
    cases hcreates with
    | stabilize transactionId =>
      cases hm
      rcases Stabilize.createRequest_unanswered hdone with ⟨target, hsucc, htarget⟩
      refine ⟨target, htarget, ?_⟩
      intro _
      rw [htable]
      exact hsucc
    | join _ _ _ => cases hm
    | checkPredecessor _ => cases hm

theorem set_size_lt (h : MessageHandler) (i : Nat) {node : Node} (m : ActiveMessage)
    (htable : node.routingTable = h.routingTable.popFront)
    (hsize : ¬ h.routingTable.size ≤ 1) :
    (h.set i node m).routingTable.size < h.routingTable.size := by
  rw [set_routingTable, htable]
  exact (RoutingTable.popFront_size_lt_iff _).mpr hsize

theorem EvictsOnlyFailed.noneDisturbed (hevicts : EvictsOnlyFailed sha256 t e) :
    NoneDisturbed t e := by
  cases e with
  | response i response transactionId =>
    intro s hi hresponse hawaits hpeers
    by_contra hsize
    have hstep : t.1.step sha256 (.response i response transactionId)
        = some (t.1.set i (s.receive t.1.node response transactionId).1
            (.stabilize (s.receive t.1.node response transactionId).2)) := by
      simp only [step, hresponse, Bool.false_eq_true, ↓reduceIte, handleResponse, hi]
    have htable := Stabilize.receive_empty t.1.node transactionId hresponse hawaits hpeers
    rcases hevicts _ hstep (set_size_lt t.1 i _ htable hsize) with ⟨_, _, _, heq, _⟩
    cases heq
  | timeOut i =>
    intro s hi hdone hlength hchanged
    by_contra hsize
    have hstep : t.1.step sha256 (.timeOut i)
        = some (t.1.set i (s.timeOut t.1.node).1 (.stabilize (s.timeOut t.1.node).2)) := by
      simp only [step, timeOut, hi]
    have htable : (s.timeOut t.1.node).1.routingTable = t.1.routingTable.popFront := by
      rw [Stabilize.timeOut_routingTable, if_pos ⟨hdone, hlength⟩]
      rfl
    rcases hevicts _ hstep (set_size_lt t.1 i _ htable hsize) with
      ⟨_, _, _, heq, _, _, _, _, hfalse⟩
    cases heq
    simp [hchanged] at hfalse
  | stabilize _ => trivial
  | checkPredecessor _ => trivial
  | join _ _ _ => trivial
  | clean _ => trivial
  | request _ _ => trivial

theorem evictsOnlyFailed_iff (hknown : FrontsKnown t) (e : Event) :
    EvictsOnlyFailed sha256 t e ↔ NoneDisturbed t e := by
  -- one step evicts only a successor that failed if and only if it neither takes an empty answer
  -- for a failure nor fails with another front than it started with
  constructor
  . exact EvictsOnlyFailed.noneDisturbed
  . intro hcond h' hstep hlt
    generalize hrt : h'.routingTable = rt at hlt
    cases hrt ▸ step_tableStep hstep with
    | grows hgrows =>
      have := (hgrows.size_le hknown.size_le).1
      omega
    | notified _ => exact absurd hlt (Nat.lt_irrefl _)
    | probeFailed _ _ => exact absurd hlt (Nat.lt_irrefl _)
    | @stabilizeFailed i s hi hdone hlength =>
      have hchanged : t.2 i = false := by
        by_contra h
        have := hcond s hi hdone hlength (by simpa using h)
        exact absurd this ((RoutingTable.popFront_size_lt_iff _).mp hlt)
      rcases hknown.target i s hi hdone (by omega) with ⟨target, htarget, hfront⟩
      exact ⟨i, s, target, rfl, hi, hdone, htarget, hfront hchanged, hchanged⟩
    | emptyAnswer hi hresponse hawaits hpeers =>
      have := hcond _ hi hresponse hawaits hpeers
      exact absurd this ((RoutingTable.popFront_size_lt_iff _).mp hlt)

end Front

theorem evictsOnlyFailed_along_iff (sha256 : String → String) (self : Peer) (events : List Event) :
    Run.Along (stepWithFronts sha256) (EvictsOnlyFailed sha256) (initWithFronts self) events
      ↔
    Run.Along (stepWithFronts sha256) NoneDisturbed (initWithFronts self) events := by
  refine Run.along_congr (fun t e t' (hknown : FrontsKnown t) hstep => hknown.step hstep) ?_
    (initWithFronts_known self)
  intro t e hknown
  exact evictsOnlyFailed_iff hknown e

/--
A node joins through its successor and then asks it for its predecessor. The successor answers that
it has none and is evicted.
-/
theorem not_evictsOnlyFailed_along :
    let self : Peer := ⟨"2", "10.0.0.2", "6100"⟩
    let successor : Peer := ⟨"1", "10.0.0.1", "6100"⟩
    let answer (peers : List Peer) : RequestObject :=
      ⟨((Message.createRequest "" [] "").generateResponse "").setPeers peers, .peer successor⟩
    ¬ Run.Along (stepWithFronts fun _ => "") (EvictsOnlyFailed fun _ => "") (initWithFronts self)
      [.join "10.0.0.1" "6100" "t0", .response 0 (answer [self]) "t1",
        .response 0 (answer [successor]) "t2", .response 0 (answer [successor]) "t3",
        .stabilize "t4", .response 1 (answer []) "t5"] := by
  intro self successor answer h
  let events := [Event.join "10.0.0.1" "6100" "t0", .response 0 (answer [self]) "t1",
    .response 0 (answer [successor]) "t2", .response 0 (answer [successor]) "t3", .stabilize "t4"]
  let waiting : Stabilize := { dependencies := [.waiting .getPredAndSuccList
    ⟨Message.createRequest "get_predecessor_and_succ_list" [] "t4", .peer successor⟩] }
  have hreached : (Run.exec (stepWithFronts fun _ => "") (initWithFronts self) events).map
      (fun t => (t.1.active 1, t.1.routingTable.size)) = some (some (.stabilize waiting), 10) := by
    decide
  rcases Option.map_eq_some_iff.mp hreached with ⟨t, ht, heq⟩
  simp only [Prod.mk.injEq] at heq
  have hsize := (Run.Along.of_exec events h ht).noneDisturbed waiting heq.1 rfl rfl rfl
  omega

end MessageHandler

end Peerpaste
