import Peerpaste.MessageHandler.Basic
import Peerpaste.Run.Basic

/-!
This module contains when the predecessor of a running node is dropped: a failed probe resets
whatever is stored then, which is the peer that it asked as long as no notify has put another one
there.
-/

namespace Peerpaste

namespace MessageHandler

/--
What a run tells about an active message that the message itself does not remember: the predecessor
when it was made and whether a notify has installed one since then.
-/
structure Probe where
  target : Option Peer
  replaced : Bool
  deriving DecidableEq, Repr

def recordProbes (sha256 : String → String) (h : MessageHandler) (probes : Nat → Probe)
    (e : Event) : Nat → Probe :=
  match h.step sha256 e with
  | none => probes
  | some h' => fun i =>
    let before := h.routingTable.predecessor
    let after := h'.routingTable.predecessor
    if i < h.next then
      { probes i with replaced := (probes i).replaced || (after.isSome && after != before) }
    else
      ⟨before, false⟩

def stepWithProbes (sha256 : String → String) :
    MessageHandler × (Nat → Probe) → Event → Option (MessageHandler × (Nat → Probe)) :=
  Run.observe (step sha256) (recordProbes sha256)

def initWithProbes (self : Peer) : MessageHandler × (Nat → Probe) :=
  (init self, fun _ => ⟨none, false⟩)

/--
A predecessor is only dropped by the timeout of a probe that was sent to it and not answered, and
only if it has been the predecessor since then.
-/
def DropsOnlyFailed (sha256 : String → String) (t : MessageHandler × (Nat → Probe)) (e : Event) :
    Prop :=
  ∀ h' p, t.1.step sha256 e = some h' → t.1.routingTable.predecessor = some p →
    h'.routingTable.predecessor = none →
    ∃ i c, e = .timeOut i ∧ t.1.active i = some (.checkPredecessor c) ∧ c.isDone = false
      ∧ (t.2 i).target = some p ∧ (t.2 i).replaced = false

def NoneReplaced (t : MessageHandler × (Nat → Probe)) : Event → Prop
  | .timeOut i => ∀ c, t.1.active i = some (.checkPredecessor c) → c.isDone = false →
    (t.2 i).replaced = true → t.1.routingTable.predecessor = none
  | _ => True

section Probe

variable {sha256 : String → String} {t t' : MessageHandler × (Nat → Probe)} {e : Event}

structure ProbesKnown (t : MessageHandler × (Nat → Probe)) : Prop where
  fresh : t.1.Fresh
  target : ∀ i c, t.1.active i = some (.checkPredecessor c) → c.isDone = false →
    (t.2 i).replaced = false →
    t.1.routingTable.predecessor = none ∨ t.1.routingTable.predecessor = (t.2 i).target

theorem initWithProbes_known (self : Peer) : ProbesKnown (initWithProbes self) := by
  constructor
  . intro i m hm
    cases hm
  . intro i c hc
    cases hc

theorem recordProbes_of_lt {h h' : MessageHandler} {probes : Nat → Probe} {i : Nat}
    (hstep : h.step sha256 e = some h') (hi : i < h.next)
    (hreplaced : (recordProbes sha256 h probes e i).replaced = false) :
    (probes i).replaced = false ∧ (recordProbes sha256 h probes e i).target = (probes i).target
      ∧ (h'.routingTable.predecessor = none
        ∨ h'.routingTable.predecessor = h.routingTable.predecessor) := by
  simp only [recordProbes, hstep, hi, ↓reduceIte, Bool.or_eq_false_iff, Bool.and_eq_false_iff,
    Option.isSome_eq_false_iff, Option.isNone_iff_eq_none, bne_eq_false_iff_eq] at hreplaced ⊢
  exact ⟨hreplaced.1, trivial, hreplaced.2⟩

theorem ProbesKnown.step (hknown : ProbesKnown t) (hstep : stepWithProbes sha256 t e = some t') :
    ProbesKnown t' := by
  rw [stepWithProbes, Run.observe_eq_some] at hstep
  rcases hstep with ⟨hstep, hprobes⟩
  refine ⟨hknown.fresh.step hstep, ?_⟩
  intro i c hc hdone hreplaced
  rw [hprobes] at hreplaced ⊢
  -- a probe that was there before
  have hold (c : CheckPredecessor) (hi : t.1.active i = some (.checkPredecessor c))
      (hdone : c.isDone = false) :
      t'.1.routingTable.predecessor = none ∨ t'.1.routingTable.predecessor
        = (recordProbes sha256 t.1 t.2 e i).target := by
    rcases recordProbes_of_lt hstep (hknown.fresh i _ hi) hreplaced with ⟨hbefore, htarget, hpred⟩
    have hknown := hknown.target i c hi hdone hbefore
    rw [htarget]
    rcases hpred with hpred | hpred
    . exact Or.inl hpred
    . rw [hpred]
      exact hknown
  generalize hm : ActiveMessage.checkPredecessor c = m at hc
  cases step_activeStep hstep hc with
  | kept hi => exact hold c (hm ▸ hi) hdone
  | stabilizeReceives _ => cases hm
  | stabilizeTimesOut _ => cases hm
  | joins _ => cases hm
  | probeReceives hi hresponse =>
    cases hm
    apply hold _ hi
    by_contra h
    simp [CheckPredecessor.receive_isDone hresponse (by simpa using h)] at hdone
  | probeTimesOut _ =>
    cases hm
    simp [CheckPredecessor.timeOut_isDone] at hdone
  | created hi _ htable _ =>
    right
    rw [htable]
    simp [recordProbes, hstep, hi]

theorem DropsOnlyFailed.noneReplaced (hdrops : DropsOnlyFailed sha256 t e) : NoneReplaced t e := by
  cases e with
  | timeOut i =>
    intro c hi hdone hreplaced
    by_contra hsome
    rcases Option.ne_none_iff_exists'.mp hsome with ⟨p, hp⟩
    have hstep : t.1.step sha256 (.timeOut i)
        = some (t.1.set i (c.timeOut t.1.node).1 (.checkPredecessor (c.timeOut t.1.node).2)) := by
      simp only [step, timeOut, hi]
    have hreset : (c.timeOut t.1.node).1.routingTable.predecessor = none := by
      rw [CheckPredecessor.timeOut_routingTable, if_pos hdone]
      rfl
    rcases hdrops _ p hstep hp hreset with ⟨i', _, heq, _, _, _, hfalse⟩
    cases heq
    simp [hreplaced] at hfalse
  | stabilize _ => trivial
  | checkPredecessor _ => trivial
  | join _ _ _ => trivial
  | response _ _ _ => trivial
  | clean _ => trivial
  | request _ _ => trivial

theorem dropsOnlyFailed_iff (hknown : ProbesKnown t) (e : Event) :
    DropsOnlyFailed sha256 t e ↔ NoneReplaced t e := by
  -- one step drops only a predecessor that failed if and only if no probe fails that was sent
  -- before the predecessor was installed
  constructor
  . exact DropsOnlyFailed.noneReplaced
  . intro hcond h' p hstep hp hnone
    generalize hrt : h'.routingTable = rt at hnone
    cases hrt ▸ step_tableStep hstep with
    | grows hgrows =>
      rw [hgrows.predecessor_eq, hp] at hnone
      cases hnone
    | notified _ => cases hnone
    | @probeFailed i c hi hdone =>
      have hreplaced : (t.2 i).replaced = false := by
        by_contra h
        have := hcond c hi hdone (by simpa using h)
        rw [hp] at this
        cases this
      refine ⟨i, c, rfl, hi, hdone, ?_, hreplaced⟩
      rcases hknown.target i c hi hdone hreplaced with h | h
      . rw [hp] at h
        cases h
      . rw [← h, hp]
    | stabilizeFailed _ _ _ =>
      rw [RoutingTable.popFront_predecessor, hp] at hnone
      cases hnone
    | emptyAnswer _ _ _ _ =>
      rw [RoutingTable.popFront_predecessor, hp] at hnone
      cases hnone

end Probe

theorem dropsOnlyFailed_along_iff (sha256 : String → String) (self : Peer) (events : List Event) :
    Run.Along (stepWithProbes sha256) (DropsOnlyFailed sha256) (initWithProbes self) events
      ↔
    Run.Along (stepWithProbes sha256) NoneReplaced (initWithProbes self) events := by
  refine Run.along_congr (fun t e t' (hknown : ProbesKnown t) hstep => hknown.step hstep) ?_
    (initWithProbes_known self)
  intro t e hknown
  exact dropsOnlyFailed_iff hknown e

/--
The first predecessor gets a probe, a second one is installed by its notify and then dropped because
the first one does not answer.
-/
theorem not_dropsOnlyFailed_along :
    let self : Peer := ⟨"3", "10.0.0.3", "6100"⟩
    let first : Peer := ⟨"1", "10.0.0.1", "6100"⟩
    let second : Peer := ⟨"2", "10.0.0.2", "6100"⟩
    let notify (peer : Peer) : RequestObject :=
      ⟨Message.createRequest "notify" [peer] "t0", .session ⟨0, peer.ip⟩⟩
    ¬ Run.Along (stepWithProbes fun _ => "") (DropsOnlyFailed fun _ => "") (initWithProbes self)
      [.request (notify first) "t1", .checkPredecessor "t2", .request (notify second) "t3",
        .timeOut 0] := by
  intro self first second notify h
  let events := [Event.request (notify first) "t1", .checkPredecessor "t2",
    .request (notify second) "t3"]
  let probe : CheckPredecessor :=
    { handler := some ⟨Message.createRequest "check_predecessor" [] "t2", .peer first⟩ }
  have hreached : (Run.exec (stepWithProbes fun _ => "") (initWithProbes self) events).map
      (fun t => (t.1.routingTable.predecessor, t.1.active 0, (t.2 0).replaced))
      = some (some second, some (.checkPredecessor probe), true) := by
    decide
  rcases Option.map_eq_some_iff.mp hreached with ⟨t, ht, heq⟩
  simp only [Prod.mk.injEq] at heq
  have hnone := (Run.Along.of_exec events h ht).noneReplaced probe heq.2.1 rfl heq.2.2
  rw [heq.1] at hnone
  cases hnone

end MessageHandler

end Peerpaste
