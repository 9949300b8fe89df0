import Mathlib.Data.List.Nodup
import Peerpaste.Message.Framing
import Peerpaste.Run.Basic
import Peerpaste.Session.Socket

/-!
This module contains the write side of a session: the queue of `write`, the direct path of
`write_direct`, and when both of them keep the writes on the socket apart.
-/

namespace Peerpaste

namespace BoostSession

structure Post where
  number : Nat
  direct : Bool
  encodedMessage : List UInt8
  deriving DecidableEq, Repr

inductive ErrorCode where
  | operationAborted
  | other
  deriving DecidableEq, Repr

/--
The write side of a session. The posted tasks wait for the strand, and so do, in `packetsDone`, the
handlers of those writes of the queue that are complete. Nothing reads what was submitted but the
next number.
-/
structure Writer where
  posted : List Post := []
  sendPacketQueue : List Post := []
  packetsDone : List Post := []
  socket : Socket Post UInt8 := {}
  closed : Bool := false
  submitted : List Post := []
  deriving DecidableEq, Repr

inductive WriterEvent where
  | write (encodedMessage : List UInt8)
  | writeDirect (encodedMessage : List UInt8)
  | runPosted (k : Nat)
  | transfer (i n : Nat)
  | complete (i : Nat)
  | packetSendDone
  deriving DecidableEq, Repr

namespace Writer

def post (s : Writer) (direct : Bool) (encodedMessage : List UInt8) : Writer :=
  let p : Post := ⟨s.submitted.length, direct, encodedMessage⟩
  { s with posted := s.posted ++ [p], submitted := s.submitted ++ [p] }

def write (s : Writer) (encodedMessage : List UInt8) : Writer :=
  s.post false encodedMessage

def writeDirect (s : Writer) (encodedMessage : List UInt8) : Writer :=
  s.post true encodedMessage

def startPacketSend (s : Writer) : Option Writer :=
  s.sendPacketQueue.head?.map fun p => { s with socket := s.socket.asyncWrite p }

def queueMessage (s : Writer) (message : Post) : Option Writer :=
  let writeInProgress := !s.sendPacketQueue.isEmpty
  let s := { s with sendPacketQueue := s.sendPacketQueue ++ [message] }
  if !writeInProgress then s.startPacketSend else some s

def packetSendDone (s : Writer) (error : Option ErrorCode) : Option Writer :=
  match error with
  | none =>
    match s.sendPacketQueue with
    | [] => none
    | _ :: sendPacketQueue =>
      let s := { s with sendPacketQueue := sendPacketQueue }
      if !sendPacketQueue.isEmpty then s.startPacketSend else some s
  | some .operationAborted => some s
  | some .other => some { s with closed := true }

/--
The strand runs one of its tasks. Several threads take the posted tasks from the service, so that
the strand gets them in any order.
-/
def runPosted (s : Writer) (k : Nat) : Option Writer :=
  s.posted[k]?.bind fun p =>
    let s := { s with posted := s.posted.eraseIdx k }
    if p.direct then some { s with socket := s.socket.asyncWrite p } else s.queueMessage p

/--
The handler of a direct write only leaves the session, that of a write of the queue waits for the
strand.
-/
def complete (s : Writer) (i : Nat) : Option Writer :=
  (s.socket.complete Post.encodedMessage i).map fun (p, socket) =>
    let s := { s with socket := socket }
    if p.direct then s else { s with packetsDone := s.packetsDone ++ [p] }

def step (s : Writer) : WriterEvent → Option Writer
  | .write encodedMessage => some (s.write encodedMessage)
  | .writeDirect encodedMessage => some (s.writeDirect encodedMessage)
  | .runPosted k => s.runPosted k
  | .transfer i n =>
    (s.socket.transfer Post.encodedMessage i n).map fun socket => { s with socket := socket }
  | .complete i => s.complete i
  | .packetSendDone =>
    match s.packetsDone with
    | [] => none
    | _ :: packetsDone => packetSendDone { s with packetsDone := packetsDone } none

def outgoing (s : Writer) : List Post :=
  s.socket.started ++ (s.sendPacketQueue.tail ++ s.posted)

/--
One write at a time, so that whole frames are on the wire, each of them once, and those of `write`
as they were submitted. Whatever was submitted is there when nothing goes on any more.
-/
structure WholeFrames (s : Writer) : Prop where
  socket : s.socket.InTurn Post.encodedMessage
  once : s.outgoing.Perm s.submitted
  inOrder : s.outgoing.filter (!·.direct) = s.submitted.filter (!·.direct)
  complete : s.posted = [] → s.socket.writes = [] → s.packetsDone = [] →
    s.socket.completed.Perm s.submitted

structure Inv (s : Writer) : Prop where
  numbered : s.submitted.map (·.number) = List.range s.submitted.length
  once : s.outgoing.Perm s.submitted
  queued : ∀ p ∈ s.sendPacketQueue, p.direct = false
  front : ((s.socket.writes.map (·.buffer)).filter (!·.direct) ++ s.packetsDone).Perm
    (s.sendPacketQueue.take 1)

def NoDirectWrite (s : Writer) : Prop :=
  ∀ w ∈ s.socket.writes, w.buffer.direct = false

/--
A direct write finds no other write on the socket, and the queue no direct write when it starts one;
the strand gets what `write` has posted in that order.
-/
def DirectAlone (s : Writer) : WriterEvent → Prop
  | .runPosted k => ∀ p, s.posted[k]? = some p →
    if p.direct then
      s.socket.writes = []
    else
      (s.sendPacketQueue = [] → s.NoDirectWrite) ∧ ∀ q ∈ s.posted.take k, q.direct = true
  | .packetSendDone => s.packetsDone ≠ [] → 2 ≤ s.sendPacketQueue.length → s.NoDirectWrite
  | _ => True

section Order

variable {α : Type u} {l pre : List α} {k : Nat} {p : α}

theorem eq_take_append (h : l[k]? = some p) :
    l = l.take k ++ p :: l.drop (k + 1) ∧ l.eraseIdx k = l.take k ++ l.drop (k + 1) := by
  rcases List.getElem?_eq_some_iff.mp h with ⟨hlt, rfl⟩
  constructor
  . rw [List.getElem_cons_drop, List.take_append_drop]
  . exact List.eraseIdx_eq_take_drop_succ l k

theorem filter_overtake_iff {f : α → Bool} (hp : f p = true) (hpre : p ∉ pre) (out rest : List α) :
    (out ++ p :: (pre ++ rest)).filter f = (out ++ (pre ++ p :: rest)).filter f
      ↔
    ∀ q ∈ pre, f q = false := by
  simp only [List.filter_append, List.append_cancel_left_eq, List.filter_cons_of_pos hp]
  constructor
  . intro h
    cases hfilter : pre.filter f with
    | nil =>
      intro q hq
      simpa using List.filter_eq_nil_iff.mp hfilter q hq
    | cons q others =>
      simp only [hfilter, List.cons_append, List.cons.injEq] at h
      have hq : q ∈ pre.filter f := hfilter ▸ List.mem_cons_self
      rw [← h.1] at hq
      exact absurd (List.mem_of_mem_filter hq) hpre
  . intro h
    have hfilter : pre.filter f = [] := by
      rw [List.filter_eq_nil_iff]
      intro q hq
      simp [h q hq]
    simp [hfilter]

end Order

section Cases

variable {s s' : Writer} {k i : Nat}

theorem queueMessage_nil (h : s.sendPacketQueue = []) (p : Post) :
    s.queueMessage p =
      some { s with sendPacketQueue := [p], socket := s.socket.asyncWrite p } := by
  simp [queueMessage, h, startPacketSend]

theorem queueMessage_cons (h : s.sendPacketQueue ≠ []) (p : Post) :
    s.queueMessage p = some { s with sendPacketQueue := s.sendPacketQueue ++ [p] } := by
  simp [queueMessage, h]

theorem runPosted_cases (h : s.runPosted k = some s') :
    ∃ p rest, s.posted[k]? = some p ∧ s.posted = s.posted.take k ++ p :: rest ∧
      ((p.direct = true
        ∧ s' = { s with posted := s.posted.take k ++ rest, socket := s.socket.asyncWrite p })
      ∨ (p.direct = false ∧ s.sendPacketQueue = []
        ∧ s' = { s with
            posted := s.posted.take k ++ rest
            sendPacketQueue := [p]
            socket := s.socket.asyncWrite p })
      ∨ (p.direct = false ∧ s.sendPacketQueue ≠ []
        ∧ s' = { s with
            posted := s.posted.take k ++ rest
            sendPacketQueue := s.sendPacketQueue ++ [p] })) := by
  rcases Option.bind_eq_some_iff.mp h with ⟨p, hp, h⟩
  rcases eq_take_append hp with ⟨hposted, herase⟩
  refine ⟨p, _, hp, hposted, ?_⟩
  rw [herase] at h
  cases hdirect : p.direct with
  | true =>
    simp only [hdirect, if_true, Option.some.injEq] at h
    exact .inl ⟨rfl, h.symm⟩
  | false =>
    simp only [hdirect, Bool.false_eq_true, if_false] at h
    by_cases hqueue : s.sendPacketQueue = []
    . rw [queueMessage_nil (by exact hqueue), Option.some.injEq] at h
      exact .inr (.inl ⟨rfl, hqueue, h.symm⟩)
    . rw [queueMessage_cons (by exact hqueue), Option.some.injEq] at h
      exact .inr (.inr ⟨rfl, hqueue, h.symm⟩)

theorem complete_cases (h : s.complete i = some s') :
    ∃ p socket, s.socket.complete Post.encodedMessage i = some (p, socket)
      ∧ s' = { s with
          socket := socket
          packetsDone := s.packetsDone ++ if p.direct then [] else [p] } := by
  rcases Option.map_eq_some_iff.mp h with ⟨⟨p, socket⟩, hcomplete, rfl⟩
  refine ⟨p, socket, hcomplete, ?_⟩
  cases hdirect : p.direct <;> simp [hdirect]

theorem packetSendDone_cases (h : s.step .packetSendDone = some s') :
    ∃ done packetsDone front sendPacketQueue, s.packetsDone = done :: packetsDone
      ∧ s.sendPacketQueue = front :: sendPacketQueue
      ∧ s' = { s with
          packetsDone := packetsDone
          sendPacketQueue := sendPacketQueue
          socket := sendPacketQueue.head?.elim s.socket s.socket.asyncWrite } := by
  unfold step at h
  cases hdone : s.packetsDone with
  | nil =>
    simp only [hdone] at h
    cases h
  | cons done packetsDone =>
    simp only [hdone, packetSendDone] at h
    cases hqueue : s.sendPacketQueue with
    | nil =>
      simp only [hqueue] at h
      cases h
    | cons front sendPacketQueue =>
      refine ⟨done, packetsDone, front, sendPacketQueue, rfl, rfl, ?_⟩
      simp only [hqueue] at h
      cases sendPacketQueue with
      | nil =>
        cases h
        rfl
      | cons next sendPacketQueue =>
        cases h
        rfl

end Cases

section Outgoing

variable {s s' : Writer} {k i n : Nat}

theorem post_outgoing (s : Writer) (direct : Bool) (encodedMessage : List UInt8) :
    (s.post direct encodedMessage).outgoing =
      s.outgoing ++ [⟨s.submitted.length, direct, encodedMessage⟩] := by
  simp [outgoing, post]

theorem outgoing_of_posted {p : Post} {rest : List Post}
    (hposted : s.posted = s.posted.take k ++ p :: rest) :
    s.outgoing =
      s.socket.started ++ s.sendPacketQueue.tail ++ (s.posted.take k ++ p :: rest) := by
  rw [← hposted, List.append_assoc]
  rfl

theorem outgoing_of_queued {p : Post} {rest : List Post} (hqueue : s.sendPacketQueue ≠ []) :
    outgoing { s with
      posted := s.posted.take k ++ rest, sendPacketQueue := s.sendPacketQueue ++ [p] } =
      s.socket.started ++ s.sendPacketQueue.tail ++ p :: (s.posted.take k ++ rest) := by
  simp [outgoing, List.tail_append_of_ne_nil hqueue]

theorem outgoing_of_first {p : Post} {rest : List Post} (hqueue : s.sendPacketQueue = []) :
    outgoing { s with
      posted := s.posted.take k ++ rest
      sendPacketQueue := [p]
      socket := s.socket.asyncWrite p } =
      s.socket.started ++ s.sendPacketQueue.tail ++ p :: (s.posted.take k ++ rest) := by
  simp [outgoing, hqueue, Socket.asyncWrite_started]

theorem outgoing_of_direct {p : Post} {rest : List Post} :
    outgoing { s with posted := s.posted.take k ++ rest, socket := s.socket.asyncWrite p } =
      s.socket.started ++ p :: (s.sendPacketQueue.tail ++ (s.posted.take k ++ rest)) := by
  simp [outgoing, Socket.asyncWrite_started]

theorem outgoing_of_transfer {socket : Socket Post UInt8}
    (h : s.socket.transfer Post.encodedMessage i n = some socket) :
    outgoing { s with socket := socket } = s.outgoing := by
  simp [outgoing, Socket.started, Socket.transfer_buffers h, Socket.transfer_completed h]

theorem outgoing_of_packetSendDone {front : Post} {sendPacketQueue packetsDone : List Post}
    (hqueue : s.sendPacketQueue = front :: sendPacketQueue) :
    outgoing { s with
      packetsDone := packetsDone
      sendPacketQueue := sendPacketQueue
      socket := sendPacketQueue.head?.elim s.socket s.socket.asyncWrite } = s.outgoing := by
  cases sendPacketQueue with
  | nil => simp [outgoing, hqueue]
  | cons next sendPacketQueue => simp [outgoing, hqueue, Socket.asyncWrite_started]

end Outgoing

section Invariant

variable {s s' : Writer} {e : WriterEvent}

theorem start_inv : Inv {} := by
  exact ⟨rfl, .refl _, by simp, .refl _⟩

theorem start_wholeFrames : WholeFrames {} := by
  exact ⟨⟨by decide, rfl⟩, .refl _, rfl, fun _ _ _ => .refl _⟩

theorem overtake_perm (out pre rest : List Post) (p : Post) :
    (out ++ p :: (pre ++ rest)).Perm (out ++ (pre ++ p :: rest)) := by
  exact List.perm_middle.symm.append_left out

namespace Inv

theorem idle (hInv : s.Inv) (hqueue : s.sendPacketQueue = []) :
    (s.socket.writes.map (·.buffer)).filter (!·.direct) = [] ∧ s.packetsDone = [] := by
  have hfront := hInv.front
  rw [hqueue, List.take_nil] at hfront
  exact List.append_eq_nil_iff.mp hfront.eq_nil

theorem done (hInv : s.Inv) {p : Post} {packetsDone : List Post}
    (hdone : s.packetsDone = p :: packetsDone) :
    (s.socket.writes.map (·.buffer)).filter (!·.direct) = [] ∧ packetsDone = [] := by
  have hlength := hInv.front.length_eq
  simp only [hdone, List.length_append, List.length_cons, List.length_take] at hlength
  exact ⟨List.eq_nil_of_length_eq_zero (by omega), List.eq_nil_of_length_eq_zero (by omega)⟩

theorem posted_nodup (hInv : s.Inv) : s.posted.Nodup := by
  have hsubmitted : s.submitted.Nodup := by
    apply List.Nodup.of_map (·.number)
    rw [hInv.numbered]
    exact List.nodup_range
  have houtgoing := hInv.once.nodup_iff.mpr hsubmitted
  exact (List.nodup_append.mp (List.nodup_append.mp houtgoing).2.1).2.1

theorem post (hInv : s.Inv) (direct : Bool) (encodedMessage : List UInt8) :
    (s.post direct encodedMessage).Inv where
  numbered := by simp [Writer.post, hInv.numbered, List.range_succ]
  once := by
    rw [post_outgoing]
    exact hInv.once.append_right _
  queued := hInv.queued
  front := hInv.front

theorem runPosted (hInv : s.Inv) {k : Nat} (h : s.runPosted k = some s') : s'.Inv := by
  rcases runPosted_cases h with ⟨p, rest, _, hposted, hcases⟩
  have honce := hInv.once
  rw [outgoing_of_posted hposted] at honce
  rcases hcases with ⟨hdirect, rfl⟩ | ⟨hdirect, hqueue, rfl⟩ | ⟨hdirect, hqueue, rfl⟩
  . refine ⟨hInv.numbered, ?_, hInv.queued, ?_⟩
    . rw [outgoing_of_direct, ← List.append_assoc]
      apply (overtake_perm _ _ _ _).trans
      simpa using honce
    . simpa [Socket.asyncWrite, hdirect] using hInv.front
  . rcases hInv.idle hqueue with ⟨hwrites, hdone⟩
    refine ⟨hInv.numbered, ?_, by simp [hdirect], ?_⟩
    . rw [outgoing_of_first hqueue]
      exact (overtake_perm _ _ _ _).trans honce
    . simp [Socket.asyncWrite, hdirect, hwrites, hdone]
  . refine ⟨hInv.numbered, ?_, ?_, ?_⟩
    . rw [outgoing_of_queued hqueue]
      exact (overtake_perm _ _ _ _).trans honce
    . simpa [hdirect, or_imp, forall_and] using hInv.queued
    . have hlength := List.length_pos_of_ne_nil hqueue
      simpa only [List.take_append_of_le_length hlength] using hInv.front

theorem complete (hInv : s.Inv) {i : Nat} (h : s.complete i = some s') : s'.Inv := by
  rcases complete_cases h with ⟨p, socket, hcomplete, rfl⟩
  refine ⟨hInv.numbered, ?_, hInv.queued, ?_⟩
  . exact ((Socket.complete_started hcomplete).append_right _).trans hInv.once
  . have hbuffers :=
      ((Socket.complete_buffers hcomplete).filter (!·.direct)).append_right s.packetsDone
    apply List.Perm.trans _ hInv.front
    apply List.Perm.trans _ hbuffers
    cases hdirect : p.direct with
    | true => simp [hdirect]
    | false =>
      simp only [Bool.false_eq_true, if_false, ← List.append_assoc]
      rw [List.filter_cons_of_pos (by simp [hdirect])]
      exact List.perm_append_singleton p _

theorem packetSendDone (hInv : s.Inv) (h : s.step .packetSendDone = some s') : s'.Inv := by
  rcases packetSendDone_cases h with ⟨p, packetsDone, front, sendPacketQueue, hdone, hqueue, rfl⟩
  rcases hInv.done hdone with ⟨hwrites, rfl⟩
  have hqueued := hInv.queued
  rw [hqueue] at hqueued
  refine ⟨hInv.numbered, ?_, fun q hq => hqueued q (List.mem_cons_of_mem _ hq), ?_⟩
  . rw [outgoing_of_packetSendDone hqueue]
    exact hInv.once
  . cases sendPacketQueue with
    | nil => simp [hwrites]
    | cons next sendPacketQueue =>
      have hnext : next.direct = false := hqueued next (by simp)
      simp [Socket.asyncWrite, hwrites, hnext]

theorem step (hInv : s.Inv) (h : s.step e = some s') : s'.Inv := by
  cases e with
  | write encodedMessage =>
    cases h
    exact hInv.post _ _
  | writeDirect encodedMessage =>
    cases h
    exact hInv.post _ _
  | runPosted k => exact hInv.runPosted h
  | transfer i n =>
    rcases Option.map_eq_some_iff.mp h with ⟨socket, htransfer, rfl⟩
    refine ⟨hInv.numbered, ?_, hInv.queued, ?_⟩
    . rw [outgoing_of_transfer htransfer]
      exact hInv.once
    . simpa only [Socket.transfer_buffers htransfer] using hInv.front
  | complete i => exact hInv.complete h
  | packetSendDone => exact hInv.packetSendDone h

theorem wholeFrames_iff (hInv : s.Inv) :
    s.WholeFrames
      ↔
    s.socket.InTurn Post.encodedMessage
      ∧ s.outgoing.filter (!·.direct) = s.submitted.filter (!·.direct) := by
  constructor
  . intro h
    exact ⟨h.socket, h.inOrder⟩
  . rintro ⟨hsocket, hinOrder⟩
    refine ⟨hsocket, hInv.once, hinOrder, ?_⟩
    intro hposted hwrites hdone
    have hfront := hInv.front
    rw [hwrites, hdone, List.map_nil, List.filter_nil, List.append_nil] at hfront
    have hqueue : s.sendPacketQueue = [] := by
      simpa using hfront.symm.eq_nil
    simpa [outgoing, Socket.started, hposted, hwrites, hqueue] using hInv.once

end Inv

end Invariant

section Step

variable {s s' : Writer} {e : WriterEvent}

theorem noDirectWrite_iff (h : (s.socket.writes.map (·.buffer)).filter (!·.direct) = []) :
    s.NoDirectWrite ↔ s.socket.writes = [] := by
  constructor
  . intro hnone
    by_contra hne
    rcases List.exists_mem_of_ne_nil _ hne with ⟨w, hw⟩
    have hdirect := List.filter_eq_nil_iff.mp h w.buffer (List.mem_map_of_mem hw)
    simp [hnone w hw] at hdirect
  . intro hwrites
    simp [NoDirectWrite, hwrites]

theorem post_wholeFrames (hInv : s.Inv) (hs : s.WholeFrames) (direct : Bool)
    (encodedMessage : List UInt8) :
    (s.post direct encodedMessage).WholeFrames := by
  rw [(hInv.post direct encodedMessage).wholeFrames_iff]
  refine ⟨hs.socket, ?_⟩
  rw [post_outgoing]
  simp only [post, List.filter_append, hs.inOrder]

theorem runPosted_wholeFrames_iff (hInv : s.Inv) (hs : s.WholeFrames) {k : Nat}
    (h : s.runPosted k = some s') : DirectAlone s (.runPosted k) ↔ s'.WholeFrames := by
  rw [(hInv.runPosted h).wholeFrames_iff]
  rcases runPosted_cases h with ⟨p, rest, hp, hposted, hcases⟩
  have halone : DirectAlone s (.runPosted k) ↔ if p.direct then s.socket.writes = [] else
      (s.sendPacketQueue = [] → s.NoDirectWrite) ∧ ∀ q ∈ s.posted.take k, q.direct = true := by
    simp [DirectAlone, hp]
  have hinOrder := hs.inOrder
  rw [outgoing_of_posted hposted] at hinOrder
  have hnodup := hInv.posted_nodup
  rw [hposted] at hnodup
  have hpre : p ∉ s.posted.take k :=
    fun hmem => (List.nodup_append.mp hnodup).2.2 _ hmem _ (by simp) rfl
  have hovertake (hdirect : p.direct = false) :=
    filter_overtake_iff (f := (!·.direct)) (by simp [hdirect]) hpre
      (s.socket.started ++ s.sendPacketQueue.tail) rest
  simp only [Bool.not_eq_false'] at hovertake
  rw [halone]
  rcases hcases with ⟨hdirect, rfl⟩ | ⟨hdirect, hqueue, rfl⟩ | ⟨hdirect, hqueue, rfl⟩
  . rw [if_pos hdirect, hs.socket.asyncWrite_iff, outgoing_of_direct, ← hinOrder]
    simp [hdirect]
  . rw [if_neg (by simp [hdirect]), hs.socket.asyncWrite_iff, outgoing_of_first hqueue, ← hinOrder,
      hovertake hdirect, noDirectWrite_iff (hInv.idle hqueue).1]
    simp [hqueue]
  . rw [if_neg (by simp [hdirect]), outgoing_of_queued hqueue, ← hinOrder, hovertake hdirect]
    simp [hqueue, hs.socket]

theorem packetSendDone_wholeFrames_iff (hInv : s.Inv) (hs : s.WholeFrames)
    (h : s.step .packetSendDone = some s') : DirectAlone s .packetSendDone ↔ s'.WholeFrames := by
  rw [(hInv.packetSendDone h).wholeFrames_iff]
  rcases packetSendDone_cases h with ⟨p, packetsDone, front, sendPacketQueue, hdone, hqueue, rfl⟩
  rw [outgoing_of_packetSendDone hqueue]
  cases sendPacketQueue with
  | nil => simp [DirectAlone, hqueue, hs.socket, hs.inOrder]
  | cons next sendPacketQueue =>
    have halone : DirectAlone s .packetSendDone ↔ s.NoDirectWrite := by
      simp [DirectAlone, hqueue, hdone]
    rw [halone, noDirectWrite_iff (hInv.done hdone).1, ← hs.socket.asyncWrite_iff next]
    simp [hs.inOrder]

theorem step_wholeFrames_iff (hInv : s.Inv) (hs : s.WholeFrames) (h : s.step e = some s') :
    DirectAlone s e ↔ s'.WholeFrames := by
  have hnext := hInv.step h
  cases e with
  | write encodedMessage =>
    cases h
    exact ⟨fun _ => post_wholeFrames hInv hs _ _, fun _ => trivial⟩
  | writeDirect encodedMessage =>
    cases h
    exact ⟨fun _ => post_wholeFrames hInv hs _ _, fun _ => trivial⟩
  | runPosted k => exact runPosted_wholeFrames_iff hInv hs h
  | transfer i n =>
    rcases Option.map_eq_some_iff.mp h with ⟨socket, htransfer, rfl⟩
    rw [hnext.wholeFrames_iff, outgoing_of_transfer htransfer]
    exact ⟨fun _ => ⟨hs.socket.transfer htransfer, hs.inOrder⟩, fun _ => trivial⟩
  | complete i =>
    rw [hnext.wholeFrames_iff]
    rcases complete_cases h with ⟨p, socket, hcomplete, rfl⟩
    rcases hs.socket.complete hcomplete with ⟨hsocket, hstarted⟩
    refine ⟨fun _ => ⟨hsocket, ?_⟩, fun _ => trivial⟩
    simpa [outgoing, hstarted] using hs.inOrder
  | packetSendDone => exact packetSendDone_wholeFrames_iff hInv hs h

theorem directAlone_of_step_none (h : s.step e = none) : DirectAlone s e := by
  cases e with
  | runPosted k =>
    intro p hp
    simp only [step, runPosted, hp, Option.bind_some] at h
    split at h
    . cases h
    . by_cases hqueue : s.sendPacketQueue = []
      . rw [queueMessage_nil (by exact hqueue)] at h
        cases h
      . rw [queueMessage_cons (by exact hqueue)] at h
        cases h
  | packetSendDone =>
    intro hdone hqueue
    exfalso
    rcases List.exists_cons_of_ne_nil hdone with ⟨p, packetsDone, hdone⟩
    rcases List.exists_cons_of_length_pos (Nat.lt_of_lt_of_le Nat.two_pos hqueue) with
      ⟨front, sendPacketQueue, hqueue⟩
    simp only [step, hdone, packetSendDone, hqueue] at h
    cases sendPacketQueue <;> cases h
  | _ => trivial

end Step

theorem wholeFrames_iff_directAlone (events : List WriterEvent) :
    (∀ pre, pre <+: events → ∀ s, Run.exec step {} pre = some s → s.WholeFrames)
      ↔
    Run.Along step DirectAlone {} events := by
  symm
  refine Run.along_iff_of_step (fun s e _ hnone => directAlone_of_step_none hnone) ?_ start_inv
    start_wholeFrames
  intro s e s' hInv hs h
  exact ⟨hInv.step h, step_wholeFrames_iff hInv hs h⟩

/--
Two direct writes, the second of which is started before the first one is complete, share the
socket.
-/
theorem not_wholeFrames_ofTwoDirect :
    let events : List WriterEvent :=
      [.writeDirect (frame [7]), .writeDirect (frame [8]), .runPosted 0, .runPosted 0,
        .transfer 0 4, .transfer 1 5, .transfer 0 1, .complete 0, .complete 0]
    ¬ ∀ pre, pre <+: events → ∀ s, Run.exec step {} pre = some s → s.WholeFrames := by
  intro events h
  have hwire := (h events List.prefix_rfl _ rfl).socket.wire
  revert hwire
  decide

theorem readMessages_wire {s : Writer} (hs : s.WholeFrames) (hposted : s.posted = [])
    (hwrites : s.socket.writes = []) (hdone : s.packetsDone = []) {messageBuf : Post → List UInt8}
    (hframe : ∀ p ∈ s.submitted, p.encodedMessage = frame (messageBuf p)
      ∧ (messageBuf p).length < 2 ^ 32)
    (reader : BoostSession) :
    ∃ messages, messages.Perm (s.submitted.map messageBuf)
      ∧ (reader.readMessages s.socket.wire).1.msgQueue = reader.msgQueue ++ messages
      ∧ (reader.readMessages s.socket.wire).2 = [] := by
  have hperm := hs.complete hposted hwrites hdone
  have hwire : s.socket.wire = ((s.socket.completed.map messageBuf).map frame).flatten := by
    rw [hs.socket.wire, hwrites, List.map_nil, List.flatten_nil, List.append_nil, List.map_map]
    congr 1
    apply List.map_congr_left
    intro p hp
    exact (hframe p (hperm.mem_iff.mp hp)).1
  refine ⟨s.socket.completed.map messageBuf, hperm.map messageBuf, ?_⟩
  rw [hwire]
  apply readMessages_frames
  intro m hm
  rcases List.mem_map.mp hm with ⟨p, hp, rfl⟩
  exact (hframe p (hperm.mem_iff.mp hp)).2

end Writer

end BoostSession

end Peerpaste
