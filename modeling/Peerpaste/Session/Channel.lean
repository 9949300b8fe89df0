import Peerpaste.Message.Serialized
import Peerpaste.Session.Write

/-!
This module contains one direction of a connection from end to end: the thread that takes messages
from the send queue, the write side of the session, the stream, the reads of the other side and the
thread that converts what they have read.
-/

namespace Peerpaste

open BoostSession (Writer WriterEvent frame readCycle)

structure Channel where
  writer : Writer := {}
  reader : BoostSession := {}
  consumed : Nat := 0
  deriving DecidableEq, Repr

/--
`direct` says that the message has a handler for the end of the write. `socket` is what the strand
and the socket do with what was written, and `read` one cycle of reads, which ends when a message is
complete.
-/
inductive ChannelEvent where
  | send (message : Message) (direct : Bool)
  | socket (e : WriterEvent)
  | read
  deriving DecidableEq, Repr

namespace BoostSession.Writer

instance (s : Writer) : Decidable s.NoDirectWrite :=
  inferInstanceAs (Decidable (∀ w ∈ s.socket.writes, _))

instance (s : Writer) : ∀ e, Decidable (s.DirectAlone e)
  | .runPosted k =>
    inferInstanceAs (Decidable (∀ p ∈ s.posted[k]?, if p.direct then s.socket.writes = [] else
      (s.sendPacketQueue = [] → s.NoDirectWrite) ∧ ∀ q ∈ s.posted.take k, q.direct = true))
  | .packetSendDone =>
    inferInstanceAs (Decidable (s.packetsDone ≠ [] → 2 ≤ s.sendPacketQueue.length →
      s.NoDirectWrite))
  | .write _ => isTrue trivial
  | .writeDirect _ => isTrue trivial
  | .transfer _ _ => isTrue trivial
  | .complete _ => isTrue trivial

end BoostSession.Writer

namespace Channel

/--
The body of the loop of `run_send_internal` for a session.
-/
def runSendInternal (serializeToArray : proto.Request → List UInt8) (c : Channel)
    (message : Message) (direct : Bool) : Option Channel := do
  let messageBuf ← ProtobufMessageConverter.serializedFromMessage serializeToArray message
  let encodedBuf ← MessageDispatcher.encodedBuf messageBuf
  return { c with
    writer := if direct then c.writer.writeDirect encodedBuf else c.writer.write encodedBuf }

def read (c : Channel) : Option Channel :=
  let stream := c.writer.socket.wire.drop c.consumed
  (readCycle c.reader stream).map fun (reader, rest) =>
    { c with reader := reader, consumed := c.consumed + (stream.length - rest.length) }

def step (serializeToArray : proto.Request → List UInt8) (c : Channel) :
    ChannelEvent → Option Channel
  | .send message direct => c.runSendInternal serializeToArray message direct
  | .socket (.write _) => none
  | .socket (.writeDirect _) => none
  | .socket e => (c.writer.step e).map fun writer => { c with writer := writer }
  | .read => c.read

def received (parseFromArray : List UInt8 → proto.Request × Bool) (c : Channel) :
    List (Option Message) :=
  c.reader.msgQueue.map (ProtobufMessageConverter.messageFromSerialized parseFromArray)

def sent (events : List ChannelEvent) : List (Message × Bool) :=
  events.filterMap fun
    | .send message direct => some (message, direct)
    | _ => none

def Alone (c : Channel) : ChannelEvent → Prop
  | .socket e => c.writer.DirectAlone e
  | _ => True

instance (c : Channel) : ∀ e, Decidable (c.Alone e)
  | .socket e => inferInstanceAs (Decidable (c.writer.DirectAlone e))
  | .send _ _ => isTrue trivial
  | .read => isTrue trivial

structure Deliverable (serializeToArray : proto.Request → List UInt8)
    (parseFromArray : List UInt8 → proto.Request × Bool) (message : Message) : Prop where
  representable : message.Representable
  size : ∀ chunk, message.fileChunk = some chunk → chunk.size = chunk.data.length
  parse : ∀ r, ProtobufMessageConverter.requestOf message = some r →
    parseFromArray (serializeToArray r) = (r, true)
  length_lt : ∀ buf, ProtobufMessageConverter.serializedFromMessage serializeToArray message
    = some buf → buf.length < 2 ^ 32

structure Reads (c : Channel) (read rest : List BoostSession.Post) : Prop where
  started : c.writer.socket.started = read ++ rest
  consumed : c.consumed = (read.map BoostSession.Post.encodedMessage).flatten.length
  msgQueue : c.reader.msgQueue = read.map fun p => p.encodedMessage.drop BoostSession.headerSize

structure Quiet (serializeToArray : proto.Request → List UInt8) (c : Channel) : Prop where
  posted : c.writer.posted = []
  writes : c.writer.socket.writes = []
  packetsDone : c.writer.packetsDone = []
  read : c.step serializeToArray .read = none

end Channel

namespace BoostSession.Writer

variable {s s' : Writer} {e : WriterEvent}

theorem WholeFrames.exists_started_append (hs : s.WholeFrames) (h : s.step e = some s') :
    ∃ new, s'.socket.started = s.socket.started ++ new := by
  cases e with
  | write encodedMessage =>
    cases h
    exact ⟨[], by simp [write, post]⟩
  | writeDirect encodedMessage =>
    cases h
    exact ⟨[], by simp [writeDirect, post]⟩
  | runPosted k =>
    rcases runPosted_cases h with ⟨p, rest, _, _, ⟨_, rfl⟩ | ⟨_, _, rfl⟩ | ⟨_, _, rfl⟩⟩
    . exact ⟨[p], Socket.asyncWrite_started _ _⟩
    . exact ⟨[p], Socket.asyncWrite_started _ _⟩
    . exact ⟨[], (List.append_nil _).symm⟩
  | transfer i n =>
    rcases Option.map_eq_some_iff.mp h with ⟨socket, htransfer, rfl⟩
    refine ⟨[], ?_⟩
    simp [Socket.started, Socket.transfer_buffers htransfer, Socket.transfer_completed htransfer]
  | complete i =>
    rcases complete_cases h with ⟨p, socket, hcomplete, rfl⟩
    exact ⟨[], by simp [(hs.socket.complete hcomplete).2]⟩
  | packetSendDone =>
    rcases packetSendDone_cases h with ⟨p, packetsDone, front, sendPacketQueue, _, _, rfl⟩
    cases sendPacketQueue with
    | nil => exact ⟨[], (List.append_nil _).symm⟩
    | cons next sendPacketQueue => exact ⟨[next], Socket.asyncWrite_started _ _⟩

theorem submitted_of_step (hwrite : ∀ encodedMessage, e ≠ .write encodedMessage)
    (hdirect : ∀ encodedMessage, e ≠ .writeDirect encodedMessage) (h : s.step e = some s') :
    s'.submitted = s.submitted := by
  cases e with
  | write encodedMessage => exact absurd rfl (hwrite encodedMessage)
  | writeDirect encodedMessage => exact absurd rfl (hdirect encodedMessage)
  | runPosted k =>
    rcases runPosted_cases h with ⟨p, rest, _, _, ⟨_, rfl⟩ | ⟨_, _, rfl⟩ | ⟨_, _, rfl⟩⟩
    . rfl
    . rfl
    . rfl
  | transfer i n =>
    rcases Option.map_eq_some_iff.mp h with ⟨socket, _, rfl⟩
    rfl
  | complete i =>
    rcases complete_cases h with ⟨p, socket, _, rfl⟩
    rfl
  | packetSendDone =>
    rcases packetSendDone_cases h with ⟨p, packetsDone, front, sendPacketQueue, _, _, rfl⟩
    rfl

end BoostSession.Writer

namespace Channel

section Reads

variable {c c' : Channel} {read rest : List BoostSession.Post}

theorem Reads.cycle (h : c.Reads read rest)
    (hturn : c.writer.socket.InTurn BoostSession.Post.encodedMessage)
    (hframe : ∀ p ∈ rest, ∃ messageBuf,
      p.encodedMessage = frame messageBuf ∧ messageBuf.length < 2 ^ 32)
    (hread : c.read = some c') :
    c'.writer = c.writer ∧ ∃ p rest', rest = p :: rest' ∧ c'.Reads (read ++ [p]) rest' := by
  rcases Option.map_eq_some_iff.mp hread with ⟨⟨reader, left⟩, hcycle, rfl⟩
  refine ⟨rfl, ?_⟩
  rcases hturn.exists_wire_append with ⟨tail, hwire⟩
  have hcycle' := BoostSession.readCycle_append_right hcycle tail
  have hle : c.consumed ≤ c.writer.socket.wire.length := by
    by_contra hlt
    rw [List.drop_eq_nil_of_le (by omega), BoostSession.readCycle_nil] at hcycle
    cases hcycle
  rw [← List.drop_append_of_le_length hle, hwire, h.started, List.map_append,
    List.flatten_append, h.consumed, List.drop_left] at hcycle'
  cases rest with
  | nil =>
    rw [List.map_nil, List.flatten_nil, BoostSession.readCycle_nil] at hcycle'
    cases hcycle'
  | cons p rest =>
    rcases hframe p List.mem_cons_self with ⟨messageBuf, hp, hlt⟩
    rw [List.map_cons, List.flatten_cons, hp, BoostSession.readCycle_append _ _ _ hlt,
      Option.some.injEq, Prod.mk.injEq] at hcycle'
    refine ⟨p, rest, rfl, ?_, ?_, ?_⟩
    . rw [h.started]
      simp
    . have hlength := congrArg List.length hwire
      have hleft := congrArg List.length hcycle'.2
      simp only [h.started, List.map_append, List.map_cons, List.flatten_append, List.flatten_cons,
        List.length_append] at hlength hleft
      have hconsumed := h.consumed
      simp only [List.map_append, List.map_cons, List.map_nil, List.flatten_append,
        List.flatten_cons, List.flatten_nil, List.append_nil, List.length_append, List.length_drop]
      omega
    . rw [← hcycle'.1, h.msgQueue, List.map_append]
      simp [hp, frame, BoostSession.header, BoostSession.headerSize]

end Reads

variable {serializeToArray : proto.Request → List UInt8}
  {parseFromArray : List UInt8 → proto.Request × Bool}
  {c c' : Channel} {past : List ChannelEvent} {e : ChannelEvent}

def postOf (serializeToArray : proto.Request → List UInt8) (i : Nat) (x : Message × Bool) :
    BoostSession.Post :=
  ⟨i, x.2, frame ((ProtobufMessageConverter.serializedFromMessage serializeToArray x.1).getD [])⟩

structure Inv (serializeToArray : proto.Request → List UInt8)
    (parseFromArray : List UInt8 → proto.Request × Bool) (c : Channel) (past : List ChannelEvent) :
    Prop where
  writer : c.writer.Inv
  wholeFrames : c.writer.WholeFrames
  deliverable : ∀ x ∈ sent past, Deliverable serializeToArray parseFromArray x.1
  submitted : c.writer.submitted = (sent past).mapIdx (postOf serializeToArray)
  reads : ∃ read rest, c.Reads read rest

theorem start_inv : Inv serializeToArray parseFromArray {} [] := by
  refine ⟨Writer.start_inv, Writer.start_wholeFrames, by simp [sent], rfl, [], [], rfl, rfl, rfl⟩

theorem sent_append (past events : List ChannelEvent) :
    sent (past ++ events) = sent past ++ sent events :=
  List.filterMap_append

theorem Inv.exists_sent (h : Inv serializeToArray parseFromArray c past) {p : BoostSession.Post}
    (hp : p ∈ c.writer.submitted) :
    ∃ i x, (sent past)[i]? = some x ∧ p = postOf serializeToArray i x
      ∧ Deliverable serializeToArray parseFromArray x.1 := by
  rw [h.submitted, List.mem_mapIdx] at hp
  rcases hp with ⟨i, hi, rfl⟩
  exact ⟨i, (sent past)[i], List.getElem?_eq_getElem hi, rfl, h.deliverable _ (List.getElem_mem hi)⟩

theorem Deliverable.exists_buf {m : Message} (hm : Deliverable serializeToArray parseFromArray m) :
    ∃ buf, ProtobufMessageConverter.serializedFromMessage serializeToArray m = some buf
      ∧ buf.length < 2 ^ 32
      ∧ ProtobufMessageConverter.messageFromSerialized parseFromArray buf = some m := by
  rcases ProtobufMessageConverter.messageFromSerialized_serializedFromMessage parseFromArray
    serializeToArray hm.representable hm.size hm.parse with ⟨buf, hbuf, hmessage, _⟩
  exact ⟨buf, hbuf, hm.length_lt buf hbuf, hmessage⟩

theorem Deliverable.postOf {x : Message × Bool}
    (hm : Deliverable serializeToArray parseFromArray x.1) (i : Nat) :
    (∃ messageBuf, (postOf serializeToArray i x).encodedMessage = frame messageBuf
      ∧ messageBuf.length < 2 ^ 32)
      ∧ ProtobufMessageConverter.messageFromSerialized parseFromArray
          ((Channel.postOf serializeToArray i x).encodedMessage.drop BoostSession.headerSize)
            = some x.1 := by
  rcases hm.exists_buf with ⟨buf, hbuf, hlt, hmessage⟩
  have hframe : (Channel.postOf serializeToArray i x).encodedMessage = frame buf := by
    simp [Channel.postOf, hbuf]
  rw [hframe]
  refine ⟨⟨buf, rfl, hlt⟩, ?_⟩
  rw [← hmessage]
  simp [frame, BoostSession.header, BoostSession.headerSize]

theorem Inv.mem_submitted (h : Inv serializeToArray parseFromArray c past) {p : BoostSession.Post}
    (hp : p ∈ c.writer.outgoing) : p ∈ c.writer.submitted :=
  h.wholeFrames.once.mem_iff.mp hp

theorem socket_cases {e : WriterEvent} (h : c.step serializeToArray (.socket e) = some c') :
    ∃ writer, c.writer.step e = some writer ∧ c' = { c with writer := writer }
      ∧ writer.submitted = c.writer.submitted := by
  have hcases (hwrite : ∀ encodedMessage, e ≠ .write encodedMessage)
      (hdirect : ∀ encodedMessage, e ≠ .writeDirect encodedMessage)
      (h : (c.writer.step e).map (fun writer => { c with writer := writer }) = some c') :
      ∃ writer, c.writer.step e = some writer ∧ c' = { c with writer := writer }
        ∧ writer.submitted = c.writer.submitted := by
    rcases Option.map_eq_some_iff.mp h with ⟨writer, hwriter, rfl⟩
    exact ⟨writer, hwriter, rfl, BoostSession.Writer.submitted_of_step hwrite hdirect hwriter⟩
  cases e with
  | write => cases h
  | writeDirect => cases h
  | runPosted k => exact hcases (by simp) (by simp) h
  | transfer i n => exact hcases (by simp) (by simp) h
  | complete i => exact hcases (by simp) (by simp) h
  | packetSendDone => exact hcases (by simp) (by simp) h

theorem Inv.step (h : Inv serializeToArray parseFromArray c past) (halone : Alone c e)
    (hdeliverable : ∀ x ∈ sent [e], Deliverable serializeToArray parseFromArray x.1)
    (hstep : c.step serializeToArray e = some c') :
    Inv serializeToArray parseFromArray c' (past ++ [e]) := by
  rcases h.reads with ⟨read, rest, hreads⟩
  have hdeliverable :
    ∀ x ∈ sent (past ++ [e]), Deliverable serializeToArray parseFromArray x.1 := by
    intro x hx
    rw [sent_append, List.mem_append] at hx
    rcases hx with hx | hx
    . exact h.deliverable x hx
    . exact hdeliverable x hx
  cases e with
  | send message direct =>
    have hmessage := hdeliverable (message, direct) (by simp [sent])
    rcases hmessage.exists_buf with ⟨buf, hbuf, _, _⟩
    have hpost : c' = { c with writer := c.writer.post direct (frame buf) } := by
      simp only [Channel.step, runSendInternal, hbuf, Option.bind_eq_bind, Option.bind_some,
        BoostSession.encodedBuf_eq] at hstep
      cases hstep
      cases direct with
      | true => rfl
      | false => rfl
    subst hpost
    refine ⟨h.writer.post _ _, BoostSession.Writer.post_wholeFrames h.writer h.wholeFrames _ _,
      hdeliverable, ?_, read, rest, hreads.started, hreads.consumed, hreads.msgQueue⟩
    have hsent : sent (past ++ [.send message direct]) = sent past ++ [(message, direct)] :=
      sent_append _ _
    have hlength := congrArg List.length h.submitted
    rw [List.length_mapIdx] at hlength
    rw [hsent, List.mapIdx_concat, ← h.submitted, ← hlength]
    simp [Writer.post, postOf, hbuf]
  | socket e =>
    have hsent : sent (past ++ [.socket e]) = sent past := by simp [sent]
    rcases socket_cases hstep with ⟨writer, hwriter, rfl, hsubmitted⟩
    rcases h.wholeFrames.exists_started_append hwriter with ⟨new, hnew⟩
    refine ⟨h.writer.step hwriter, (BoostSession.Writer.step_wholeFrames_iff h.writer h.wholeFrames
      hwriter).mp halone, hdeliverable, ?_, read, rest ++ new, ?_, hreads.consumed, hreads.msgQueue⟩
    . rw [hsent, ← h.submitted]
      exact hsubmitted
    . rw [hnew, hreads.started, List.append_assoc]
  | read =>
    have hsent : sent (past ++ [.read]) = sent past := by simp [sent]
    have hframe : ∀ p ∈ rest, ∃ messageBuf, p.encodedMessage = frame messageBuf
      ∧ messageBuf.length < 2 ^ 32 := by
      intro p hp
      have hstarted : p ∈ c.writer.socket.started := by
        rw [hreads.started]
        exact List.mem_append_right _ hp
      rcases h.exists_sent (h.mem_submitted (List.mem_append_left _ hstarted)) with
        ⟨i, x, _, rfl, hx⟩
      exact (hx.postOf i).1
    rcases hreads.cycle h.wholeFrames.socket hframe hstep with ⟨hwriter, p, rest', _, hreads'⟩
    refine ⟨hwriter ▸ h.writer, hwriter ▸ h.wholeFrames, hdeliverable, ?_, _, _, hreads'⟩
    rw [hsent, hwriter]
    exact h.submitted

theorem Inv.exec {events : List ChannelEvent}
    (halone : Run.Along (Channel.step serializeToArray) Alone {} events)
    (hdeliverable : ∀ x ∈ sent events, Deliverable serializeToArray parseFromArray x.1)
    (hexec : Run.exec (Channel.step serializeToArray) {} events = some c) :
    Inv serializeToArray parseFromArray c events := by
  have hsent : ∀ e ∈ events, ∀ _ :
    Channel, ∀ x ∈ sent [e], Deliverable serializeToArray parseFromArray x.1 := by
    intro e he _ x hx
    apply hdeliverable x
    rcases List.append_of_mem he with ⟨before, after, rfl⟩
    rw [List.append_cons, sent_append, sent_append]
    exact List.mem_append_left _ (List.mem_append_right _ hx)
  refine Run.exec_history ?_ start_inv (halone.and (.of_forall hsent)) hexec
  intro c past e c' h hcond hstep
  exact h.step hcond.1 hcond.2 hstep

def messageOf (events : List ChannelEvent) (p : BoostSession.Post) : Option (Message × Bool) :=
  (sent events)[p.number]?

theorem Inv.filterMap_submitted (h : Inv serializeToArray parseFromArray c past) :
    c.writer.submitted.filterMap (messageOf past) = sent past := by
  have hmap : c.writer.submitted.map (messageOf past) = (sent past).map some := by
    rw [h.submitted]
    apply List.ext_getElem
    . simp
    . intro i hi hi'
      rw [List.length_map, List.length_mapIdx] at hi
      simp [messageOf, postOf, hi]
  calc c.writer.submitted.filterMap (messageOf past)
    _ = (c.writer.submitted.map (messageOf past)).filterMap id := by
      rw [List.filterMap_map, Function.id_comp]
    _ = sent past := by rw [hmap, List.filterMap_map, Function.id_comp, List.filterMap_some]

theorem Inv.messageOf_eq (h : Inv serializeToArray parseFromArray c past) {p : BoostSession.Post}
    (hp : p ∈ c.writer.submitted) : ∃ x, messageOf past p = some x ∧ x.2 = p.direct
      ∧ ProtobufMessageConverter.messageFromSerialized parseFromArray
          (p.encodedMessage.drop BoostSession.headerSize) = some x.1 := by
  rcases h.exists_sent hp with ⟨i, x, hx, rfl, hdeliverable⟩
  exact ⟨x, hx, rfl, (hdeliverable.postOf i).2⟩

theorem Inv.filter_messageOf (h : Inv serializeToArray parseFromArray c past)
    {posts : List BoostSession.Post} (hposts : ∀ p ∈ posts, p ∈ c.writer.submitted) :
    (posts.filterMap (messageOf past)).filter (!·.2) = (posts.filter (!·.direct)).filterMap
    (messageOf past) := by
  rw [List.filter_filterMap, List.filterMap_filter]
  apply List.filterMap_congr
  intro p hp
  rcases h.messageOf_eq (hposts p hp) with ⟨x, hx, hdirect, _⟩
  rw [hx, Option.filter_some, hdirect]

theorem Inv.received_messageOf (h : Inv serializeToArray parseFromArray c past)
    {posts : List BoostSession.Post} (hposts : ∀ p ∈ posts, p ∈ c.writer.submitted) :
    posts.map (fun p => ProtobufMessageConverter.messageFromSerialized parseFromArray
        (p.encodedMessage.drop BoostSession.headerSize))
      = (posts.filterMap (messageOf past)).map (fun x => some x.1) := by
  induction posts with
  | nil => rfl
  | cons p posts ih =>
    rw [List.forall_mem_cons] at hposts
    rcases h.messageOf_eq hposts.1 with ⟨x, hx, _, hmessage⟩
    rw [List.map_cons, List.filterMap_cons_some hx, List.map_cons, ih hposts.2, hmessage]

theorem Inv.rest_eq_nil (h : Inv serializeToArray parseFromArray c past)
    {read rest : List BoostSession.Post} (hreads : c.Reads read rest)
    (hquiet : c.Quiet serializeToArray) : rest = [] := by
  by_contra hne
  rcases List.exists_cons_of_ne_nil hne with ⟨p, rest, rfl⟩
  have hstarted : p ∈ c.writer.socket.started := by
    rw [hreads.started]
    simp
  rcases h.exists_sent (h.mem_submitted (List.mem_append_left _ hstarted)) with ⟨i, x, _, rfl, hx⟩
  rcases (hx.postOf i).1 with ⟨messageBuf, hframe, hlt⟩
  have hwire := h.wholeFrames.socket.wire
  have hcompleted := hreads.started
  rw [Socket.started, hquiet.writes, List.map_nil, List.append_nil] at hcompleted
  rw [hquiet.writes, List.map_nil, List.flatten_nil, List.append_nil, hcompleted, List.map_append,
    List.flatten_append] at hwire
  have hread := hquiet.read
  simp only [Channel.step, Channel.read, hwire, hreads.consumed, List.drop_left, List.map_cons,
    List.flatten_cons, hframe, BoostSession.readCycle_append _ _ _ hlt, Option.map_some] at hread
  cases hread

end Channel

/--
In every state of a connection, whatever pieces the stream comes in and whenever the other side
reads: if the writes of deliverable messages keep apart, then the messages that the other side has
converted are the first ones of an order of all that were sent, each of them whole and none twice,
in which those without a handler are as they were sent. When nothing goes on any more, they are all
of them.
-/
theorem channel_delivers {serializeToArray : proto.Request → List UInt8}
    {parseFromArray : List UInt8 → proto.Request × Bool} {events : List ChannelEvent} {c : Channel}
    (hdeliverable : ∀ x ∈ Channel.sent events,
      Channel.Deliverable serializeToArray parseFromArray x.1)
    (halone : Run.Along (Channel.step serializeToArray) Channel.Alone {} events)
    (hexec : Run.exec (Channel.step serializeToArray) {} events = some c) :
    ∃ read rest, (read ++ rest).Perm (Channel.sent events)
      ∧ (read ++ rest).filter (!·.2) = (Channel.sent events).filter (!·.2)
      ∧ c.received parseFromArray = read.map (fun x => some x.1)
      ∧ (c.Quiet serializeToArray → rest = []) := by
  have h := Channel.Inv.exec halone hdeliverable hexec
  rcases h.reads with ⟨read, rest, hreads⟩
  have houtgoing : c.writer.outgoing =
      read ++ (rest ++ (c.writer.sendPacketQueue.tail ++ c.writer.posted)) := by
    rw [Writer.outgoing, hreads.started, List.append_assoc]
  have hsubmitted : ∀ p ∈ c.writer.outgoing, p ∈ c.writer.submitted :=
    fun p hp => h.mem_submitted hp
  refine ⟨read.filterMap (Channel.messageOf events),
    (rest ++ (c.writer.sendPacketQueue.tail ++ c.writer.posted)).filterMap
    (Channel.messageOf events), ?_, ?_, ?_, ?_⟩
  . rw [← List.filterMap_append, ← houtgoing, ← h.filterMap_submitted]
    exact h.wholeFrames.once.filterMap _
  . rw [← List.filterMap_append, ← houtgoing, ← h.filterMap_submitted,
      h.filter_messageOf hsubmitted, h.filter_messageOf (fun p hp => hp), h.wholeFrames.inOrder]
  . rw [Channel.received, hreads.msgQueue, List.map_map, ← h.received_messageOf]
    . rfl
    . intro p hp
      apply hsubmitted
      rw [houtgoing]
      exact List.mem_append_left _ hp
  . intro hquiet
    have hqueue := h.writer.front
    rw [hquiet.writes, hquiet.packetsDone, List.map_nil, List.filter_nil, List.append_nil] at hqueue
    have hnil : c.writer.sendPacketQueue = [] := by simpa using hqueue.symm.eq_nil
    rw [h.rest_eq_nil hreads hquiet, hnil, hquiet.posted]
    rfl

open ProtobufMessageConverter (chunkBytes chunkRequest chunkResponse) in
/--
A response goes out in two pieces, and is read when it is complete.
-/
theorem channel_delivers_chunkResponse :
    let events : List ChannelEvent :=
      [.send chunkResponse false, .socket (.runPosted 0), .socket (.transfer 0 10),
        .socket (.transfer 0 44), .read, .socket (.complete 0), .socket .packetSendDone]
    ∃ c, Run.exec (Channel.step fun _ => chunkBytes) {} events = some c
      ∧ c.received (fun _ => (chunkRequest, true)) = [some chunkResponse] := by
  intro events
  have hdeliverable : ∀ x ∈ Channel.sent events,
      Channel.Deliverable (fun _ => chunkBytes) (fun _ => (chunkRequest, true)) x.1 := by
    intro x hx
    have heq : x = (chunkResponse, false) := List.mem_singleton.mp hx
    subst heq
    refine ⟨⟨by decide, by decide, ?_, ?_⟩, ?_, ?_, ?_⟩
    . rintro chunk ⟨⟩
      decide
    . rintro chunk ⟨⟩
      decide
    . rintro chunk ⟨⟩
      rfl
    . rintro r ⟨⟩
      rfl
    . rintro buf ⟨⟩
      decide
  have halone : Run.Along (Channel.step fun _ => chunkBytes) Channel.Alone {} events := by decide
  have hexec : (Run.exec (Channel.step fun _ => chunkBytes) {} events).isSome := by decide
  rcases Option.isSome_iff_exists.mp hexec with ⟨c, hc⟩
  have hread : ∀ c ∈ Run.exec (Channel.step fun _ => chunkBytes) {} events,
      c.reader.msgQueue.length = 1 := by decide
  rcases channel_delivers hdeliverable halone hc with ⟨read, rest, hperm, _, hreceived, _⟩
  refine ⟨c, hc, ?_⟩
  -- one message was sent and one has been read
  have hlength := congrArg List.length hreceived
  rw [Channel.received, List.length_map, List.length_map, hread c hc] at hlength
  have hsent : (read ++ rest).Perm [(chunkResponse, false)] := hperm
  have hall := hsent.length_eq
  rw [List.length_append, ← hlength, List.length_singleton] at hall
  rw [List.eq_nil_of_length_eq_zero (by omega : rest.length = 0), List.append_nil] at hsent
  rw [hreceived, hsent.eq_singleton]
  rfl

end Peerpaste
