import Mathlib.Algebra.Group.Nat.Defs
import Peerpaste.Run.Drain

/-!
This module contains the framing of messages on a connection: the header that `run_send_internal`
puts in front of a message and the read operations of a session that take it off again.
-/

namespace Peerpaste

namespace MessageDispatcher

/--
`none` if the assertion fails.
-/
def encodeHeader (buf : List UInt8) (size : UInt32) : Option (List UInt8) :=
  if 4 ≤ buf.length then
    let buf := buf.set 0 ((size >>> 24) &&& 0xFF).toUInt8
    let buf := buf.set 1 ((size >>> 16) &&& 0xFF).toUInt8
    let buf := buf.set 2 ((size >>> 8) &&& 0xFF).toUInt8
    some (buf.set 3 (size &&& 0xFF).toUInt8)
  else
    none

/--
The `encoded_buf` of `run_send_internal`: a buffer of four bytes that the header goes to, and the
message.
-/
def encodedBuf (messageBuf : List UInt8) : Option (List UInt8) := do
  let encodedBuf ← encodeHeader (List.replicate 4 0) (UInt32.ofNat messageBuf.length)
  return encodedBuf ++ messageBuf

end MessageDispatcher

/--
The read side of a session. The queue holds the messages that this session has pushed.
-/
structure BoostSession where
  readbuf : List UInt8 := []
  msgQueue : List (List UInt8) := []
  deriving DecidableEq, Repr

namespace BoostSession

def headerSize : Nat := 4

def encodeHeader (buf : List UInt8) (size : UInt32) : Option (List UInt8) :=
  if headerSize ≤ buf.length then
    let buf := buf.set 0 ((size >>> 24) &&& 0xFF).toUInt8
    let buf := buf.set 1 ((size >>> 16) &&& 0xFF).toUInt8
    let buf := buf.set 2 ((size >>> 8) &&& 0xFF).toUInt8
    some (buf.set 3 (size &&& 0xFF).toUInt8)
  else
    none

def decodeHeader (buf : List UInt8) : UInt32 :=
  if buf.length < headerSize then
    0
  else
    (buf.take headerSize).foldl (fun msgSize b => msgSize * 256 + (b.toUInt32 &&& 0xFF)) 0

def resize (buf : List UInt8) (n : Nat) : List UInt8 :=
  buf.take n ++ List.replicate (n - buf.length) 0

/--
`async_read` of `n` bytes into the buffer at `i`. The operation does not complete before so many
bytes have arrived.
-/
def asyncRead (buf : List UInt8) (i n : Nat) (stream : List UInt8) :
    Option (List UInt8 × List UInt8) :=
  if n ≤ stream.length then
    some (buf.take i ++ stream.take n ++ buf.drop (i + n), stream.drop n)
  else
    none

def doReadHeader (s : BoostSession) (stream : List UInt8) : Option (BoostSession × List UInt8) := do
  let readbuf := resize s.readbuf headerSize
  let (readbuf, stream) ← asyncRead readbuf 0 readbuf.length stream
  return ({ s with readbuf := readbuf }, stream)

def doReadMessage (s : BoostSession) (msgLen : UInt32) (stream : List UInt8) :
    Option (BoostSession × List UInt8) := do
  let readbuf := resize s.readbuf (headerSize + msgLen.toNat)
  let (readbuf, stream) ← asyncRead readbuf headerSize msgLen.toNat stream
  return ({ s with readbuf := readbuf }, stream)

def handleReadMessage (s : BoostSession) : BoostSession :=
  { s with msgQueue := s.msgQueue ++ [s.readbuf.drop headerSize] }

def readCycle (s : BoostSession) (stream : List UInt8) : Option (BoostSession × List UInt8) := do
  let (s, stream) ← doReadHeader s stream
  let (s, stream) ← doReadMessage s (decodeHeader s.readbuf) stream
  return (handleReadMessage s, stream)

def header (size : UInt32) : List UInt8 :=
  [((size >>> 24) &&& 0xFF).toUInt8, ((size >>> 16) &&& 0xFF).toUInt8,
    ((size >>> 8) &&& 0xFF).toUInt8, (size &&& 0xFF).toUInt8]

theorem and_255 (n : Nat) : n &&& 255 = n % 256 := by
  exact Nat.and_two_pow_sub_one_eq_mod n 8

theorem decodeHeader_header (size : UInt32) : decodeHeader (header size) = size := by
  apply UInt32.toNat_inj.mp
  have hlt := size.toNat_lt
  simp [decodeHeader, headerSize, header, and_255, Nat.shiftRight_eq_div_pow]
  omega

def frame (messageBuf : List UInt8) : List UInt8 :=
  header (UInt32.ofNat messageBuf.length) ++ messageBuf

theorem encodedBuf_eq :
    MessageDispatcher.encodedBuf = fun messageBuf => some (frame messageBuf) := rfl

theorem resize_length (buf : List UInt8) (n : Nat) : (resize buf n).length = n := by
  simp only [resize, List.length_append, List.length_take, List.length_replicate]
  omega

theorem resize_of_le {buf : List UInt8} {n : Nat} (h : buf.length ≤ n) :
    resize buf n = buf ++ List.replicate (n - buf.length) 0 := by
  rw [resize, List.take_of_length_le h]

theorem asyncRead_append (buf bytes rest : List UInt8) (i : Nat) :
    asyncRead buf i bytes.length (bytes ++ rest) =
      some (buf.take i ++ bytes ++ buf.drop (i + bytes.length), rest) := by
  simp [asyncRead]

theorem doReadHeader_append (s : BoostSession) (size : UInt32) (rest : List UInt8) :
    doReadHeader s (header size ++ rest) = some ({ s with readbuf := header size }, rest) := by
  have hread := asyncRead_append (resize s.readbuf headerSize) (header size) rest 0
  have hlength : (header size).length = (resize s.readbuf headerSize).length := by
    rw [resize_length]
    rfl
  simp only [doReadHeader, ← hlength, hread, Option.bind_eq_bind, Option.bind_some]
  rw [List.drop_eq_nil_of_le (by omega)]
  simp

theorem doReadMessage_append (s : BoostSession) (hs : s.readbuf.length = headerSize)
    (msgLen : UInt32) (message rest : List UInt8) (hlength : message.length = msgLen.toNat) :
    doReadMessage s msgLen (message ++ rest) =
      some ({ s with readbuf := s.readbuf ++ message }, rest) := by
  have hresize : resize s.readbuf (headerSize + msgLen.toNat) = _ := resize_of_le (by omega)
  have hread := asyncRead_append (resize s.readbuf (headerSize + msgLen.toNat)) message
    rest headerSize
  have hdrop : (resize s.readbuf (headerSize + msgLen.toNat)).drop (headerSize + message.length)
    = [] := by
    apply List.drop_eq_nil_of_le
    rw [resize_length]
    omega
  have htake : (resize s.readbuf (headerSize + msgLen.toNat)).take headerSize = s.readbuf := by
    rw [hresize, List.take_append_of_le_length (by omega), List.take_of_length_le (by omega)]
  rw [hdrop, htake, List.append_nil, hlength] at hread
  simp [doReadMessage, hread]

theorem readCycle_append (s : BoostSession) (messageBuf rest : List UInt8)
    (hlt : messageBuf.length < 2 ^ 32) :
    readCycle s (frame messageBuf ++ rest) =
      some (⟨frame messageBuf, s.msgQueue ++ [messageBuf]⟩, rest) := by
  have hsize : (UInt32.ofNat messageBuf.length).toNat = messageBuf.length := by
    rw [UInt32.toNat_ofNat']
    exact Nat.mod_eq_of_lt hlt
  simp only [readCycle, frame, List.append_assoc, doReadHeader_append, Option.bind_eq_bind,
    Option.bind_some, decodeHeader_header]
  rw [doReadMessage_append _ rfl _ _ _ hsize.symm]
  simp [handleReadMessage, headerSize, header]

theorem doReadHeader_length {s s' : BoostSession} {stream stream' : List UInt8}
    (h : doReadHeader s stream = some (s', stream')) : stream'.length < stream.length := by
  simp only [doReadHeader, asyncRead, resize_length, Option.bind_eq_bind, Option.bind_eq_some_iff]
    at h
  rcases h with ⟨⟨readbuf, rest⟩, hread, hs⟩
  split at hread
  . next hle =>
    cases hread
    cases hs
    simp only [headerSize] at hle
    simp only [headerSize, List.length_drop]
    omega
  . cases hread

theorem doReadMessage_length {s s' : BoostSession} {msgLen : UInt32} {stream stream' : List UInt8}
    (h : doReadMessage s msgLen stream = some (s', stream')) : stream'.length ≤ stream.length := by
  simp only [doReadMessage, asyncRead, Option.bind_eq_bind, Option.bind_eq_some_iff] at h
  rcases h with ⟨⟨readbuf, rest⟩, hread, hs⟩
  split at hread
  . cases hread
    cases hs
    simp
  . cases hread

theorem readCycle_length {s s' : BoostSession} {stream stream' : List UInt8}
    (h : readCycle s stream = some (s', stream')) : stream'.length < stream.length := by
  simp only [readCycle, Option.bind_eq_bind, Option.bind_eq_some_iff] at h
  rcases h with ⟨⟨t, rest⟩, hheader, ⟨u, rest'⟩, hmessage, hs⟩
  cases hs
  have hheader := doReadHeader_length hheader
  have hmessage := doReadMessage_length hmessage
  exact Nat.lt_of_le_of_lt hmessage hheader

section Stream

variable {s s' : BoostSession} {stream rest : List UInt8}

theorem asyncRead_append_right {buf buf' : List UInt8} {i n : Nat}
    (h : asyncRead buf i n stream = some (buf', rest)) (tail : List UInt8) :
    asyncRead buf i n (stream ++ tail) = some (buf', rest ++ tail) := by
  unfold asyncRead at h ⊢
  split at h
  . next hle =>
    rw [Option.some.injEq, Prod.mk.injEq] at h
    rw [if_pos (by rw [List.length_append]; omega), List.take_append_of_le_length hle,
      List.drop_append_of_le_length hle, h.1, h.2]
  . cases h

theorem doReadHeader_append_right (h : doReadHeader s stream = some (s', rest))
    (tail : List UInt8) :
    doReadHeader s (stream ++ tail) = some (s', rest ++ tail) := by
  simp only [doReadHeader, Option.bind_eq_bind, Option.bind_eq_some_iff] at h ⊢
  rcases h with ⟨⟨readbuf, rest'⟩, hread, heq⟩
  refine ⟨(readbuf, rest' ++ tail), asyncRead_append_right hread tail, ?_⟩
  cases heq
  rfl

theorem doReadMessage_append_right {msgLen : UInt32}
    (h : doReadMessage s msgLen stream = some (s', rest)) (tail : List UInt8) :
    doReadMessage s msgLen (stream ++ tail) = some (s', rest ++ tail) := by
  simp only [doReadMessage, Option.bind_eq_bind, Option.bind_eq_some_iff] at h ⊢
  rcases h with ⟨⟨readbuf, rest'⟩, hread, heq⟩
  refine ⟨(readbuf, rest' ++ tail), asyncRead_append_right hread tail, ?_⟩
  cases heq
  rfl

theorem readCycle_append_right (h : readCycle s stream = some (s', rest)) (tail : List UInt8) :
    readCycle s (stream ++ tail) = some (s', rest ++ tail) := by
  simp only [readCycle, Option.bind_eq_bind, Option.bind_eq_some_iff] at h ⊢
  rcases h with ⟨⟨t, rest'⟩, hheader, ⟨u, rest''⟩, hmessage, heq⟩
  refine ⟨(t, rest' ++ tail), doReadHeader_append_right hheader tail, (u, rest'' ++ tail),
    doReadMessage_append_right hmessage tail, ?_⟩
  cases heq
  rfl

end Stream

def reader : Run.Reader BoostSession UInt8 where
  next := readCycle
  length_lt := readCycle_length

theorem readCycle_nil (s : BoostSession) : readCycle s [] = none :=
  reader.next_nil s

def readMessages (s : BoostSession) (stream : List UInt8) : BoostSession × List UInt8 :=
  reader.drain s stream

theorem foldl_msgQueue (messages : List (List UInt8)) (s : BoostSession) :
    (messages.foldl (fun s m => (⟨frame m, s.msgQueue ++ [m]⟩ : BoostSession)) s).msgQueue
      =
    s.msgQueue ++ messages := by
  induction messages generalizing s with
  | nil => simp
  | cons m messages ih => simp [ih]

theorem readMessages_frames {messages : List (List UInt8)} (hlt : ∀ m ∈ messages, m.length < 2 ^ 32)
    (s : BoostSession) :
    (readMessages s (messages.map frame).flatten).1.msgQueue = s.msgQueue ++ messages
      ∧ (readMessages s (messages.map frame).flatten).2 = [] := by
  have hnext : ∀ m ∈ messages, ∀ s rest,
      reader.next s (frame m ++ rest) = some (⟨frame m, s.msgQueue ++ [m]⟩, rest) := by
    intro m hm s rest
    exact readCycle_append s m rest (hlt m hm)
  rw [readMessages, reader.drain_flatten messages hnext s]
  exact ⟨foldl_msgQueue messages s, rfl⟩

/--
What `run_send_internal` frames comes out of the reader as it was, and both classes write the same
header.
-/
theorem readMessages_encodedBuf {messages : List (List UInt8)}
    (hmessages : ∀ m ∈ messages, 1 ≤ m.length ∧ m.length ≤ 2 ^ 32 - 1) (s : BoostSession) :
    (∃ encoded, messages.mapM MessageDispatcher.encodedBuf = some encoded
      ∧ (readMessages s encoded.flatten).1.msgQueue = s.msgQueue ++ messages
      ∧ (readMessages s encoded.flatten).2 = [])
    ∧ ∀ buf size, encodeHeader buf size = MessageDispatcher.encodeHeader buf size := by
  refine ⟨⟨messages.map frame, ?_, readMessages_frames ?_ s⟩, fun _ _ => rfl⟩
  . rw [encodedBuf_eq]
    exact List.mapM_pure
  . intro m hm
    have hlength := (hmessages m hm).2
    omega

theorem readMessages_encodedBuf_two :
    (∃ encoded, [[104, 105], [33]].mapM MessageDispatcher.encodedBuf = some encoded
      ∧ (readMessages {} encoded.flatten).1.msgQueue = [] ++ [[104, 105], [33]]
      ∧ (readMessages {} encoded.flatten).2 = [])
    ∧ ∀ buf size, encodeHeader buf size = MessageDispatcher.encodeHeader buf size := by
  exact readMessages_encodedBuf (by decide) {}

end BoostSession

end Peerpaste
