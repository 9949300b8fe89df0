import Mathlib.Algebra.Group.Int.Defs
import Peerpaste.Message.Basic

/-!
This module contains the decoding of messages: the fields of the protobuf `Request` that the
converter reads and `MessageFromSerialized`. Parsing the wire format is the business of protobuf and
a parameter here.
-/

namespace Peerpaste

namespace proto

structure CommonHeader where
  tFlag : Bool
  ttl : UInt32
  messageLength : UInt64
  requestType : String
  transactionId : String
  correlationalId : String
  version : String
  responseCode : Option String := none
  deriving DecidableEq, Repr

structure PeerInfo where
  peerId : String
  peerIp : String
  peerPort : String
  deriving DecidableEq, Repr

structure FileInfo where
  fileName : String
  sha256sum : Option String := none
  fileSize : Option Int64 := none
  offset : Option Int64 := none
  deriving DecidableEq, Repr

/--
The data is held by a `std::string`, whose `max_size` its length cannot exceed.
-/
structure FileChunk where
  offset : Int64
  chunkSize : Int64
  data : List UInt8
  length_lt : data.length < 2 ^ 63
  deriving DecidableEq, Repr

structure Request where
  commonheader : CommonHeader
  peerinfo : List PeerInfo := []
  files : List FileInfo := []
  fileChunk : Option FileChunk := none
  data : Option String := none
  deriving DecidableEq, Repr

end proto

namespace ProtobufMessageConverter

def sizeT (n : Int64) : Nat :=
  n.toUInt64.toNat

/--
`std::vector<char>(data, data + size)` of the data of a `std::string`, which a null character
follows. There is no `data + size` behind that.
-/
def vectorOf (data : List UInt8) (size : Nat) : Option (List UInt8) :=
  if size ≤ data.length + 1 then
    some ((data ++ [0]).take size)
  else
    none

def headerOf (h : proto.CommonHeader) : Header :=
  ⟨h.tFlag, h.ttl, h.messageLength, h.requestType, h.transactionId, h.correlationalId, h.version,
    h.responseCode.getD ""⟩

def peerOf (p : proto.PeerInfo) : Peer :=
  ⟨p.peerId, p.peerIp, p.peerPort⟩

def fileInfoOf (f : proto.FileInfo) : FileInfo where
  fileName := f.fileName
  sha256sum := f.sha256sum.getD ""
  fileSize := (f.fileSize.map sizeT).getD 0
  offset := (f.offset.map sizeT).getD 0

def fileChunkOf (c : proto.FileChunk) : Option FileChunk := do
  let size := sizeT c.chunkSize
  let data ← vectorOf c.data size
  return ⟨size, sizeT c.offset, data⟩

/--
`none` if some step has no defined behaviour. What `ParseFromArray` returns is not looked at, only
the request that it has filled.
-/
def messageFromSerialized (parseFromArray : List UInt8 → proto.Request × Bool) (buf : List UInt8) :
    Option Message := do
  let request := (parseFromArray buf).1
  let message : Message := {
    header := headerOf request.commonheader
    peers := request.peerinfo.map peerOf
    files := request.files.map fileInfoOf
    data := request.data.getD ""
  }
  match request.fileChunk with
  | none => return message
  | some chunk => return { message with fileChunk := some (← fileChunkOf chunk) }

def ReadsInside (c : proto.FileChunk) (decoded : Option Message) : Prop :=
  ∃ message chunk, decoded = some message ∧ message.fileChunk = some chunk
    ∧ chunk.data <+: c.data ∧ chunk.size = chunk.data.length

theorem sizeT_lt (n : Int64) : sizeT n < 2 ^ 64 := by
  exact UInt64.toNat_lt n.toUInt64

theorem toInt_eq_sizeT (n : Int64) :
    n.toInt = if 2 * sizeT n < 2 ^ 64 then (sizeT n : Int) else sizeT n - 2 ^ 64 := by
  exact BitVec.toInt_eq_toNat_cond n.toBitVec

theorem sizeT_le_length_iff (c : proto.FileChunk) :
    sizeT c.chunkSize ≤ c.data.length
      ↔
    0 ≤ c.chunkSize.toInt ∧ c.chunkSize.toInt ≤ c.data.length := by
  -- as a `size_t`, a negative size is larger than any data
  have hlength := c.length_lt
  have hlt := sizeT_lt c.chunkSize
  rw [toInt_eq_sizeT]
  split
  . omega
  . omega

theorem fileChunkOf_eq (c : proto.FileChunk) :
    fileChunkOf c =
      if sizeT c.chunkSize ≤ c.data.length + 1 then
        some ⟨sizeT c.chunkSize, sizeT c.offset, (c.data ++ [0]).take (sizeT c.chunkSize)⟩
      else
        none := by
  simp only [fileChunkOf, vectorOf]
  split
  . rfl
  . rfl

theorem readsInside_iff (parseFromArray : List UInt8 → proto.Request × Bool) (buf : List UInt8)
    (c : proto.FileChunk) (hc : (parseFromArray buf).1.fileChunk = some c) :
    ReadsInside c (messageFromSerialized parseFromArray buf)
      ↔
    0 ≤ c.chunkSize.toInt ∧ c.chunkSize.toInt ≤ c.data.length := by
  rw [← sizeT_le_length_iff]
  simp only [messageFromSerialized, hc, fileChunkOf_eq]
  split
  . next hsize =>
    constructor
    . rintro ⟨message, chunk, hmessage, hchunk, hprefix, hlength⟩
      cases hmessage
      cases hchunk
      -- the chunk is as long as announced, and no longer than the data
      exact hlength.trans_le hprefix.length_le
    . intro hle
      refine ⟨_, _, rfl, rfl, ?_, ?_⟩
      . rw [List.take_append_of_le_length hle]
        exact List.take_prefix _ _
      . rw [List.length_take, List.length_append, List.length_singleton, Nat.min_eq_left hsize]
  . next hsize =>
    constructor
    . rintro ⟨message, chunk, hmessage, _⟩
      simp at hmessage
    . intro hle
      exact absurd (Nat.le_succ_of_le hle) hsize

def requestOfSize (chunkSize : Int64) : proto.Request where
  commonheader := ⟨false, 0, 0, "get_file", "t", "q", "", none⟩
  fileChunk := some ⟨0, chunkSize, [97, 98, 99], by decide⟩

theorem readsInside_requestOfSize_three :
    ReadsInside ⟨0, 3, [97, 98, 99], by decide⟩
      (messageFromSerialized (fun _ => (requestOfSize 3, true))
        [10, 24, 8, 0, 16, 0, 24, 0, 34, 8, 103, 101, 116, 95, 102, 105, 108, 101, 42,
          1, 116, 50, 1, 113, 58, 0, 34, 9, 8, 0, 16, 3, 26, 3, 97, 98, 99]) := by
  apply (readsInside_iff _ _ _ rfl).mpr
  decide

theorem not_readsInside_requestOfSize_large :
    ¬ ReadsInside ⟨0, 2048, [97, 98, 99], by decide⟩
      (messageFromSerialized (fun _ => (requestOfSize 2048, true))
        [10, 24, 8, 0, 16, 0, 24, 0, 34, 8, 103, 101, 116, 95, 102, 105, 108, 101, 42,
          1, 116, 50, 1, 113, 58, 0, 34, 10, 8, 0, 16, 128, 16, 26, 3, 97, 98, 99]) := by
  have hnone (buf : List UInt8) :
      messageFromSerialized (fun _ => (requestOfSize 2048, true)) buf = none := rfl
  rw [hnone]
  rintro ⟨message, chunk, hmessage, _⟩
  cases hmessage

end ProtobufMessageConverter

end Peerpaste
