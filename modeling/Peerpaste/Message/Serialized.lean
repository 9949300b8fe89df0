import Peerpaste.Message.Converter

/-!
This module contains `SerializedFromMessage`, the encoding of messages, and the round trip through
both directions of the converter. Serializing a protobuf `Request` is a parameter, as parsing one
is.
-/

namespace Peerpaste

/--
The sizes and offsets of the message are values of `size_t`, and its chunk is no longer than a
`std::vector<char>` can be.
-/
structure Message.Representable (m : Message) : Prop where
  fileSize_lt : ∀ f ∈ m.files, f.fileSize < 2 ^ 64
  offset_lt : ∀ f ∈ m.files, f.offset < 2 ^ 64
  chunkOffset_lt : ∀ c, m.fileChunk = some c → c.offset < 2 ^ 64
  chunkLength_lt : ∀ c, m.fileChunk = some c → c.data.length < 2 ^ 63

namespace ProtobufMessageConverter

def int64Of (n : Nat) : Int64 :=
  (UInt64.ofNat n).toInt64

def commonheaderOf (h : Header) : proto.CommonHeader where
  tFlag := h.tFlag
  ttl := h.ttl
  messageLength := h.messageLength
  requestType := h.requestType
  transactionId := h.transactionId
  correlationalId := h.correlationalId
  version := h.version
  responseCode := some h.responseCode

def peerinfoOf (p : Peer) : proto.PeerInfo where
  peerId := p.id
  peerIp := p.ip
  peerPort := p.port

def filesOf (f : FileInfo) : proto.FileInfo where
  fileName := f.fileName
  sha256sum := some f.sha256sum
  fileSize := some (int64Of f.fileSize)
  offset := some (int64Of f.offset)

def protoFileChunkOf (c : FileChunk) : Option proto.FileChunk :=
  -- `set_data(data.data(), size)` reads `size` bytes, wherever the vector ends
  if c.size ≤ c.data.length then
    if hlt : (c.data.take c.size).length < 2 ^ 63 then
      some ⟨int64Of c.offset, int64Of c.size, c.data.take c.size, hlt⟩
    else
      none
  else
    none

def requestOf (message : Message) : Option proto.Request := do
  let request : proto.Request := {
    commonheader := commonheaderOf message.header
    peerinfo := message.peers.map peerinfoOf
    files := message.files.map filesOf
    data := if message.data != "" then some message.data else none
  }
  match message.fileChunk with
  | none => return request
  | some chunk => return { request with fileChunk := some (← protoFileChunkOf chunk) }

def serializedFromMessage (serializeToArray : proto.Request → List UInt8) (message : Message) :
    Option (List UInt8) :=
  (requestOf message).map serializeToArray

theorem sizeT_int64Of {n : Nat} (hn : n < 2 ^ 64) : sizeT (int64Of n) = n := by
  simp only [sizeT, int64Of, UInt64.toUInt64_toInt64, UInt64.toNat_ofNat']
  exact Nat.mod_eq_of_lt hn

@[simp]
theorem headerOf_commonheaderOf (h : Header) : headerOf (commonheaderOf h) = h := rfl

@[simp]
theorem peerOf_peerinfoOf (p : Peer) : peerOf (peerinfoOf p) = p := rfl

theorem fileInfoOf_filesOf (f : FileInfo) (hsize : f.fileSize < 2 ^ 64)
    (hoffset : f.offset < 2 ^ 64) :
    fileInfoOf (filesOf f) = f := by
  simp [fileInfoOf, filesOf, sizeT_int64Of hsize, sizeT_int64Of hoffset]

theorem protoFileChunkOf_eq (c : FileChunk) (hsize : c.size = c.data.length)
    (hlength : c.data.length < 2 ^ 63) :
    protoFileChunkOf c = some ⟨int64Of c.offset, int64Of c.size, c.data, hlength⟩ := by
  have htake : c.data.take c.size = c.data := by rw [hsize, List.take_length]
  rw [protoFileChunkOf, if_pos (Nat.le_of_eq hsize), dif_pos (htake.symm ▸ hlength)]
  simp only [htake]

theorem fileChunkOf_protoFileChunkOf (c : FileChunk) (hsize : c.size = c.data.length)
    (hoffset : c.offset < 2 ^ 64) (hlength : c.data.length < 2 ^ 63) :
    (protoFileChunkOf c).bind fileChunkOf = some c := by
  have htake : (c.data ++ [0]).take c.size = c.data := by rw [hsize, List.take_left]
  rw [protoFileChunkOf_eq c hsize hlength]
  simp only [Option.bind_some, fileChunkOf_eq]
  rw [sizeT_int64Of hoffset, sizeT_int64Of (by omega),
    if_pos (Nat.le_succ_of_le (Nat.le_of_eq hsize)), htake]

theorem map_fileInfoOf_filesOf (files : List FileInfo) (hsize : ∀ f ∈ files, f.fileSize < 2 ^ 64)
    (hoffset : ∀ f ∈ files, f.offset < 2 ^ 64) : (files.map filesOf).map fileInfoOf = files := by
  rw [List.map_map]
  conv => rhs; rw [← List.map_id files]
  apply List.map_congr_left
  intro f hf
  exact fileInfoOf_filesOf f (hsize f hf) (hoffset f hf)

section RoundTrip

variable (parseFromArray : List UInt8 → proto.Request × Bool)
variable (serializeToArray : proto.Request → List UInt8)

theorem exists_requestOf {m : Message} (hm : m.Representable)
    (hsize : ∀ c, m.fileChunk = some c → c.size = c.data.length) :
    ∃ request, requestOf m = some request ∧
      ∀ buf, (parseFromArray buf).1 = request → messageFromSerialized parseFromArray buf
        = some m := by
  have hfiles := map_fileInfoOf_filesOf m.files hm.fileSize_lt hm.offset_lt
  have hpeers : (m.peers.map peerinfoOf).map peerOf = m.peers := by simp [Function.comp_def]
  -- an empty string is not put into the request, and is what a request without data decodes to
  have hdata : (if m.data != "" then some m.data else none).getD "" = m.data := by
    split
    . rfl
    . next hempty => simpa using hempty
  cases hchunk : m.fileChunk with
  | none =>
    refine ⟨_, by rw [requestOf, hchunk]; rfl, ?_⟩
    intro buf hbuf
    simp only [messageFromSerialized, hbuf, hfiles, hpeers, hdata,
      headerOf_commonheaderOf, ← hchunk]
    rfl
  | some chunk =>
    have hlength := hm.chunkLength_lt chunk hchunk
    have heq := protoFileChunkOf_eq chunk (hsize chunk hchunk) hlength
    have hdecoded := fileChunkOf_protoFileChunkOf chunk (hsize chunk hchunk)
      (hm.chunkOffset_lt chunk hchunk) hlength
    rw [heq, Option.bind_some] at hdecoded
    refine ⟨_, by simp only [requestOf, hchunk, heq]; rfl, ?_⟩
    intro buf hbuf
    simp only [messageFromSerialized, hbuf, hfiles, hpeers, hdata,
      headerOf_commonheaderOf, hdecoded]
    change some { m with fileChunk := some chunk } = some m
    rw [← hchunk]

/--
Where parsing gives back the request that was serialized, decoding gives back the message, and
encoding what was decoded gives the same bytes.
-/
theorem messageFromSerialized_serializedFromMessage {m : Message} (hm : m.Representable)
    (hsize : ∀ c, m.fileChunk = some c → c.size = c.data.length)
    (hparse : ∀ r, requestOf m = some r → parseFromArray (serializeToArray r) = (r, true)) :
    ∃ buf, serializedFromMessage serializeToArray m = some buf
      ∧ messageFromSerialized parseFromArray buf = some m
      ∧ (messageFromSerialized parseFromArray buf).bind (serializedFromMessage serializeToArray)
          = some buf := by
  have hrequest := exists_requestOf parseFromArray hm hsize
  rcases hrequest with ⟨request, hrequest, hdecode⟩
  have hm' := hdecode (serializeToArray request) (by rw [hparse request hrequest])
  have hbuf : serializedFromMessage serializeToArray m = some (serializeToArray request) := by
    simp [serializedFromMessage, hrequest]
  refine ⟨serializeToArray request, hbuf, hm', ?_⟩
  rw [hm', Option.bind_some, hbuf]

end RoundTrip

def chunkResponse : Message where
  header := ⟨false, 0, 0, "get_file", "t", "q", "", ""⟩
  files := [⟨"f", "", 3, 0⟩]
  fileChunk := some ⟨3, 0, [97, 98, 99]⟩

def chunkRequest : proto.Request where
  commonheader := ⟨false, 0, 0, "get_file", "t", "q", "", some ""⟩
  files := [⟨"f", some "", some 3, some 0⟩]
  fileChunk := some ⟨0, 3, [97, 98, 99], by simp⟩

def chunkBytes : List UInt8 :=
  [10, 26, 8, 0, 16, 0, 24, 0, 34, 8, 103, 101, 116, 95, 102, 105, 108, 101, 42, 1, 116,
    50, 1, 113, 58,
    0, 66, 0, 26, 9, 10, 1, 102, 18, 0, 24, 3, 32, 0, 34, 9, 8, 0, 16, 3, 26, 3, 97, 98, 99]

theorem messageFromSerialized_chunkResponse :
    ∃ buf, serializedFromMessage (fun _ => chunkBytes) chunkResponse = some buf
      ∧ messageFromSerialized (fun _ => (chunkRequest, true)) buf = some chunkResponse
      ∧ (messageFromSerialized (fun _ => (chunkRequest, true)) buf).bind
          (serializedFromMessage (fun _ => chunkBytes)) = some buf := by
  apply messageFromSerialized_serializedFromMessage
  . constructor
    . decide
    . decide
    . rintro c ⟨⟩
      decide
    . rintro c ⟨⟩
      decide
  . rintro c ⟨⟩
    rfl
  . rintro r ⟨⟩
    rfl

end ProtobufMessageConverter

end Peerpaste
