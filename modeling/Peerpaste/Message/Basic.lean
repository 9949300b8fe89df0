import Mathlib.Data.String.Basic
import Peerpaste.Order.Clockwise

/-!
This module contains the data that nodes exchange: peers, headers, file infos, file chunks and
messages. A `std::string` is a `String` whose characters stand for the bytes, so that `<` is
`compare`, and a `size_t` is a `Nat`.
-/

namespace Peerpaste

namespace util

def between (id1 id2 id3 : String) : Bool :=
  if id1 < id3 then
    id1 < id2 && id2 < id3
  else
    id1 < id2 || id2 < id3

theorem between_iff (id1 id2 id3 : String) :
    between id1 id2 id3 = true ↔ Clockwise.Between id1 id2 id3 := by
  rw [Clockwise.between_iff]
  unfold between
  split
  . simp
  . simp

theorem between_rotate {a b c : String} (hab : a ≠ b) (hca : c ≠ a) :
    between a b c = between b c a := by
  rw [Bool.eq_iff_iff, between_iff, between_iff]
  exact Clockwise.Between.rotate hab hca

theorem between_openInterval (a b c : String) :
    (between a b c = true ↔ Clockwise.Between a b c)
      ∧ (between a b a = true ↔ b ≠ a)
      ∧ (a ≠ b → b ≠ c → c ≠ a → (between a b c = true ↔ ¬ between c b a = true)
        ∧ between a b c = between b c a ∧ between a b c = between c a b)
      ∧ (between a b c = true → ∀ x,
        between a x c = true ↔ between a x b = true ∨ x = b ∨ between b x c = true) := by
  refine ⟨between_iff a b c, ?_, ?_, ?_⟩
  . rw [between_iff]
    exact Clockwise.Between.self_iff a b
  . intro hab hbc hca
    refine ⟨?_, between_rotate hab hca, ?_⟩
    . rw [between_iff, between_iff]
      exact Clockwise.Between.iff_not_swap hab hbc hca
    . rw [between_rotate hab hca, between_rotate hbc hab]
  . intro h x
    simp only [between_iff] at *
    exact h.split x

/--
The id of an address, where `sha256` is the hex digest of a string.
-/
def generateSha256 (sha256 : String → String) (ip port : String) : String :=
  sha256 (ip ++ port)

end util

/--
Where a process listens, which is all that a connection to it is opened with.
-/
structure Endpoint where
  ip : String
  port : String
  deriving DecidableEq, Repr, Inhabited

structure Peer where
  id : String
  ip : String
  port : String
  deriving DecidableEq, Repr, Inhabited

namespace Peer

def endpoint (p : Peer) : Endpoint :=
  ⟨p.ip, p.port⟩

def isValid (p : Peer) : Bool :=
  p.id != "" && p.ip != "" && p.port != ""

end Peer

structure Header where
  tFlag : Bool
  ttl : UInt32
  messageLength : UInt64
  requestType : String
  transactionId : String
  correlationalId : String
  version : String
  responseCode : String
  deriving DecidableEq, Repr

namespace Header

def isRequest (h : Header) : Bool :=
  h.tFlag

def generateResponseHeader (h : Header) : Header where
  tFlag := false
  ttl := h.ttl
  messageLength := h.messageLength
  requestType := h.requestType
  transactionId := ""
  correlationalId := h.transactionId
  version := h.version
  responseCode := h.responseCode

end Header

structure FileInfo where
  fileName : String
  sha256sum : String
  fileSize : Nat := 0
  offset : Nat := 0
  deriving DecidableEq, Repr

structure FileChunk where
  size : Nat := 0
  offset : Nat := 0
  data : List UInt8
  deriving DecidableEq, Repr

def FileChunk.defaultBufSize : Nat := 1024

structure Message where
  header : Header
  peers : List Peer := []
  files : List FileInfo := []
  data : String := ""
  fileChunk : Option FileChunk := none
  deriving DecidableEq, Repr

namespace Message

def isRequest (m : Message) : Bool :=
  m.header.isRequest

/--
A request of a type with some peers. The transaction id is the hash that `generate_transaction_id`
makes of the message, the time and a counter; whoever creates the message passes it in.
-/
def createRequest (requestType : String) (peers : List Peer) (transactionId : String) :
    Message where
  header := ⟨true, 0, 0, requestType, transactionId, "", "", ""⟩
  peers := peers

def generateResponse (m : Message) (transactionId : String) : Message where
  header := { m.header.generateResponseHeader with transactionId := transactionId }

def setPeers (m : Message) (peers : List Peer) : Message :=
  { m with peers := peers }

@[simp]
theorem createRequest_peers (requestType : String) (peers : List Peer) (transactionId : String) :
    (createRequest requestType peers transactionId).peers = peers := rfl

@[simp]
theorem createRequest_requestType (requestType : String) (peers : List Peer)
    (transactionId : String) :
    (createRequest requestType peers transactionId).header.requestType = requestType := rfl

end Message

structure Session where
  id : Nat
  clientIp : String
  deriving DecidableEq, Repr, Inhabited

inductive Connection where
  | peer (p : Peer)
  | session (s : Session)
  deriving DecidableEq, Repr

structure RequestObject where
  message : Message
  connection : Connection
  deriving DecidableEq, Repr

namespace RequestObject

def getClientIp (r : RequestObject) : String :=
  match r.connection with
  | .session s => s.clientIp
  | .peer p => p.ip

end RequestObject

inductive MessageState where
  | failed
  | timedOut
  | valid
  | done
  deriving DecidableEq, Repr

end Peerpaste
