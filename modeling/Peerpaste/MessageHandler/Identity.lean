import Mathlib.Algebra.Group.Int.Defs
import Peerpaste.MessageHandler.Basic

/-!
This module contains who a node says it is: the self peer that the `MessageHandler` is constructed
with, the ids that are made of an ip and a port, and the port that the `Server` listens on.
-/

namespace Peerpaste

/--
The self peer of the constructor. `std::to_string` of a `short` is its decimal text, with a minus
sign if it is negative.
-/
def MessageHandler.constructSelf (sha256 : String → String) (ip : String) (port : Int16) : Peer :=
  let selfIp := ip
  let selfPort := toString port.toInt
  let selfId := util.generateSha256 sha256 selfIp selfPort
  ⟨selfId, selfIp, selfPort⟩

section Ids

variable (sha256 : String → String)

def Endpoint.Shifted (a b : Endpoint) : Prop :=
  ∃ piece, b.ip = a.ip ++ piece ∧ a.port = piece ++ b.port

theorem Endpoint.append_eq_iff (a b : Endpoint) :
    a.ip ++ a.port = b.ip ++ b.port ↔ a.Shifted b ∨ b.Shifted a := by
  constructor
  . intro h
    have hlist : a.ip.toList ++ a.port.toList = b.ip.toList ++ b.port.toList := by
      rw [← String.toList_append, h, String.toList_append]
    rcases List.append_eq_append_iff.mp hlist with ⟨piece, hip, hport⟩ | ⟨piece, hip, hport⟩
    . left
      refine ⟨String.ofList piece, ?_, ?_⟩
      . apply String.toList_inj.mp
        simpa using hip
      . apply String.toList_inj.mp
        simpa using hport
    . right
      refine ⟨String.ofList piece, ?_, ?_⟩
      . apply String.toList_inj.mp
        simpa using hip
      . apply String.toList_inj.mp
        simpa using hport
  . rintro (⟨piece, hip, hport⟩ | ⟨piece, hip, hport⟩)
    . rw [hip, hport, String.append_assoc]
    . rw [hip, hport, String.append_assoc]

theorem generateSha256_ne_iff (a b : Endpoint)
    (hinj : sha256 (a.ip ++ a.port) = sha256 (b.ip ++ b.port) → a.ip ++ a.port = b.ip ++ b.port) :
    util.generateSha256 sha256 a.ip a.port ≠ util.generateSha256 sha256 b.ip b.port
      ↔
    ¬ (a.Shifted b ∨ b.Shifted a) := by
  rw [← Endpoint.append_eq_iff, not_iff_not]
  constructor
  . exact hinj
  . exact congrArg sha256

def localDigest (s : String) : String :=
  if s = "127.0.0.11337" then
    "8F885D21476DF10548245569F532D464B25F47AB34727E7CBE754F8BBF151812"
  else
    "6C79FE745EF633A6C7454174BDBDF18D9AF489871B96C859AC85074FB70B81FB"

theorem generateSha256_ne_local :
    util.generateSha256 localDigest "127.0.0.1" "1337"
        ≠ util.generateSha256 localDigest "127.0.0.1" "1338"
      ↔
    ¬ (Endpoint.Shifted ⟨"127.0.0.1", "1337"⟩ ⟨"127.0.0.1", "1338"⟩
        ∨ Endpoint.Shifted ⟨"127.0.0.1", "1338"⟩ ⟨"127.0.0.1", "1337"⟩) := by
  apply generateSha256_ne_iff _ ⟨"127.0.0.1", "1337"⟩ ⟨"127.0.0.1", "1338"⟩
  decide

def queryFrom (clientIp port : String) : RequestObject where
  message := Message.createRequest "query" [⟨"", "", port⟩] "t"
  connection := .session ⟨0, clientIp⟩

/--
Nodes at 10.0.0.1 port 16100 and at 10.0.0.11 port 6100 have one id, and clients there are given it.
-/
theorem constructSelf_collision :
    (⟨"10.0.0.1", "16100"⟩ : Endpoint) ≠ ⟨"10.0.0.11", "6100"⟩
    ∧ (∀ sha256, util.generateSha256 sha256 "10.0.0.1" "16100"
        = util.generateSha256 sha256 "10.0.0.11" "6100")
    ∧ (∀ sha256, (MessageHandler.constructSelf sha256 "10.0.0.1" 16100).id
        = (MessageHandler.constructSelf sha256 "10.0.0.11" 6100).id)
    ∧ ∀ sha256 rt, ∃ id,
        Query.handleRequest sha256 rt (queryFrom "10.0.0.1" "16100") "r" =
            some ⟨rt, .done, true,
              [(queryFrom "10.0.0.1" "16100").respond [⟨id, "10.0.0.1", "16100"⟩] "r"]⟩
        ∧ Query.handleRequest sha256 rt (queryFrom "10.0.0.11" "6100") "r" =
            some ⟨rt, .done, true,
              [(queryFrom "10.0.0.11" "6100").respond [⟨id, "10.0.0.11", "6100"⟩] "r"]⟩ := by
  have hid (sha256 : String → String) :
      util.generateSha256 sha256 "10.0.0.1" "16100"
        = util.generateSha256 sha256 "10.0.0.11" "6100" := by
    apply congrArg sha256
    decide
  have hport : toString (16100 : Int16).toInt = "16100" := by decide
  have hport' : toString (6100 : Int16).toInt = "6100" := by decide
  refine ⟨by decide, hid, ?_, ?_⟩
  . intro sha256
    simp only [MessageHandler.constructSelf, hport, hport']
    exact hid sha256
  . intro sha256 rt
    refine ⟨util.generateSha256 sha256 "10.0.0.1" "16100", rfl, ?_⟩
    rw [hid]
    rfl

end Ids

structure Server where
  port : Int32
  deriving DecidableEq, Repr

namespace Server

/--
The port that the acceptor listens on, where `bind` is the local port of a socket that was bound to
an endpoint with a port.
-/
def startListening (bind : UInt16 → UInt16) (port : UInt16) : UInt16 :=
  bind port

def run (bind : UInt16 → UInt16) (s : Server) : UInt16 :=
  startListening bind s.port.toUInt32.toUInt16

end Server

structure PeerPaste where
  self : Peer
  server : Server
  deriving DecidableEq, Repr

namespace PeerPaste

def init (sha256 : String → String) (ip : String) (port : UInt32) : PeerPaste where
  self := MessageHandler.constructSelf sha256 ip port.toUInt16.toInt16
  server := ⟨port.toInt32⟩

def AdvertisesBoundPort (bind : UInt16 → UInt16) (p : PeerPaste) : Prop :=
  p.self.port = toString (p.server.run bind).toNat

theorem init_self_port (sha256 : String → String) (ip : String) (port : UInt32) :
    (init sha256 ip port).self.port = Int.repr port.toUInt16.toInt16.toInt := rfl

theorem init_run (bind : UInt16 → UInt16) (sha256 : String → String) (ip : String) (port : UInt32) :
    (init sha256 ip port).server.run bind = bind port.toUInt16 := by
  simp [init, Server.run, Server.startListening]

theorem toInt_toInt16 (n : UInt16) :
    n.toInt16.toInt = if n.toNat < 2 ^ 15 then (n.toNat : Int) else n.toNat - 2 ^ 16 := by
  have htoInt : n.toInt16.toInt = if 2 * n.toNat
    < 2 ^ 16 then (n.toNat : Int) else n.toNat - 2 ^ 16 :=
    BitVec.toInt_eq_toNat_cond n.toBitVec
  rw [htoInt]
  split
  . rw [if_pos (by omega)]
  . rw [if_neg (by omega)]

theorem repr_eq_repr_iff {a : Int} {n : Nat} : a.repr = n.repr ↔ a = n := by
  rw [Int.repr_eq_if]
  split
  . next hnonneg =>
    constructor
    . intro h
      have hdigits := congrArg (fun text => Nat.ofDigitChars 10 text.toList 0) h
      simp only [Nat.toList_repr, Nat.ofDigitChars_ten_toDigits] at hdigits
      omega
    . intro h
      rw [h, Int.toNat_natCast]
  . next hneg =>
    constructor
    . intro h
      have hminus : '-' ∈ n.repr.toList := by
        rw [← h]
        simp
      rw [Nat.toList_repr] at hminus
      exact absurd (Nat.isDigit_of_mem_toDigits (by decide) (by decide) hminus) (by decide)
    . omega

theorem advertisesBoundPort_iff {bind : UInt16 → UInt16} (sha256 : String → String) (ip : String)
    (port : UInt32) (hbind : ∀ p, p ≠ 0 → bind p = p) (hephemeral : bind 0 ≠ 0) :
    (init sha256 ip port).AdvertisesBoundPort bind
      ↔
    port.toNat % 2 ^ 16 ≠ 0 ∧ port.toNat % 2 ^ 16 < 2 ^ 15 := by
  have htoNat : port.toUInt16.toNat = port.toNat % 2 ^ 16 := UInt32.toNat_toUInt16 port
  have hport : (init sha256 ip port).AdvertisesBoundPort bind
      ↔ port.toUInt16.toInt16.toInt = ((bind port.toUInt16).toNat : Int) := by
    rw [AdvertisesBoundPort, init_self_port, init_run, Nat.toString_eq_repr, repr_eq_repr_iff]
  have hlt := port.toUInt16.toNat_lt
  rw [hport, toInt_toInt16, ← htoNat]
  by_cases hzero : port.toUInt16 = 0
  . have : (bind 0).toNat ≠ 0 := by
      intro h
      exact hephemeral (UInt16.toNat_inj.mp h)
    simp [hzero]
    omega
  . have : port.toUInt16.toNat ≠ 0 := by
      intro h
      exact hzero (UInt16.toNat_inj.mp h)
    rw [hbind _ hzero]
    split
    . simp
      omega
    . simp
      omega

/--
Linux takes the local port of a socket that was bound to port 0 from the range that starts at 32768.
-/
def bindEphemeral (port : UInt16) : UInt16 :=
  if port = 0 then 32768 else port

theorem advertisesBoundPort_1337 :
    (init id "10.0.0.1" 1337).AdvertisesBoundPort bindEphemeral
      ↔
    (1337 : UInt32).toNat % 2 ^ 16 ≠ 0 ∧ (1337 : UInt32).toNat % 2 ^ 16 < 2 ^ 15 := by
  apply advertisesBoundPort_iff
  . intro p hp
    simp [bindEphemeral, hp]
  . decide

/--
The server listens on port 40000 and the others are told "-25536".
-/
theorem not_advertisesBoundPort_40000 :
    ¬ (init id "10.0.0.1" 40000).AdvertisesBoundPort bindEphemeral := by
  unfold AdvertisesBoundPort
  decide

end PeerPaste

end Peerpaste
