import Peerpaste.Dispatcher.Incomplete
import Peerpaste.Dispatcher.Invariant

/-!
This module contains which messages the handlers can take that a node calls for a request or a
response.
-/

namespace Peerpaste

namespace MessageType

end MessageType

namespace HandlerFunction

end HandlerFunction

namespace MessageObject

variable {sha256 : List UInt8 → String} {node : Node} {storage : StaticStorage} {o : MessageObject}
  {function : HandlerFunction} {response : RequestObject} {transactionId : String} {r : Responded}

end MessageObject

namespace MessageDispatcher

section Request

variable {sha256 : String → String} {d d' : MessageDispatcher} {type : MessageType}
  {request : RequestObject} {ids : Nat → String}

end Request

section Response

variable {sha256 : List UInt8 → String} {d d' : MessageDispatcher} {i k n : Nat} {o : ActiveObject}
  {m : MessageObject} {h : HandlerObject HandlerFunction Address} {response : RequestObject}
  {ids : Nat → String}

end Response

end MessageDispatcher

end Peerpaste
