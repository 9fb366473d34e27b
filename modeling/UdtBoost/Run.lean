import UdtBoost.Timo

/-! Runs of one endpoint: every event its `io_service` or its user can bring about
between two states, in any order. -/
namespace UdtBoost

/-- One event. A packet lies in a receive buffer whose memory may be longer than the
datagram; `bytesReceived` says how much of it the datagram filled. -/
inductive Event where
  | connect (handler : Nat)
  | accept (handler : Nat)
  | packet (hdr : UdtHdr) (mem : List UChar) (bytesReceived : Nat)
  | slowTimo
  | fastTimo
  | send (op : SendOperation)
  | receive (op : RecvOperation)
  | shutdown (handler : Nat)
  | delayTimer (aborted : Bool)
  /-- A receive fails; the library's category and the error's value in it make the code. -/
  | receiveError (value : Int)
  | mtu
  | setKeepalive (on : Bool)
  | setSndBuf (v : Word)
  | setRcvBuf (v : Word)
  | cancel
  | close

/-- A whole datagram, by its header in host order and what follows it. -/
def Event.datagram (ti : UdtHdr) (body : List UChar) : Event :=
  .packet ti.hton body (UdtHdr.size + body.length)

/-- One byte is given to `async_send`. -/
def Event.sendByte (b : UChar) : Event := .send ⟨⟨some [b], by simp⟩, 0⟩

namespace Endpoint

def step (s : Endpoint) : Event → Endpoint
  | .connect h => s.asyncConnect h
  | .accept h => s.asyncAccept h
  | .packet hdr mem n => s.handleReceive hdr mem n
  | .slowTimo => s.slowTimer
  | .fastTimo => s.fastTimer
  | .send op => s.asyncSend op
  | .receive op => s.asyncReceive op
  | .shutdown h => s.asyncShutdown h
  | .delayTimer aborted => s.handleDelayRecvOperation aborted
  | .receiveError value => s.handleReceiveError value
  | .mtu => s.handleMtu
  | .setKeepalive on => s.setKeepalive on
  | .setSndBuf v => s.setSndBuf v
  | .setRcvBuf v => s.setRcvBuf v
  | .cancel => s.cancel
  | .close => s.close

def run (s : Endpoint) (es : List Event) : Endpoint := es.foldl step s

end Endpoint

end UdtBoost
