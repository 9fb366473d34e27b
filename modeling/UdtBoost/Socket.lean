import UdtBoost.Output

/-! `udt_socket.cpp`: dispatch of queued receive operations, the notifications the
control block raises, and the end of a connection. -/
namespace UdtBoost

namespace Endpoint

/-- `dispatch_recv_operation`: whether the operation was completed. -/
def dispatchRecvOperation (s : Endpoint) (op : RecvOperation) : Bool × Endpoint :=
  let (copied, rb) := s.sk.rcvBuf.toUdtBuf.copy op.buf.size.toNat true
  let s := { s with sk.rcvBuf.toUdtBuf := rb }
  if copied ≠ [] ∨ s.cb.lastError ≠ .succeed then
    (true, s.post (.received op s.cb.lastError copied))
  else (false, s)

/-- `delay_recv_operation`: one more wait on `delay_copy_timer_`. -/
def delayRecvOperation (s : Endpoint) : Endpoint :=
  { s with sk.delayWaits := s.sk.delayWaits + 1 }

/-- The loop of `recv_data` over the queue; the flag is `output`. -/
def recvDataLoop (s : Endpoint) : List RecvOperation → Bool × Endpoint
  | [] => (false, { s with sk.recvOps := [] })
  | op :: rest =>
      if s.cb.lastError = .succeed ∧ s.sk.rcvBuf.cc < op.buf.size then
        (false, { s with sk.recvOps := op :: rest }.delayRecvOperation)
      else
        match s.dispatchRecvOperation op with
        | (true, s) => (true, (recvDataLoop s rest).2)
        | (false, s) => (false, { s with sk.recvOps := op :: rest })

def recvData (s : Endpoint) : Endpoint :=
  if s.sk.rcvBuf.cc = 0 ∧ s.cb.lastError = .succeed then s
  else
    let (output, s) := s.recvDataLoop s.sk.recvOps
    if s.cb.lastError = .succeed ∧ output then s.output else s

def onReadable (s : Endpoint) : Endpoint := if s.sk.nextLayer then s.recvData else s

/-- The loop of `handle_delay_recv_operation`. -/
def delayedLoop (s : Endpoint) : List RecvOperation → Endpoint
  | [] => { s with sk.recvOps := [] }
  | op :: rest =>
      match s.dispatchRecvOperation op with
      | (true, s) => delayedLoop s rest
      | (false, s) => { s with sk.recvOps := op :: rest }

/-- `handle_delay_recv_operation`; `aborted` is the timer's error. -/
def handleDelayRecvOperation (s : Endpoint) (aborted : Bool) : Endpoint :=
  if s.sk.delayWaits = 0 then s
  else
    let s := { s with sk.delayWaits := s.sk.delayWaits - 1 }
    if aborted then s else s.delayedLoop s.sk.recvOps

def onWritable (s : Endpoint) : Endpoint :=
  if s.sk.nextLayer then
    let (consumed, s) := s.consumePendingData
    if consumed ≠ 0 then s.output else s
  else s

/-- `on_connected`: complete the handshake's handler and base the stream's numbers. -/
def onConnected (s : Endpoint) : Endpoint :=
  let s := { s with connected := true }
  if s.sk.nextLayer then
    let s :=
      match s.sk.connectHandler, s.sk.acceptHandler with
      | some h, _ => { s with sk.connectHandler := none }.post (.connected h s.cb.lastError)
      | none, some h => { s with sk.acceptHandler := none }.post (.accepted h s.cb.lastError)
      | none, none => s
    { s with sk.sndBuf := s.sk.sndBuf.setInitSeq s.cb.sndNxt }
  else s

/-- `cancel`: everything queued is forgotten, without a completion. -/
def cancel (s : Endpoint) : Endpoint :=
  { s with
    sk.sendOps := [], sk.recvOps := [], sk.acceptHandler := none, sk.connectHandler := none
    sk.shutdownHandler := none, sk.pendingData := 0 }

/-- The connect or accept handler, and the shutdown handler, hear of the end. -/
def postHandlers (s : Endpoint) (e : UdtError) : Endpoint :=
  let s :=
    match s.sk.connectHandler, s.sk.acceptHandler with
    | some h, _ => s.post (.connected h e)
    | none, some h => s.post (.accepted h e)
    | none, none => s
  match s.sk.shutdownHandler with
  | some h => s.post (.shutdown h e)
  | none => s

def onDisconnected (s : Endpoint) : Endpoint :=
  if s.sk.nextLayer then
    let s := s.sk.sendOps.foldl (fun s op => s.post (.sent op .disconnected 0)) s
    let s := (s.recvData.postHandlers .disconnected).cancel
    { s with disconnects := s.disconnects ++ [s.posted] }
  else s

/-- `udt_cb::drop`. -/
def drop (s : Endpoint) (e : UdtError) : Endpoint :=
  let s := if e ≠ .succeed then { s with cb.lastError := e } else s
  let s := s.onDisconnected
  { s with cb.state := .closed }

end Endpoint

end UdtBoost
