import UdtBoost.Input

/-! `udt_timo.cpp` and `udt_usrreq.cpp`, and the calls of `udt_socket.cpp` that reach
them: the two periodic timers and the user's requests. -/
namespace UdtBoost

namespace Endpoint

def handleFastTimo (s : Endpoint) : Endpoint :=
  if s.cb.flags.delack then
    { s with cb.flags := { s.cb.flags with delack := false, acknow := true } }.output
  else s

/-- The loop of `clear_snd_buf_flags`, which stops at the first unsent packet. -/
def clearFlagsLoop (sndMax : Word) : List UdtPacket → List UdtPacket
  | [] => []
  | p :: rest =>
      if seqGe p.hdr.seq sndMax then p :: rest
      else { p with hdr.flags := 0 } :: clearFlagsLoop sndMax rest

def clearSndBufFlags (s : Endpoint) : Endpoint :=
  { s with
    sk.sndBuf.pkts := clearFlagsLoop s.cb.sndMax s.sk.sndBuf.pkts
    cb.retransData := 0 }

/-- The timer's next value, and a fresh estimate when the old one has failed too often. -/
def backoffRexmt (s : Endpoint) : Endpoint :=
  let s :=
    { s with
      cb.rxtcur := s.cb.rexmtTimerValue
      backoffRead := s.backoffRead ++ [s.cb.rxtshift] }
  let s := { s with cb.tRexmt := s.cb.rxtcur }
  if TCP_MAXRXTSHIFT.toInt / 4 < s.cb.rxtshift.toInt then
    { s with cb.rttvar := s.cb.rttvar + s.cb.srtt.sshiftRight TCP_RTT_SHIFT, cb.srtt := 0 }
  else s

/-- Everything unacknowledged is to be sent again. -/
def rewindAll (s : Endpoint) : Endpoint :=
  { s with cb.sndNxt := s.cb.sndUna, cb.sndFack := s.cb.sndUna, cb.rtt := 0 }

/-- The retransmission timer went off: back off and send the oldest data again. -/
def rexmtExpired (s : Endpoint) : Endpoint :=
  let s := { s with cb.rxtshift := s.cb.rxtshift + 1 }
  if TCP_MAXRXTSHIFT.toInt < s.cb.rxtshift.toInt then
    { s with cb.rxtshift := TCP_MAXRXTSHIFT }.drop .timedOut
  else s.backoffRexmt.rewindAll.handlePacketLost.clearSndBufFlags.output

/-- The persist timer went off: force a window probe out. -/
def persistExpired (s : Endpoint) : Endpoint :=
  let s := s.enterPersist.validateFirstPkt
  { { s with cb.force := true }.output with cb.force := false }

def keepExpired (s : Endpoint) : Endpoint :=
  if s.cb.state.value < TcpState.established.value then s.drop .timedOut
  else if s.cb.state.value ≤ TcpState.closeWait.value ∧ s.sk.keepalive then
    if sKeepidle.toInt + sMaxidle ≤ s.cb.idle.toInt then s.drop .timedOut
    else
      let s := s.respond s.cb.rcvNxt (s.cb.sndUna - 1) UdtHdr.TH_ACK
      { s with cb.tKeep := sKeepintvl }
  else { s with cb.tKeep := sKeepidle }

def slowRexmt (s : Endpoint) : Endpoint :=
  if s.cb.tRexmt = 0 then s
  else
    let s : Endpoint := { s with cb.tRexmt := s.cb.tRexmt - 1 }
    if s.cb.tRexmt = 0 then s.rexmtExpired else s

def slowPersist (s : Endpoint) : Endpoint :=
  if s.cb.tPersist = 0 then s
  else
    let s : Endpoint := { s with cb.tPersist := s.cb.tPersist - 1 }
    if s.cb.tPersist = 0 then s.persistExpired else s

def slowKeep (s : Endpoint) : Endpoint :=
  if s.cb.tKeep = 0 then s
  else
    let s : Endpoint := { s with cb.tKeep := s.cb.tKeep - 1 }
    if s.cb.tKeep = 0 then s.keepExpired else s

def slow2msl (s : Endpoint) : Endpoint :=
  if s.cb.t2msl = 0 then s
  else
    let s : Endpoint := { s with cb.t2msl := s.cb.t2msl - 1 }
    if s.cb.t2msl = 0 then s.drop .timedOut else s

/-- `handle_slow_timo`: the four timers in index order, then the tick counters. -/
def handleSlowTimo (s : Endpoint) : Endpoint :=
  let s := s.slowRexmt.slowPersist.slowKeep.slow2msl
  { s with
    cb.rtt := if s.cb.rtt ≠ 0 then s.cb.rtt + 1 else s.cb.rtt
    cb.idle := s.cb.idle + 1
    cb.tick := s.cb.tick + 1 }

/-- `udt_cb::connect`. -/
def connect (s : Endpoint) : Endpoint :=
  if s.cb.state ≠ .closed then s
  else
    { s with
      cb := { s.cb with state := .synSent, tKeep := TCPTV_KEEP_INIT, iss := sIss }.tcpSendseqinit
    }.output

/-- `udt_cb::accept`. -/
def accept (s : Endpoint) : Endpoint :=
  if s.cb.state ≠ .closed then s else { s with cb.state := .listen }

/-- `udt_cb::shutdown`. -/
def shutdown (s : Endpoint) : Endpoint :=
  match s.cb.state with
  | .established => { s with cb.state := .finWait1 }.output
  | .closeWait => { s with cb.state := .lastAck }.output
  | _ => s

/-- `do_receive`: `rcv_pkt_` is allocated when null, and given to `async_receive_from` also when a
receive into it is pending. -/
def doReceive (s : Endpoint) : Endpoint :=
  if s.sk.nextLayer then
    match s.sk.rcvPkt with
    | none =>
        { s with
          sk.rcvPkt := some s.sk.nextBuffer
          sk.nextBuffer := s.sk.nextBuffer + 1
          receives := s.receives ++ [s.sk.nextBuffer] }
    | some buffer => { s with receives := s.receives ++ [buffer] }
  else s

def asyncConnect (s : Endpoint) (handler : Nat) : Endpoint :=
  if s.sk.nextLayer then { s with sk.connectHandler := some handler }.doReceive.connect else s

def asyncAccept (s : Endpoint) (handler : Nat) : Endpoint :=
  if s.sk.nextLayer then { s with sk.acceptHandler := some handler }.doReceive.accept else s

def asyncSend (s : Endpoint) (op : SendOperation) : Endpoint :=
  if !s.sk.nextLayer then s
  else if op.buf.size = 0 ∨ op.buf.data = none ∨ s.cb.lastError ≠ .succeed then
    s.post (.sent op s.cb.lastError 0)
  else
    let s :=
      { s with
        sk.sendOps := s.sk.sendOps ++ [op]
        sk.pendingData := s.sk.pendingData + BitVec.ofNat 32 op.buf.size }
    let (consumed, s) := s.consumePendingData
    if consumed ≠ 0 then s.output else s

def asyncReceive (s : Endpoint) (op : RecvOperation) : Endpoint :=
  if !s.sk.nextLayer then s
  else if op.buf.size = 0 ∨ op.buf.isNull ∨ s.cb.lastError ≠ .succeed then
    s.post (.received op s.cb.lastError [])
  else { s with sk.recvOps := s.sk.recvOps ++ [op] }.recvData

def asyncShutdown (s : Endpoint) (handler : Nat) : Endpoint :=
  if s.sk.nextLayer then { s with sk.shutdownHandler := some handler }.shutdown else s

/-- `setsockopt(UDT_SND_BUF)` and `setsockopt(UDT_RCV_BUF)`. -/
def setSndBuf (s : Endpoint) (v : Word) : Endpoint :=
  { s with sk.sndBuf := s.sk.sndBuf.setHiwat v }

def setRcvBuf (s : Endpoint) (v : Word) : Endpoint :=
  { s with sk.rcvBuf.toUdtBuf := s.sk.rcvBuf.toUdtBuf.setHiwat v }

def setKeepalive (s : Endpoint) (on : Bool) : Endpoint := { s with sk.keepalive := on }

/-- `handle_mtu`: the probed value is ignored. -/
def handleMtu (s : Endpoint) : Endpoint :=
  if s.sk.nextLayer then { s with cb := s.cb.setMtu 1006 } else s

/-- `handle_receive` of a datagram from the peer. Its header and memory are those of
`rcv_pkt_`; without a receive pending there is no such completion. -/
def handleReceive (s : Endpoint) (hdr : UdtHdr) (mem : List UChar) (bytesReceived : Nat) :
    Endpoint :=
  if !s.sk.nextLayer then s
  else
    match s.sk.rcvPkt with
    | none => s
    | some buffer =>
        match s.input ⟨hdr, mem, buffer⟩ bytesReceived with
        | (true, s) => { s with sk.rcvPkt := none }.doReceive
        | (false, s) => s.doReceive

/-- `handle_receive` with an error of the UDP socket; receiving stops. -/
def handleReceiveError (s : Endpoint) (value : Int) : Endpoint :=
  if !s.sk.nextLayer then s
  else
    let s := { s with sk.rcvPkt := none }
    if ErrorCode.system value ≠ .udt .operationAborted then s.onDisconnected else s

/-- `handle_receive` compares codes of two categories, so no error of the UDP socket is the one that it
leaves out. -/
theorem handleReceiveError_eq (s : Endpoint) (value : Int) : s.handleReceiveError value =
    if s.sk.nextLayer then { s with sk.rcvPkt := none }.onDisconnected else s := by
  unfold handleReceiveError
  cases s.sk.nextLayer <;> simp

/-- The periodic timers die with the control block. -/
def slowTimer (s : Endpoint) : Endpoint := if s.sk.nextLayer then s.handleSlowTimo else s

def fastTimer (s : Endpoint) : Endpoint := if s.sk.nextLayer then s.handleFastTimo else s

/-- `udt_socket::close`; the control block is gone, and every later event is ignored. -/
def close (s : Endpoint) : Endpoint :=
  if s.sk.nextLayer then
    let s := s.cancel
    { s with
      cb := { s.cb with state := .closed }.canceltimers
      sk := { s.sk with nextLayer := false, sndBuf := s.sk.sndBuf.clear, rcvBuf := s.sk.rcvBuf.clear } }
  else s

end Endpoint

end UdtBoost
