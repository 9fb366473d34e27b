import UdtBoost.Socket

/-! `udt_cb_input.cpp` and `xmit_timer` of `udt_sub.cpp`: what one received packet does. -/
namespace UdtBoost

namespace Conn

/-- The window `drop_out_of_rcv_wnd_packet` tests against. -/
def rcvWindow (c : Conn) : Word :=
  let win := if c.sk.rcvBuf.acc.toInt < 0 then 0 else c.sk.rcvBuf.acc
  if win.toInt < (c.cb.rcvAdv - c.cb.rcvNxt).toInt then c.cb.rcvAdv - c.cb.rcvNxt else win

/-- The two tests of `drop_out_of_rcv_wnd_packet`, with `m_rcv_wnd` set. -/
def outOfRcvWnd (c : Conn) (ti : UdtHdr) : Bool :=
  let todrop := c.cb.rcvNxt - ti.seq
  let todrop := if hasSyn ti.flags then todrop - 1 else todrop
  0 < todrop.toInt || 0 < ((ti.seq + ti.len.setWidth 32) - (c.cb.rcvNxt + c.cb.rcvWnd)).toInt

end Conn

namespace Endpoint

/-- `xmit_timer`: a round-trip sample, smoothed in 16-bit fixed point. -/
def xmitTimer (s : Endpoint) (rtt : Half) : Endpoint :=
  let cb := s.cb
  let cb :=
    if cb.srtt ≠ 0 then
      let delta := rtt - 1 - cb.srtt.sshiftRight TCP_RTT_SHIFT
      let srtt := if (cb.srtt + delta).toInt ≤ 0 then 1 else cb.srtt + delta
      let delta := if delta.toInt < 0 then -delta else delta
      let delta := delta - cb.rttvar.sshiftRight TCP_RTTVAR_SHIFT
      let rttvar := if (cb.rttvar + delta).toInt ≤ 0 then 1 else cb.rttvar + delta
      { cb with srtt, rttvar }
    else { cb with srtt := rtt <<< TCP_RTT_SHIFT, rttvar := rtt <<< (TCP_RTTVAR_SHIFT - 1) }
  let cb := { cb with rtt := 0, rxtshift := 0 }
  { s with
    cb := { cb with rxtcur := cb.rexmtTimerValue }
    backoffRead := s.backoffRead ++ [cb.rxtshift] }

def updateRtt (s : Endpoint) (ack : Word) : Endpoint :=
  if s.cb.rtt ≠ 0 ∧ ack = s.cb.rtseq then s.xmitTimer s.cb.rtt else s

/-- `drop_snd_pkt` at the iterator between `before` and `after`. -/
def dropSndPkt (s : Endpoint) (before : List UdtPacket) (p : UdtPacket)
    (after : List UdtPacket) : Endpoint :=
  let s := { s with dropped := s.dropped ++ [(s.cb.retransData, p)] }
  let s :=
    if hasRexmt p.hdr.flags then
      { s with cb.retransData := s.cb.retransData - p.hdr.len.setWidth 32 }
    else s
  { s with sk.sndBuf := s.sk.sndBuf.drop before p after }

def dropAckedLoop (s : Endpoint) (ack : Word) : List UdtPacket → Endpoint
  | [] => s
  | p :: rest => if seqGe p.hdr.seq ack then s else dropAckedLoop (s.dropSndPkt [] p rest) ack rest

def dropAckedData (s : Endpoint) (ack : Word) : Endpoint :=
  let s := s.dropAckedLoop ack s.sk.sndBuf.pkts
  { s with cb := s.cb.updateSndUna ack }

/-- `merge_reasm_pkts`: the leading run of the queue that starts at `m_rcv_nxt`. -/
def mergeLoop (s : Endpoint) : List UdtPacket → Endpoint
  | [] => { s with sk.rcvBuf.reasmPkts := [] }
  | p :: rest =>
      if p.hdr.seq = s.cb.rcvNxt then
        match s.sk.rcvBuf.append p with
        | some rb =>
            mergeLoop
              { s with sk.rcvBuf := rb, cb.rcvNxt := s.cb.rcvNxt + p.hdr.len.setWidth 32 } rest
        | none => { s with sk.rcvBuf.reasmPkts := p :: rest }
      else { s with sk.rcvBuf.reasmPkts := p :: rest }

def mergeReasmPkts (s : Endpoint) : Endpoint :=
  let oldRcvNxt := s.cb.rcvNxt
  let s := s.mergeLoop s.sk.rcvBuf.reasmPkts
  if oldRcvNxt ≠ s.cb.rcvNxt then { s with cb.flags.notifyRead := true } else s

/-- The insertion of `tcp_reass` into the queue; `none` for a duplicate start. -/
def insertReasm (pkt : UdtPacket) : List UdtPacket → Option (List UdtPacket)
  | [] => some [pkt]
  | p :: rest =>
      if seqLt p.hdr.seq pkt.hdr.seq then (insertReasm pkt rest).map (p :: ·)
      else if p.hdr.seq = pkt.hdr.seq then none
      else some (pkt :: p :: rest)

def tcpReass (s : Endpoint) (pkt : UdtPacket) : Endpoint :=
  match insertReasm pkt s.sk.rcvBuf.reasmPkts with
  | none => s
  | some q =>
      { s with sk.rcvBuf.reasmPkts := q, cb.flags.packetConsumed := true }.mergeReasmPkts

def TCP_REASS (s : Endpoint) (pkt : UdtPacket) : Endpoint :=
  if pkt.hdr.seq = s.cb.rcvNxt ∧ s.sk.rcvBuf.reasmPkts = [] then
    match s.sk.rcvBuf.append pkt with
    | some rb =>
        { s with
          sk.rcvBuf := rb
          cb.rcvNxt := s.cb.rcvNxt + pkt.hdr.len.setWidth 32
          cb.flags.delack := true
          cb.flags.packetConsumed := true
          cb.flags.notifyRead := s.cb.flags.notifyRead || pkt.hdr.len != 0 }
    | none => s
  else
    let s := s.tcpReass pkt
    { s with cb.flags.acknow := true }

/-- Data is left in `snd_buf`: send on. -/
def outputData (s : Endpoint) : Endpoint := if s.sk.sndBuf.cc ≠ 0 then s.output else s

/-- `do_header_prediction`: whether the fast path took the packet. -/
def doHeaderPrediction (s : Endpoint) (pkt : UdtPacket) : Bool × Endpoint :=
  let ti := pkt.hdr
  let tiwin : Word := ti.win.setWidth 32
  if s.cb.state = .established ∧
      ti.flags &&& (UdtHdr.TH_SYN ||| UdtHdr.TH_FIN ||| UdtHdr.TH_RST ||| UdtHdr.TH_ACK) =
        UdtHdr.TH_ACK ∧
      ti.seq = s.cb.rcvNxt ∧ tiwin ≠ 0 ∧ tiwin = s.cb.sndWnd ∧ s.cb.sndNxt = s.cb.sndMax then
    if ti.len = 0 then
      if seqGt ti.ack s.cb.sndUna ∧ seqLe ti.ack s.cb.sndMax ∧ s.cb.isCwndFullOpen then
        -- a pure ack for outstanding data
        let s := s.dropAckedData ti.ack
        (true, { s with cb := { s.cb.resetRexmtTimer with flags.notifyWrite := true } }.outputData)
      else (false, s)
    else if ti.ack = s.cb.sndUna ∧ s.sk.rcvBuf.reasmPkts = [] ∧
        ti.len.toNat ≤ s.sk.rcvBuf.acc.toNat then
      -- a pure, in-sequence data packet with room for it
      match s.sk.rcvBuf.append pkt with
      | some rb =>
          (true,
            { s with
              sk.rcvBuf := rb
              cb.rcvNxt := s.cb.rcvNxt + ti.len.setWidth 32
              cb.flags.delack := true
              cb.flags.notifyRead := true
              cb.flags.packetConsumed := true })
      | none => (false, { s with cb.flags.acknow := true, cb.flags.notifyRead := true })
    else (false, s)
  else (false, s)

def dropOutOfRcvWndPacket (s : Endpoint) (pkt : UdtPacket) : Bool × Endpoint :=
  let s := { s with cb.rcvWnd := s.rcvWindow }
  if s.outOfRcvWnd pkt.hdr then (true, { s with cb.flags.acknow := true }) else (false, s)

def canFastRexmt (s : Endpoint) : Bool := s.cb.dupacks == sTcprexmtthresh

/-- `handle_syn`: whether the SYN is refused, the packet with its SYN counted, and
the state. -/
def handleSyn (s : Endpoint) (pkt : UdtPacket) : Bool × UdtPacket × Endpoint :=
  let syn := pkt.hdr.seq
  let pkt := { pkt with hdr.seq := pkt.hdr.seq + 1 }
  let ti := pkt.hdr
  let s := { s with cb.flags.acknow := true }
  let s :=
    { s with
      cb.sndWnd := ti.win.setWidth 32, cb.sndWl1 := ti.seq - 1, cb.sndWl2 := ti.ack - 1 }
  let synchronize (s : Endpoint) : Endpoint :=
    let s := { s with cb := { s.cb with irs := ti.seq }.tcpRcvseqinit }
    { s with
      cb.state := .synReceived, cb.tKeep := TCPTV_KEEP_INIT
      synAccepted := s.synAccepted ++ [syn] }
  match s.cb.state with
  | .listen =>
      (false, pkt, synchronize { s with cb := { s.cb with iss := sIss }.tcpSendseqinit })
  | .synSent | .synReceived => (false, pkt, synchronize s)
  | .established => (false, pkt, { s with cb.tKeep := TCPTV_KEEP_INIT })
  | _ => (true, pkt, s)

/-- `handle_packet_lost`: three loss times tell whether losses come faster. -/
def handlePacketLost (s : Endpoint) : Endpoint :=
  let (now, s) := s.getTickCount
  let s :=
    { s with
      cb.tstampFirst := s.cb.tstampSecond, cb.tstampSecond := s.cb.tstampThird
      cb.tstampThird := now }
  if s.cb.isPktLostRateIncr then { s with cb := s.cb.decrSndCwnd } else s

/-- The state `do_fast_rexmt` calls `output` in: back at `ack`, with room for one segment. -/
def beginFastRexmt (s : Endpoint) (ack : Word) : Endpoint :=
  let s := { s with cb.tRexmt := 0, cb.sndNxt := ack }
  { s with cb.sndCwnd := s.cb.bytesInflight + s.cb.maxseg.setWidth 32 }.validateFirstPkt

def doFastRexmt (s : Endpoint) (ack : Word) : Endpoint :=
  let oldNxt := s.cb.sndNxt
  let s := s.handlePacketLost
  let oldSndCwnd := s.cb.sndCwnd
  { (s.beginFastRexmt ack).output with cb.sndCwnd := oldSndCwnd, cb.sndNxt := oldNxt }

/-- The handshake was timed unless a retransmission stopped that. -/
def timeHandshake (s : Endpoint) : Endpoint := if s.cb.rtt ≠ 0 then s.xmitTimer s.cb.rtt else s

/-- Everything acked during the handshake. -/
def ackHandshake (s : Endpoint) : Endpoint :=
  match s.cb.state with
  | .synSent => { s with cb.state := .synReceived, cb.flags.acknow := true }
  | .synReceived => { s with cb.state := .established }.timeHandshake.onConnected
  | _ => s

/-- Our FIN is among what is acked. -/
def ackFin (s : Endpoint) : Endpoint :=
  if s.cb.flags.sentfin then
    match s.cb.state with
    | .finWait1 => { s with cb.state := .finWait2 }
    | .closing =>
        let s := { s with cb := { s.cb with state := .timeWait }.canceltimers }
        { s with cb.t2msl := 2 * TCPTV_MSL, cb.flags.notifyDrop := true }
    | .lastAck => { s with cb.state := .closed, cb.flags.notifyDrop := true }
    | _ => s
  else s

def updateAckState (s : Endpoint) : Endpoint := s.ackHandshake.ackFin

/-- One block of `handle_option_sack` from the shared iterator on. The result is
the iterator's new position: the packets kept before it and those from it on. -/
def sackBlock (s : Endpoint) (beginSeq endSeq : Word) (before : List UdtPacket) :
    List UdtPacket → List UdtPacket × List UdtPacket × Endpoint
  | [] => (before, [], s)
  | p :: after =>
      if seqLt p.hdr.seq beginSeq then sackBlock s beginSeq endSeq (before ++ [p]) after
      else if seqLe p.endSeq endSeq then
        sackBlock (s.dropSndPkt before p after) beginSeq endSeq before after
      else (before, p :: after, s)

/-- The blocks from the last to the first. -/
def sackBlocks (s : Endpoint) (before after : List UdtPacket) : List PairSeq → Endpoint
  | [] => s
  | pr :: rest =>
      let (before, after, s) := s.sackBlock pr.1 pr.2 before after
      sackBlocks s before after rest

/-- `handle_option_sack` for an option of `size` blocks. -/
def handleOptionSack (s : Endpoint) (pairs : List PairSeq) : Endpoint :=
  match pairs with
  | [] => s
  | first :: _ =>
      let s := { s with cb := s.cb.updateSndFack first.2 }
      s.sackBlocks [] s.sk.sndBuf.pkts pairs.reverse

def handleOptionCwnd (s : Endpoint) (cwnd : Word) : Endpoint := { s with cb.pcwnd := cwnd }

/-- The loop of `handle_options`; an iteration consumes two bytes or more, so `fuel`
is the length of the option area. An option that reaches past the receive buffer is
undefined behavior in the source, and the walk ends there. -/
def handleOptionsLoop : Nat → Endpoint → List UChar → Nat → Nat → List UChar × Endpoint
  | 0, s, mem, _, _ => (mem, s)
  | fuel + 1, s, mem, ptr, remainLen =>
      if remainLen < UdtOption.sizeofOption then (mem, s)
      else
        let kind := mem.getD ptr 0
        if kind = UdtOption.TCPOPT_SACK then
          let n := UdtOptionSack.size (mem.getD (ptr + 1) 0)
          let consumed := UdtOption.sizeofOption + UdtOption.sizeofPair * n
          if mem.length < ptr + consumed then (mem, s)
          else
            let mem := UdtOptionSack.ntoh mem ptr n
            let s := s.handleOptionSack ((List.range n).map (UdtOptionSack.pairSeq mem ptr))
            handleOptionsLoop fuel s mem (ptr + consumed) (remainLen - consumed)
        else if kind = UdtOption.TCPOPT_CWND then
          if mem.length < ptr + UdtOption.sizeofCwnd then (mem, s)
          else
            let cwnd := ntohl (load32 mem (ptr + UdtOption.sizeofOption))
            let mem := store32 mem (ptr + UdtOption.sizeofOption) cwnd
            handleOptionsLoop fuel (s.handleOptionCwnd cwnd) mem (ptr + UdtOption.sizeofCwnd)
              (remainLen - UdtOption.sizeofCwnd)
        else if kind = UdtOption.TCPOPT_NOP then
          handleOptionsLoop fuel s mem (ptr + UdtOption.sizeofOption)
            (remainLen - UdtOption.sizeofOption)
        else (mem, s)

/-- The byte swaps of the option walk are made in the packet itself, which may be
queued by now. -/
def rewritePkt (s : Endpoint) (buffer : Nat) (mem : List UChar) : Endpoint :=
  let rewrite (p : UdtPacket) : UdtPacket := if p.buffer = buffer then { p with mem } else p
  { s with
    sk.rcvBuf.pkts := s.sk.rcvBuf.pkts.map rewrite
    sk.rcvBuf.reasmPkts := s.sk.rcvBuf.reasmPkts.map rewrite }

def handleOptions (s : Endpoint) (pkt : UdtPacket) : Endpoint :=
  let remainLen := pkt.hdr.off.toNat - UdtHdr.size
  let (mem, s) := handleOptionsLoop remainLen s pkt.mem 0 remainLen
  s.rewritePkt pkt.buffer mem

/-- `handle_ack` when nothing new is acknowledged: a window update, a late timer, or a
duplicate that may ask for a fast retransmission. -/
def ackDuplicate (s : Endpoint) (ti : UdtHdr) : Bool × Endpoint :=
  let tiwin : Word := ti.win.setWidth 32
  if tiwin ≠ s.cb.sndWnd then
    let s := { s with cb := s.cb.updateSndWnd tiwin }
    let s := { s with cb.flags.needOutput := true }
    (false, { s with cb := s.cb.resetRexmtTimer })
  else
    let s := { s with cb.dupacks := s.cb.dupacks + 1 }
    if s.cb.tRexmt = 0 then
      let s := { s with cb.dupacks := 0 }
      (false, { s with cb := s.cb.resetRexmtTimer })
    else if s.canFastRexmt then (true, { s with cb.rtt := 0 }.doFastRexmt ti.ack)
    else if sTcprexmtthresh.toInt < s.cb.dupacks.toInt then
      (true, { s with cb.flags.needOutput := true })
    else (false, { s with cb := s.cb.resetRexmtTimer })

/-- `handle_ack` when new data is acknowledged. -/
def ackNewData (s : Endpoint) (ti : UdtHdr) : Endpoint :=
  let cb := { s.cb with flags.notifyWrite := true }.incrSndCwnd
  let s := { s with cb := { cb with dupacks := 0 } }.dropAckedData ti.ack
  let cb := s.cb.updateSndWnd (ti.win.setWidth 32)
  { s with cb := { cb with flags.needOutput := true }.resetRexmtTimer }

/-- `handle_ack`: whether the packet needs no further work. -/
def handleAck (s : Endpoint) (pkt : UdtPacket) : Bool × Endpoint :=
  let ti := pkt.hdr
  if seqLt ti.ack s.cb.sndUna then (true, s)
  else if seqGt ti.ack s.cb.sndMax then
    (true,
      { s with
        cb.lastError := .malformedPacket
        cb.flags.notifyDrop := true
        cb.flags.needReset := true })
  else
    -- everything acked, update state now
    let s := if s.cb.sndMax = ti.ack then s.updateAckState else s
    let s := if UdtHdr.size < ti.off.toNat then s.handleOptions pkt else s
    if ti.ack = s.cb.sndUna then s.ackDuplicate ti else (false, s.ackNewData ti)

def handleFin (s : Endpoint) : Endpoint :=
  let s := { s with finHandled := true }
  let s :=
    if !s.cb.TCPS_HAVERCVDFIN then
      { s with
        cb.rcvNxt := s.cb.rcvNxt + 1
        cb.flags.acknow := true
        cb.flags.notifyRead := true
        cb.lastError := .eof }
    else s
  match s.cb.state with
  | .established | .closeWait => { s with cb.state := .closeWait }
  | .finWait1 | .closing => { s with cb.state := .closing }
  | .finWait2 | .timeWait =>
      { s with cb.state := .timeWait, cb.t2msl := 2 * TCPTV_MSL, cb.flags.notifyDrop := true }
  | _ => s

def commitOutput (s : Endpoint) : Endpoint :=
  if s.cb.flags.acknow || s.cb.flags.needOutput then s.output else s

def commitReset (s : Endpoint) : Endpoint :=
  if s.cb.flags.needReset then { s.resetPeer with cb.flags.needReset := false } else s

/-- `on_readable` waits for `lowat` bytes, except after a FIN. -/
def notifyReadable (s : Endpoint) : Endpoint :=
  if s.sk.rcvBuf.aboveLowat || s.cb.TCPS_HAVERCVDFIN then s.onReadable else s

def commitRead (s : Endpoint) : Endpoint :=
  if s.cb.flags.notifyRead then { s.notifyReadable with cb.flags.notifyRead := false } else s

def commitWrite (s : Endpoint) : Endpoint :=
  if s.cb.flags.notifyWrite then { s.onWritable with cb.flags.notifyWrite := false } else s

def commitDrop (s : Endpoint) : Endpoint :=
  if s.cb.flags.notifyDrop then { s.drop s.cb.lastError with cb.flags.notifyDrop := false } else s

/-- What the packet has asked for, in this order. -/
def commitNotifies (s : Endpoint) : Endpoint :=
  s.commitOutput.commitReset.commitRead.commitWrite.commitDrop

def pktConsumed (s : Endpoint) : Bool × Endpoint :=
  if s.cb.flags.packetConsumed then (true, { s with cb.flags.packetConsumed := false })
  else (false, s)

/-- From `TCP_REASS` to the end of `input`, before `the_end`. -/
def inputSegment (s : Endpoint) (pkt : UdtPacket) : Endpoint :=
  let ti := pkt.hdr
  let s :=
    if ti.len ≠ 0 ∨ hasFlag ti.flags (UdtHdr.TH_SYN ||| UdtHdr.TH_FIN) then s.TCP_REASS pkt else s
  -- the FIN flag is that of the last packet of rcv_buf, whatever this packet carries
  let fin := s.sk.rcvBuf.fin
  if hasAck ti.flags then
    match s.handleAck pkt with
    | (true, s) => s
    | (false, s) => if fin then s.handleFin else s
  else if fin then s.handleFin
  else s

/-- The tests of `input` between the integrity check and `the_end`. -/
def inputChecked (s : Endpoint) (pkt : UdtPacket) : Endpoint :=
  let ti := pkt.hdr
  let s := { s with cb.pseq := ti.seq, cb.idle := 0, cb.tKeep := sKeepidle }
  let s := s.updateRtt ti.pseq
  if s.cb.state = .closed then
    if !hasRst ti.flags then
      { s with
        cb.lastError := .connectionReset
        cb.flags.notifyDrop := true
        cb.flags.needReset := true }
    else s
  else if hasRst ti.flags then
    { s with cb.lastError := .connectionReset, cb.flags.notifyDrop := true }
  else
    match s.dropOutOfRcvWndPacket pkt with
    | (true, s) => s
    | (false, s) =>
        match s.doHeaderPrediction pkt with
        | (true, s) => s
        | (false, s) =>
            if hasSyn ti.flags then
              match s.handleSyn pkt with
              | (true, _, s) => s
              | (false, pkt, s) => s.inputSegment pkt
            else s.inputSegment pkt

/-- `input`: whether the packet was kept, and the state. The header of `pkt` is in
network order, as received. -/
def input (s : Endpoint) (pkt : UdtPacket) (bytesReceived : Nat) : Bool × Endpoint :=
  if bytesReceived < UdtHdr.size then (false, s)
  else if hasHp pkt.hdr.flags then (false, s)
  else
    let pkt := { pkt with hdr := pkt.hdr.ntoh }
    if pkt.hdr.len.toNat + pkt.hdr.off.toNat ≠ bytesReceived then (false, s)
    else (s.inputChecked pkt).commitNotifies.pktConsumed

end Endpoint

end UdtBoost
