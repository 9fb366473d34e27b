import UdtBoost.Cb

/-! `udt_cb_output.cpp` with the parts of `udt_sub.cpp` and `udt_socket.cpp` it calls.
One pass of `output` from its `again` label to a `return` or to the jump back is
cut at the source's own labels and comments; `output` repeats the pass. -/
namespace UdtBoost

namespace Conn

def canPersist (c : Conn) : Bool :=
  c.sk.totalBufferSize ≠ 0 && c.cb.tPersist == 0 && c.cb.tRexmt == 0

/-- How many bytes can be sent: the network's capacity and the peer's buffer. -/
def canSendBytes (c : Conn) : Word :=
  let room := c.cb.sndCwnd - c.cb.bytesInflight
  let remain := c.cb.remainSndWnd
  let ret := if remain.toInt < room.toInt then remain else room
  if ret.toInt < 0 then 0 else ret

/-- `compose_options`: the bytes written into `remain_len` bytes of option space. -/
def composeOptions (c : Conn) (remainLen : Nat) : List UChar :=
  let cwnd := if UdtOption.sizeofCwnd ≤ remainLen then cwndBytes c.cb.sndCwnd else []
  match (UdtOptionSack.compose c.sk.rcvBuf.reasmPkts.reverse (remainLen - cwnd.length)).1 with
  | some opt => cwnd ++ opt.hton.bytes
  | none => cwnd

/-- In persist state one packet is forced out whatever the window. -/
def outputForce (c : Conn) (canSend : Word) : Word :=
  if c.cb.force ∧ canSend.toInt < c.cb.maxseg.toNat then c.cb.maxseg.setWidth 32 else canSend

def pktLen (pkt : Option UdtPacket) : Word := (pkt.map (·.hdr.len.setWidth 32)).getD 0

/-- The state's flags, without FIN while data is queued behind this segment. -/
def outputFlags (c : Conn) (len : Word) : UChar :=
  let flags := c.cb.state.outflags
  if seqLt (c.cb.sndNxt + len) (c.sk.sndBuf.seq + c.sk.pendingData) then
    flags &&& ~~~UdtHdr.TH_FIN
  else flags

/-- The window grew by two segments, or by half the buffer. -/
def windowUpdateDue (c : Conn) : Bool :=
  let rcvWin := c.sk.rcvBuf.acc
  if 0 < rcvWin.toInt then
    let win := if TCP_MAXWIN.toInt < rcvWin.toInt then TCP_MAXWIN else rcvWin
    let adv := win - (c.cb.rcvAdv - c.cb.rcvNxt)
    2 * c.cb.maxseg.toNat ≤ adv.toInt || c.sk.rcvBuf.hiwat.toInt ≤ (2 * adv).toInt
  else false

/-- The tests between the window update and the `return`: does a segment without
payload go out? -/
def mustSend (c : Conn) (flags : UChar) : Bool :=
  c.windowUpdateDue || c.cb.flags.acknow ||
    hasFlag flags (UdtHdr.TH_SYN ||| UdtHdr.TH_RST) ||
    (hasFin flags && (!c.cb.flags.sentfin || c.cb.sndNxt == c.cb.sndUna))

/-- The sequence number of the header. -/
def outputSeq (c : Conn) (flags : UChar) (len : Word) : Word :=
  if len ≠ 0 ∨ hasFlag flags (UdtHdr.TH_SYN ||| UdtHdr.TH_FIN) ∨ c.cb.tPersist ≠ 0 then c.cb.sndNxt
  else c.cb.sndMax

/-- The receive window: silly window avoidance, the 16-bit limit, and no shrinking. -/
def clampRcvWin (c : Conn) (rcvWin : Word) : Word :=
  let rcvWin :=
    if rcvWin.toInt < (c.sk.rcvBuf.hiwat / 4).toInt ∧ rcvWin.toInt < c.cb.maxseg.toNat then 0
    else rcvWin
  let rcvWin := if TCP_MAXWIN.toInt < rcvWin.toInt then TCP_MAXWIN else rcvWin
  if rcvWin.toInt < (c.cb.rcvAdv - c.cb.rcvNxt).toInt then c.cb.rcvAdv - c.cb.rcvNxt else rcvWin

def outputDatagram (c : Conn) (flags : UChar) (pkt : Option UdtPacket) (rcvWin : Word) :
    Datagram :=
  let opts :=
    if hasAck flags then c.composeOptions (UdtHdr.MAX_HEADER_SIZE - UdtHdr.size) else []
  let ti : UdtHdr :=
    { ver := 0, flags
      win := rcvWin.setWidth 16
      len := (Conn.pktLen pkt).setWidth 16
      off := BitVec.ofNat 16 (UdtHdr.size + opts.length)
      seq := c.outputSeq flags (Conn.pktLen pkt)
      ack := c.cb.rcvNxt
      pseq := c.cb.pseq }
  ⟨ti.hton, opts ++ (pkt.map UdtPacket.data).getD []⟩

end Conn

namespace Endpoint

/-- `consume_pending_data()`: whole operations in order, until one is refused. -/
def consumePendingLoop (s : Endpoint) : List SendOperation → Nat × Endpoint
  | [] => (0, { s with sk.sendOps := [] })
  | op :: rest =>
      match s.sk.sndBuf.appendData op.buf.data s.cb.maxseg.toNat with
      | some sb =>
          let s := { s with sk.sndBuf := sb }.post (.sent op .succeed op.buf.size)
          let (consumed, s) := consumePendingLoop s rest
          (op.buf.size + consumed, s)
      | none => (0, { s with sk.sendOps := op :: rest })

def consumePendingData (s : Endpoint) : Nat × Endpoint :=
  let (consumed, s) := s.consumePendingLoop s.sk.sendOps
  (consumed, { s with sk.pendingData := s.sk.pendingData - BitVec.ofNat 32 consumed })

def enterPersist (s : Endpoint) : Endpoint :=
  let t : Word :=
    ((s.cb.srtt.signExtend 32).sshiftRight 2 + s.cb.rttvar.signExtend 32).sshiftRight 1
  let value : Half := (t * BitVec.ofNat 32 s.cb.backoff).setWidth 16
  let s :=
    { s with
      cb.tPersist := TCPT_RANGESET value TCPTV_PERSMIN TCPTV_PERSMAX
      persistEntered := s.persistEntered ++ [s.cb.tRexmt]
      backoffRead := s.backoffRead ++ [s.cb.rxtshift] }
  if s.cb.rxtshift.toInt < TCP_MAXRXTSHIFT.toInt then
    { s with cb.rxtshift := s.cb.rxtshift + 1 }
  else s

/-- The scan of `get_snd_pkt` from an iterator on. The first unflagged packet at or
after `m_snd_nxt` decides: it is sent when it fits, and nothing is otherwise. -/
def getSndPktLoop (s : Endpoint) (len : Word) (before : List UdtPacket) :
    List UdtPacket → Option UdtPacket × Endpoint
  | [] => (none, s)
  | p :: after =>
      if seqGe p.hdr.seq s.cb.sndNxt ∧ !hasRexmt p.hdr.flags then
        if p.hdr.len.setWidth 32 ≤ len then
          -- below m_snd_max the packet has been sent before: a retransmission
          if seqLt p.hdr.seq s.cb.sndMax then
            let p := { p with hdr.flags := p.hdr.flags ||| UdtHdr.TH_RETRANS }
            (some p,
              { s with
                cb.retransData := s.cb.retransData + p.hdr.len.setWidth 32
                cb.sndNxt := p.hdr.seq
                sk.sndBuf.pkts := before ++ p :: after })
          else (some p, { s with cb.sndNxt := p.hdr.seq })
        else (none, s)
      else getSndPktLoop s len (before ++ [p]) after

def getSndPkt (s : Endpoint) (len : Word) : Option UdtPacket × Endpoint :=
  s.getSndPktLoop len [] s.sk.sndBuf.pkts

def validateFirstPkt (s : Endpoint) : Endpoint :=
  match s.sk.sndBuf.pkts with
  | [] => s
  | p :: rest =>
      let s := { s with validated := s.validated ++ [(s.cb.retransData, p)] }
      let s :=
        if hasRexmt p.hdr.flags then
          { s with cb.retransData := s.cb.retransData - p.hdr.len.setWidth 32 }
        else s
      { s with sk.sndBuf.pkts := { p with hdr.flags := 0 } :: rest }

def respond (s : Endpoint) (ack seq : Word) (flags : UChar) : Endpoint :=
  let ti : UdtHdr :=
    { ver := 0, flags, len := 0, off := BitVec.ofNat 16 UdtHdr.size
      win := s.sk.rcvBuf.acc.setWidth 16, ack, seq, pseq := s.cb.pseq }
  s.udpOutput ⟨ti.hton, []⟩

def resetPeer (s : Endpoint) : Endpoint := s.respond s.cb.rcvNxt s.cb.sndNxt UdtHdr.TH_RST

/-- Idle for a while with nothing unacknowledged: slow start. -/
def outputIdle (s : Endpoint) : Endpoint :=
  if s.cb.sndMax = s.cb.sndUna ∧ s.cb.rxtcur.toInt ≤ s.cb.idle.toInt then
    { s with cb := s.cb.slowStart }
  else s

/-- Drain the user's queue when the window reaches past `m_seq`, or the buffer is low.
The comparison with `m_seq` is a plain unsigned one. -/
def outputConsume (s : Endpoint) (canSend : Word) : Endpoint :=
  if s.sk.pendingData ≠ 0 ∧
      (s.sk.sndBuf.seq < canSend + s.cb.sndNxt ∨ !s.sk.sndBuf.aboveLowat) then
    s.consumePendingData.2
  else s

def outputSelect (s : Endpoint) (canSend : Word) : Option UdtPacket × Endpoint :=
  if s.cb.maxseg.toNat ≤ canSend.toInt then s.getSndPkt canSend
  else if s.cb.sndWnd.toInt < s.cb.maxseg.toNat then
    (none, { s with cb.sndNxt := s.cb.sndUna, cb.tRexmt := 0 })
  else (none, s)

/-- A SYN uses the initial number, a FIN sent before uses its old one. -/
def outputRewind (s : Endpoint) (flags : UChar) : Endpoint :=
  let s := if hasSyn flags then { s with cb.sndNxt := s.cb.iss } else s
  if hasFin flags ∧ s.cb.TCPS_HAVESNDFIN ∧ s.cb.sndNxt = s.cb.sndMax then
    { s with cb.sndNxt := s.cb.sndNxt - 1 }
  else s

/-- `m_snd_nxt` moves over the segment. -/
def advanceNxt (s : Endpoint) (flags : UChar) (len : Word) : Endpoint :=
  let s := if hasSyn flags then { s with cb.sndNxt := s.cb.sndNxt + 1 } else s
  let s :=
    if hasFin flags then { s with cb.sndNxt := s.cb.sndNxt + 1, cb.flags.sentfin := true } else s
  { s with cb.sndNxt := s.cb.sndNxt + len }

/-- A new highest number; the segment is timed when none is. -/
def raiseSndMax (s : Endpoint) (startseq : Word) : Endpoint :=
  if seqGt s.cb.sndNxt s.cb.sndMax then
    let s : Endpoint := { s with cb.sndMax := s.cb.sndNxt }
    if s.cb.rtt = 0 then { s with cb.rtt := 1, cb.rtseq := startseq } else s
  else s

def armRexmt (s : Endpoint) : Endpoint :=
  if s.cb.tRexmt = 0 ∧ s.cb.sndNxt ≠ s.cb.sndUna then
    { s with cb := { s.cb with tRexmt := s.cb.rxtcur }.leavePersist }
  else s

/-- The bookkeeping of a segment; in persist state with force only `m_snd_max` moves. -/
def outputAdvance (s : Endpoint) (flags : UChar) (len : Word) : Endpoint :=
  if s.cb.force = false ∨ s.cb.tPersist = 0 then
    ((s.advanceNxt flags len).raiseSndMax s.cb.sndNxt).armRexmt
  else if seqGt (s.cb.sndNxt + len) s.cb.sndMax then { s with cb.sndMax := s.cb.sndNxt + len }
  else s

/-- Remember the advertised window; any pending ACK has now been sent. -/
def outputSent (s : Endpoint) (rcvWin : Word) : Endpoint :=
  let s :=
    if 0 < rcvWin.toInt ∧ seqGt (s.cb.rcvNxt + rcvWin) s.cb.rcvAdv then
      { s with cb.rcvAdv := s.cb.rcvNxt + rcvWin }
    else s
  { s with cb.flags := { s.cb.flags with acknow := false, delack := false, needOutput := false } }

/-- The code after the `send` label. -/
def outputSend (s : Endpoint) (flags : UChar) (pkt : Option UdtPacket) (rcvWin : Word) :
    Datagram × Endpoint :=
  let s := s.outputRewind flags
  let rcvWin := s.clampRcvWin rcvWin
  let d := s.outputDatagram flags pkt rcvWin
  let s := s.outputAdvance flags (Conn.pktLen pkt)
  (d, (s.udpOutput d).outputSent rcvWin)

/-- One pass: what was sent, whether another pass follows, and the state. -/
def outputPass (s : Endpoint) : Option Transmission × Bool × Endpoint :=
  let canSend := s.canSendBytes
  let s := s.outputConsume canSend
  let sent := Transmission.mk s.toConn (s.env.staleRcvWin 0)
  let canSend := s.outputForce canSend
  let (pkt, s) := s.outputSelect canSend
  let len := Conn.pktLen pkt
  let unforced := pkt.isSome && !s.cb.force
  let s := if unforced then { s with cb := s.cb.leavePersist } else s
  let sendalot := unforced && decide (len.toInt < canSend.toInt)
  let flags := s.outputFlags len
  if len ≠ 0 then
    -- this jump skips the initializer of rcv_win
    let (rcvWin, s) := s.staleRcvWin
    let (d, s) := s.outputSend flags pkt rcvWin
    (some (sent d), sendalot, { s with sent := s.sent ++ [sent d] })
  else if s.mustSend flags then
    let (d, s) := s.outputSend flags pkt s.sk.rcvBuf.acc
    (some (sent d), sendalot, { s with sent := s.sent ++ [sent d] })
  else if s.canPersist then (none, false, { s with cb.rxtshift := 0 }.enterPersist)
  else (none, false, s)

/-- The passes, at most `clamp` of them. -/
def outputLoop : Nat → Endpoint → List Transmission × Endpoint
  | 0, s => ([], s)
  | clamp + 1, s =>
      let (sent, again, s) := s.outputPass
      if again then
        let (more, s) := outputLoop clamp s
        (sent.toList ++ more, s)
      else (sent.toList, s)

/-- `send_packets_clamp`. -/
def sendPacketsClamp : Nat := 10

def output (s : Endpoint) : Endpoint :=
  if s.cb.state = .closed then s
  else
    let (sent, s') := outputLoop sendPacketsClamp s.outputIdle
    { s' with calls := s'.calls ++ [⟨s.toConn, sent, s'.toConn⟩] }

end Endpoint

end UdtBoost
