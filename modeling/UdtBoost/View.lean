import UdtBoost.Reasm
import UdtBoost.Trace

/-! The part of an endpoint that the protocol's properties speak about, and the steps it
can take. A step is labelled where a property needs a condition on it; everything the
code does besides these steps leaves the view alone. -/
namespace UdtBoost

/-- The retransmission flags of queued packets are bookkeeping of the sender's timing. -/
def UdtPacket.unflagged (p : UdtPacket) : UdtPacket := { p with hdr.flags := 0 }

def UdtBuf.unflagged (b : UdtBuf) : UdtBuf := { b with pkts := b.pkts.map UdtPacket.unflagged }

structure Core where
  nextLayer : Bool
  state : TcpState
  force : Bool
  sentfin : Bool
  packetConsumed : Bool
  iss : Word
  sndUna : Word
  sndNxt : Word
  sndMax : Word
  irs : Word
  rcvNxt : Word
  rcvAdv : Word
  lastError : UdtError
  sendOps : List SendOperation
  pendingData : Word
  sndBuf : UdtBuf
  recvOps : List RecvOperation
  rcvBuf : UdtRcvBuf
  rcvPkt : Option Nat
  nextBuffer : Nat

def Conn.core (c : Conn) : Core where
  nextLayer := c.sk.nextLayer
  state := c.cb.state
  force := c.cb.force
  sentfin := c.cb.flags.sentfin
  packetConsumed := c.cb.flags.packetConsumed
  iss := c.cb.iss
  sndUna := c.cb.sndUna
  sndNxt := c.cb.sndNxt
  sndMax := c.cb.sndMax
  irs := c.cb.irs
  rcvNxt := c.cb.rcvNxt
  rcvAdv := c.cb.rcvAdv
  lastError := c.cb.lastError
  sendOps := c.sk.sendOps
  pendingData := c.sk.pendingData
  sndBuf := c.sk.sndBuf.unflagged
  recvOps := c.sk.recvOps
  rcvBuf := c.sk.rcvBuf
  rcvPkt := c.sk.rcvPkt
  nextBuffer := c.sk.nextBuffer

structure View extends Core where
  wire : List Datagram
  posted : List Completion
  sent : List Transmission
  calls : List OutputCall
  synAccepted : List Word
  connected : Bool
  finHandled : Bool

def Endpoint.view (s : Endpoint) : View where
  toCore := s.toConn.core
  wire := s.wire
  posted := s.posted
  sent := s.sent
  calls := s.calls
  synAccepted := s.synAccepted
  connected := s.connected
  finHandled := s.finHandled

namespace Core

def outputFlags (c : Core) (endSeq : Word) : UChar :=
  if seqLt endSeq (c.sndBuf.seq + c.pendingData) then c.state.outflags &&& ~~~UdtHdr.TH_FIN
  else c.state.outflags

/-- Only the FIN is ever held back. -/
theorem outputFlags_syn (c : Core) (endSeq : Word) :
    hasSyn (c.outputFlags endSeq) = hasSyn c.state.outflags := by
  unfold outputFlags
  split
  · cases c.state <;> rfl
  · rfl

theorem outputFlags_ack (c : Core) (endSeq : Word) :
    hasAck (c.outputFlags endSeq) = hasAck c.state.outflags := by
  unfold outputFlags
  split
  · cases c.state <;> rfl
  · rfl

/-- Where a segment starts: a SYN at the initial number, a FIN sent before at its old one. -/
def rewound (c : Core) (flags : UChar) (nxt : Word) : Word :=
  let n := if hasSyn flags then c.iss else nxt
  if hasFin flags ∧ c.sentfin ∧ n = c.sndMax then n - 1 else n

end Core

/-- How far a FIN moves the end of a packet. -/
def finLen (flags : UChar) : Word := if hasFin flags then 1 else 0

/-- The later of two sequence numbers, the second one unless the first is above it. -/
def seqMax (new old : Word) : Word := if seqGt new old then new else old

/-- A window probe of the persist timer is being forced out. -/
def Conn.probing (c : Conn) : Bool := c.cb.force && c.cb.tPersist != 0

theorem Conn.not_probing_iff (c : Conn) :
    c.probing = false ↔ c.cb.force = false ∨ c.cb.tPersist = 0 := by
  cases force : c.cb.force <;> simp [Conn.probing, force]

namespace Transmission

def hdr (t : Transmission) : UdtHdr := t.dgram.hdr.ntoh

def forced (t : Transmission) : Bool := t.before.probing

/-- `rcv_win` before the clamps. -/
def rawRcvWin (t : Transmission) : Word :=
  if t.hdr.len ≠ 0 then t.staleRcvWin else t.before.sk.rcvBuf.acc

def rcvWin (t : Transmission) : Word := t.before.clampRcvWin t.rawRcvWin

/-- The sequence number after everything the segment occupies. -/
def endSeq (t : Transmission) : Word :=
  t.hdr.seq + t.hdr.len.setWidth 32 + synLen t.hdr.flags + finLen t.hdr.flags

end Transmission

/-- One transmission of `output` in the core `c`, after its packet was chosen and `m_snd_nxt`
moved to `nxt`; `c'` is the core afterwards. -/
structure Sends (c : Core) (pkt : Option UdtPacket) (nxt : Word) (t : Transmission)
    (c' : Core) : Prop where
  before : t.before.core = c
  flags : t.hdr.flags = c.outputFlags (nxt + Conn.pktLen pkt)
  len : t.hdr.len.setWidth 32 = Conn.pktLen pkt
  seq : t.hdr.seq = c.rewound t.hdr.flags nxt ∨
    (t.hdr.len = 0 ∧ hasSyn t.hdr.flags = false ∧ hasFin t.hdr.flags = false ∧
      t.hdr.seq = c.sndMax)
  ack : t.hdr.ack = c.rcvNxt
  win : t.hdr.win = t.rcvWin.setWidth 16
  body : ∃ opts, t.dgram.body = opts ++ (pkt.map UdtPacket.data).getD [] ∧
    t.hdr.off = BitVec.ofNat 16 (UdtHdr.size + opts.length) ∧
    opts = if hasAck t.hdr.flags then t.before.composeOptions (UdtHdr.MAX_HEADER_SIZE - UdtHdr.size)
      else []
  moved : c' = { c with
    sndNxt := if t.forced then c.rewound t.hdr.flags nxt else
      c.rewound t.hdr.flags nxt + synLen t.hdr.flags + finLen t.hdr.flags + Conn.pktLen pkt
    sndMax := seqMax (if t.forced then c.rewound t.hdr.flags nxt + Conn.pktLen pkt else
      c.rewound t.hdr.flags nxt + synLen t.hdr.flags + finLen t.hdr.flags + Conn.pktLen pkt) c.sndMax
    sentfin := c.sentfin || (!t.forced && hasFin t.hdr.flags)
    rcvAdv := if 0 < t.rcvWin.toInt then seqMax (c.rcvNxt + t.rcvWin) c.rcvAdv else c.rcvAdv }

/-- The packet `get_snd_pkt` looks for: unflagged and not before `m_snd_nxt`. -/
def isCandidate (nxt : Word) (p : UdtPacket) : Bool :=
  decide (seqGe p.hdr.seq nxt) && !hasRexmt p.hdr.flags

namespace Conn

/-- The first candidate of `get_snd_pkt`, whether or not it fits. -/
def candidate (c : Conn) : Option UdtPacket := c.sk.sndBuf.pkts.find? (isCandidate c.cb.sndNxt)

/-- What a pass may send. -/
def room (c : Conn) : Word := c.outputForce c.canSendBytes

end Conn

namespace Endpoint

/-- `p` is the first candidate and fits; `q` is the packet as it is sent. -/
structure Selected (s : Endpoint) (len : Word) (pkts : List UdtPacket) (p q : UdtPacket) : Prop where
  first : pkts.find? (isCandidate s.cb.sndNxt) = some p
  fits : p.hdr.len.setWidth 32 ≤ len
  copy : q = p ∨ q = { p with hdr.flags := p.hdr.flags ||| UdtHdr.TH_RETRANS }

/-- What a pass sends in the state `s`: the first candidate when the window has room for a
segment, else nothing, and in a closed window from `m_snd_una` on. -/
inductive Choice (s : Endpoint) : Option UdtPacket → Word → Prop
  | nothing (unfit : s.cb.maxseg.toNat ≤ s.room.toInt →
      ∀ p, s.candidate = some p → ¬ p.hdr.len.setWidth 32 ≤ s.room) : Choice s none s.cb.sndNxt
  | closedWindow (closed : s.room.toInt < s.cb.maxseg.toNat) : Choice s none s.cb.sndUna
  | packet {p q : UdtPacket} (open_ : s.cb.maxseg.toNat ≤ s.room.toInt)
      (selected : s.Selected s.room s.sk.sndBuf.pkts p q) : Choice s (some q) p.hdr.seq

end Endpoint

/-- A transmission some pass of `output` makes. -/
def Transmission.Real (t : Transmission) : Prop :=
  ∃ (s : Endpoint) (pkt : Option UdtPacket) (nxt : Word) (c' : Core), t.before = s.toConn ∧
    Endpoint.Choice s pkt nxt ∧ Sends s.toConn.core pkt nxt t c'

/-- A record of one call of `output`. -/
def OutputCall.Real (k : OutputCall) : Prop :=
  ∃ s : Endpoint, s.cb.state ≠ .closed ∧ k.before = s.toConn ∧
    k.sent = (s.outputIdle.outputLoop Endpoint.sendPacketsClamp).1 ∧
    k.after = (s.outputIdle.outputLoop Endpoint.sendPacketsClamp).2.toConn

namespace UdtBuf

/-- Whole operations appended one after the other. -/
def appendOps (segSize : Nat) : List SendOperation → UdtBuf → Option UdtBuf
  | [], b => some b
  | op :: ops, b => (b.appendData op.buf.data segSize).bind (appendOps segSize ops)

/-- A run of packets taken from the front. -/
def dropFront (b : UdtBuf) (dropped rest : List UdtPacket) : UdtBuf :=
  { b with cc := b.cc - BitVec.ofNat 32 (totalLen dropped), pkts := rest }

end UdtBuf

/-- Bytes the user's stream gained with a completion. -/
def Completion.sentBytes : Completion → List UChar
  | .sent op _ n => (op.buf.data.getD []).take n
  | _ => []

def Completion.isReceived : Completion → Bool
  | .received .. => true
  | _ => false

namespace TcpState

/-- What `update_ack_state` makes of a state when everything is acknowledged. -/
def acked (sentfin : Bool) : TcpState → TcpState
  | .synSent => .synReceived
  | .synReceived => .established
  | .finWait1 => if sentfin then .finWait2 else .finWait1
  | .closing => if sentfin then .timeWait else .closing
  | .lastAck => if sentfin then .closed else .lastAck
  | other => other

/-- What `handle_fin` makes of a state. -/
def finned : TcpState → TcpState
  | .established | .closeWait => .closeWait
  | .finWait1 | .closing => .closing
  | .finWait2 | .timeWait => .timeWait
  | other => other

def haveRcvdFin (state : TcpState) : Bool :=
  state == .closeWait || state == .timeWait || state == .closing

end TcpState

/-- Labels of the steps that properties put conditions on. -/
inductive Act where
  | tau
  | force (on : Bool)
  | send (op : SendOperation)
  | connect
  | accept
  | shutdown
  | sndLimit (v : Word)
  | rcvLimit (v : Word)
  | close
  | restore (nxt : Word)
  | syn (p : UdtPacket)
  | store (p : UdtPacket)
  | ackAll (p : UdtPacket)
  | ack (p : UdtPacket)
  | sack (p : UdtPacket) (block : PairSeq)
  | rewrite (p : UdtPacket) (mem : List UChar)
  | fin

inductive Step : View → Act → View → Prop
  | consume {v} {ops rest b segSize} (queue : v.sendOps = ops ++ rest)
      (small : segSize < 2 ^ 16) (appended : v.sndBuf.appendOps segSize ops = some b) :
      Step v .tau { v with
        sndBuf := b
        sendOps := rest
        pendingData := v.pendingData - BitVec.ofNat 32 (ops.map (·.buf.size)).sum
        posted := v.posted ++ ops.map fun op => .sent op .succeed op.buf.size }
  | rewind {v} : Step v .tau { v with sndNxt := v.sndUna }
  | skip {v} {p} (queued : p ∈ v.sndBuf.pkts) (later : seqGe p.hdr.seq v.sndNxt)
      (noSyn : hasSyn v.state.outflags = false) : Step v .tau { v with sndNxt := p.hdr.seq }
  | transmit {v c'} {pkt nxt t}
      (chosen : pkt = none ∧ (nxt = v.sndNxt ∨ nxt = v.sndUna) ∨
        ∃ p : UdtPacket, pkt = some p ∧ nxt = p.hdr.seq ∧ seqGe p.hdr.seq v.sndNxt ∧
          p.unflagged ∈ v.sndBuf.pkts)
      (alive : v.state ≠ .closed) (sends : Sends v.toCore pkt nxt t c') (real : t.Real) :
      Step v .tau { v with toCore := c', wire := v.wire ++ [t.dgram], sent := v.sent ++ [t] }
  | record {v k} (real : OutputCall.Real k) (logged : ∀ t ∈ k.sent, t ∈ v.sent) : Step v .tau { v with calls := v.calls ++ [k] }
  | force {v on} : Step v (.force on) { v with force := on }
  | restore {v nxt} : Step v (.restore nxt) { v with sndNxt := nxt }
  | ack {v p dropped rest} (above : seqGt p.hdr.ack v.sndUna) (sent : seqLe p.hdr.ack v.sndMax)
      (split : v.sndBuf.pkts = dropped ++ rest)
      (below : ∀ q ∈ dropped, seqLt q.hdr.seq p.hdr.ack)
      (kept : ∀ q, rest.head? = some q → seqGe q.hdr.seq p.hdr.ack) :
      Step v (.ack p) { v with
        sndBuf := v.sndBuf.dropFront dropped rest
        sndUna := p.hdr.ack
        sndNxt := if seqLt v.sndNxt p.hdr.ack then p.hdr.ack else v.sndNxt }
  | sack {v p q block front back} (split : v.sndBuf.pkts = front ++ q :: back)
      (start : seqGe q.hdr.seq block.1) (stop : seqLe q.endSeq block.2) :
      Step v (.sack p block) { v with sndBuf := v.sndBuf.drop front q back }
  | ackAll {v p c} (all : v.sndMax = p.hdr.ack)
      (silent : ∀ x ∈ c, x.sentBytes = [] ∧ x.isReceived = false) :
      Step v (.ackAll p) { v with
        state := v.state.acked v.sentfin
        connected := v.connected || v.state == .synReceived
        sndBuf := if v.nextLayer ∧ v.state = .synReceived then v.sndBuf.setInitSeq v.sndNxt
          else v.sndBuf
        posted := v.posted ++ c }
  | syn {v p} (state : v.state = .listen ∨ v.state = .synSent ∨ v.state = .synReceived) :
      Step v (.syn p) { v with
        iss := if v.state = .listen then sIss else v.iss
        sndUna := if v.state = .listen then sIss else v.sndUna
        sndNxt := if v.state = .listen then sIss else v.sndNxt
        sndMax := if v.state = .listen then sIss else v.sndMax
        irs := p.hdr.seq + 1
        rcvNxt := p.hdr.seq + 1
        rcvAdv := p.hdr.seq + 1
        state := .synReceived
        synAccepted := v.synAccepted ++ [p.hdr.seq] }
  | store {v p below above run kept} (queue : v.rcvBuf.reasmPkts = below ++ above)
      (before : ∀ x ∈ below, seqLt x.hdr.seq p.hdr.seq)
      (after : ∀ x, above.head? = some x → ¬ seqLt x.hdr.seq p.hdr.seq ∧ x.hdr.seq ≠ p.hdr.seq)
      (split : below ++ p :: above = run ++ kept) (contiguous : Contiguous v.rcvNxt run)
      (room : totalLen run ≤ v.rcvBuf.acc.toNat)
      (stuck : ∀ x, kept.head? = some x → x.hdr.seq = v.rcvNxt + BitVec.ofNat 32 (totalLen run) →
        (v.rcvBuf.take run kept).acc.toNat < x.hdr.len.toNat) :
      Step v (.store p) { v with
        rcvBuf := v.rcvBuf.take run kept
        rcvNxt := v.rcvNxt + BitVec.ofNat 32 (totalLen run)
        packetConsumed := true }
  | alloc {v} (none : v.rcvPkt = none) :
      Step v .tau { v with rcvPkt := some v.nextBuffer, nextBuffer := v.nextBuffer + 1 }
  | release {v} : Step v .tau { v with rcvPkt := none }
  | kept {v} : Step v .tau { v with rcvPkt := none, packetConsumed := false }
  | rewrite {v p mem} : Step v (.rewrite p mem) { v with
      rcvBuf.pkts := v.rcvBuf.pkts.map fun q => if q.buffer = p.buffer then { q with mem } else q
      rcvBuf.reasmPkts :=
        v.rcvBuf.reasmPkts.map fun q => if q.buffer = p.buffer then { q with mem } else q }
  | fin {v} : Step v .fin { v with
      finHandled := true
      rcvNxt := if v.state.haveRcvdFin then v.rcvNxt else v.rcvNxt + 1
      lastError := if v.state.haveRcvdFin then v.lastError else .eof
      state := v.state.finned }
  | dispatch {v op} : Step v .tau { v with
      rcvBuf.toUdtBuf := (v.rcvBuf.toUdtBuf.copy op.buf.size.toNat true).2
      posted := v.posted ++
        [.received op v.lastError (v.rcvBuf.toUdtBuf.copy op.buf.size.toNat true).1] }
  | discard {v n} (none : (v.rcvBuf.toUdtBuf.copy n true).1 = []) : Step v .tau { v with
      rcvBuf.toUdtBuf := (v.rcvBuf.toUdtBuf.copy n true).2 }
  | recvOps {v ops} : Step v .tau { v with recvOps := ops }
  | refuseReceive {v op} : Step v .tau { v with posted := v.posted ++ [.received op v.lastError []] }
  | post {v c} (silent : c.sentBytes = [] ∧ c.isReceived = false) :
      Step v .tau { v with posted := v.posted ++ [c] }
  | error {v e} : Step v .tau { v with lastError := e }
  | closed {v} : Step v .tau { v with state := .closed }
  | reset {v win pseq} : Step v .tau { v with wire := v.wire ++ [⟨(UdtHdr.mk 0 UdtHdr.TH_RST win 0
      (BitVec.ofNat 16 UdtHdr.size) v.sndNxt v.rcvNxt pseq).hton, []⟩] }
  | keepalive {v win pseq} : Step v .tau { v with wire := v.wire ++ [⟨(UdtHdr.mk 0 UdtHdr.TH_ACK win 0
      (BitVec.ofNat 16 UdtHdr.size) (v.sndUna - 1) v.rcvNxt pseq).hton, []⟩] }
  | cancel {v} : Step v .tau { v with sendOps := [], recvOps := [], pendingData := 0 }
  | send {v op} (fine : v.lastError = .succeed) (some_ : op.buf.data ≠ none) :
      Step v (.send op) { v with
        sendOps := v.sendOps ++ [op]
        pendingData := v.pendingData + BitVec.ofNat 32 op.buf.size }
  | connect {v} (state : v.state = .closed) : Step v .connect { v with
      state := .synSent, iss := sIss, sndUna := sIss, sndNxt := sIss, sndMax := sIss }
  | accept {v} (state : v.state = .closed) : Step v .accept { v with state := .listen }
  | shutdown {v} : Step v .shutdown { v with
      state := if v.state = .established then .finWait1
        else if v.state = .closeWait then .lastAck else v.state }
  | sndLimit {v w} : Step v (.sndLimit w) { v with sndBuf := v.sndBuf.setHiwat w }
  | rcvLimit {v w} : Step v (.rcvLimit w)
      { v with rcvBuf.toUdtBuf := v.rcvBuf.toUdtBuf.setHiwat w }
  | close {v} : Step v .close { v with
      nextLayer := false, state := .closed, sndBuf := v.sndBuf.clear, rcvBuf := v.rcvBuf.clear }

abbrev ViewPath := Trace.Path Step

/-- The condition under which only unlabelled steps are taken. -/
def OnlyTau (_ : View) (a : Act) : Prop := a = .tau

/-- A path of unlabelled steps meets every condition that never restricts them. -/
theorem ViewPath.of_tau {C : View → Act → Prop} {v w : View} (path : ViewPath OnlyTau v w)
    (free : ∀ v, C v .tau) : ViewPath C v w :=
  path.mono fun v a tau => by rw [show a = .tau from tau]; exact free v

theorem Step.path {v w : View} (step : Step v .tau w) : ViewPath OnlyTau v w :=
  .single rfl step

end UdtBoost
