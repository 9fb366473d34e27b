import UdtBoost.EventPath

/-! Every event as a path of blocks of code. A block is what the code does between two points
where it branches, loops or calls on; its tag says which kind it is, and for a packet's blocks
which packet. What a block keeps is kept by every event and every run. -/
namespace UdtBoost

/-- Kinds of blocks, as far as a property tells them apart. -/
inductive Tag where
  | inner
  | post
  | cancel
  | disconnect
  | rest
  | fast
  | input
  | sack (p : UdtPacket) (block : PairSeq)
  | syn (p : UdtPacket)
  | store (p : UdtPacket)
  | ackAll (p : UdtPacket)
  | window (p : UdtPacket)
  | ack (p : UdtPacket)
  | fastRexmt (p : UdtPacket)
  | fin
  | connect (handler : Nat)
  | accept (handler : Nat)
  | shutdown (handler : Nat)
  | send (op : SendOperation)
  | receive (op : RecvOperation)
  | limit
  | close

namespace Endpoint

/-- The state after a packet was chosen: sending it without force leaves persist state. -/
def ready (u : Endpoint) (pkt : Option UdtPacket) : Endpoint :=
  if pkt.isSome && !u.cb.force then { u with cb := u.cb.leavePersist } else u

/-- The flags of the segment that carries `pkt`. -/
def sendFlags (u : Endpoint) (pkt : Option UdtPacket) : UChar := u.outputFlags (Conn.pktLen pkt)

/-- The code after the `send` label, with what it adds to the history. -/
def transmit (u : Endpoint) (pkt : Option UdtPacket) (raw : Word) (t : Transmission) : Endpoint :=
  let x := (u.outputSend (u.sendFlags pkt) pkt raw).2
  { x with sent := x.sent ++ [t] }

/-- The blocks of `output`. -/
inductive Output : Endpoint → Endpoint → Prop
  | idle {s} : Output s s.outputIdle
  | consume {s} : Output s s.consumePendingData.2
  | send {s u : Endpoint} {canSend raw : Word} {pkt : Option UdtPacket} {env : Env}
      {t : Transmission}
      (alive : s.cb.state ≠ .closed)
      (select : s.outputSelect (s.outputForce canSend) = (pkt, u))
      (must : Conn.pktLen pkt ≠ 0 ∨ (u.ready pkt).mustSend ((u.ready pkt).sendFlags pkt) = true)
      (before : t.before = s.toConn)
      (dgram : t.dgram = (outputSend { u.ready pkt with env } ((u.ready pkt).sendFlags pkt)
        pkt raw).1) :
      Output s (transmit { u.ready pkt with env } pkt raw t)
  | persist {s u : Endpoint} {canSend : Word} {pkt : Option UdtPacket}
      (select : s.outputSelect (s.outputForce canSend) = (pkt, u))
      (can : (u.ready pkt).canPersist = true)
      (quiet : Conn.pktLen pkt = 0 ∧
        (u.ready pkt).mustSend ((u.ready pkt).sendFlags pkt) = false) :
      Output s ({ u.ready pkt with cb.rxtshift := 0 } : Endpoint).enterPersist
  | wait {s u : Endpoint} {canSend : Word} {pkt : Option UdtPacket}
      (select : s.outputSelect (s.outputForce canSend) = (pkt, u))
      (quiet : Conn.pktLen pkt = 0 ∧
        (u.ready pkt).mustSend ((u.ready pkt).sendFlags pkt) = false) : Output s (u.ready pkt)
  | record {s k} : Output s { s with calls := s.calls ++ [k] }

abbrev OutputPath := Trace.Path (fun s (_ : Unit) t => Output s t) fun _ _ => True

theorem Output.path {s t : Endpoint} (block : Output s t) : OutputPath s t :=
  .single (a := ()) trivial block

theorem outputPass_blocks (s : Endpoint) (alive : s.cb.state ≠ .closed) :
    OutputPath s s.outputPass.2.2 := by
  have consumed : OutputPath s (s.outputConsume s.canSendBytes) := by
    unfold outputConsume
    split
    · exact Output.consume.path
    · exact .refl _
  have alive' : (s.outputConsume s.canSendBytes).cb.state ≠ .closed := by
    rwa [(s.outputConsume_spec s.canSendBytes).1]
  refine consumed.trans ?_
  rw [outputPass]
  dsimp only
  generalize s.canSendBytes = canSend at alive' ⊢
  generalize s.outputConsume canSend = w at alive' ⊢
  cases select : w.outputSelect (w.outputForce canSend) with
  | mk pkt u =>
      dsimp only
      have ready : (if (pkt.isSome && !u.cb.force) = true then { u with cb := u.cb.leavePersist }
        else u) = u.ready pkt := rfl
      rw [ready]
      split
      · next long =>
          exact (@Output.send w u canSend (u.ready pkt).staleRcvWin.1 pkt _
            ⟨w.toConn, w.env.staleRcvWin 0, _⟩ alive' select (.inl long) rfl rfl).path
      · next short =>
        have short := not_not.mp short
        split
        · next must =>
            exact (@Output.send w u canSend (u.ready pkt).sk.rcvBuf.acc pkt (u.ready pkt).env
              ⟨w.toConn, w.env.staleRcvWin 0, _⟩ alive' select (.inr must) rfl rfl).path
        · next still =>
          have quiet := And.intro short (Bool.eq_false_iff.mpr still)
          split
          · next can => exact (Output.persist select can quiet).path
          · exact (Output.wait select quiet).path

theorem outputLoop_blocks (clamp : Nat) (s : Endpoint) (alive : s.cb.state ≠ .closed) :
    OutputPath s (s.outputLoop clamp).2 := by
  induction clamp generalizing s with
  | zero =>
      rw [outputLoop]
      exact .refl _
  | succ clamp ih =>
      have path := s.outputPass_blocks alive
      have state := (s.outputPass_path alive).2
      rw [outputLoop]
      generalize s.outputPass = pass at path state ⊢
      obtain ⟨t, again, s'⟩ := pass
      cases again with
      | false => exact path
      | true => exact path.trans (ih s' (by rwa [state]))

theorem output_blocks (s : Endpoint) : OutputPath s s.output := by
  unfold output
  split
  · exact .refl _
  · next alive =>
      have state : s.outputIdle.cb.state = s.cb.state :=
        congrArg (fun v : View => v.state) s.outputIdle_view
      have path := outputLoop_blocks sendPacketsClamp s.outputIdle (by rwa [state])
      generalize s.outputIdle.outputLoop sendPacketsClamp = result at path ⊢
      exact (Output.idle.path.trans path).trans Output.record.path

/-- A property that each block of `output` keeps. -/
theorem OutputPath.keeps {I : Endpoint → Prop} {s t : Endpoint} (path : OutputPath s t)
    (holds : I s) (keep : ∀ s t, I s → Output s t → I t) : I t :=
  path.invariant holds fun s _ t inv _ block => keep s t inv block

/-- The fast path for a pure acknowledgement, up to its call of `output`. -/
def ackPredicted (s : Endpoint) (ack : Word) : Endpoint :=
  let s := s.dropAckedData ack
  { s with cb := { s.cb.resetRexmtTimer with flags.notifyWrite := true } }

/-- The fast path for a segment with payload that was appended. -/
def storePredicted (s : Endpoint) (len : Half) (rb : UdtRcvBuf) : Endpoint :=
  { s with
    sk.rcvBuf := rb
    cb.rcvNxt := s.cb.rcvNxt + len.setWidth 32
    cb.flags.delack := true
    cb.flags.notifyRead := true
    cb.flags.packetConsumed := true }

/-- A duplicate acknowledgement's only change is a new window. -/
def ackWindow (s : Endpoint) (win : Word) : Endpoint :=
  let s := { s with cb := s.cb.updateSndWnd win }
  let s := { s with cb.flags.needOutput := true }
  { s with cb := s.cb.resetRexmtTimer }

/-- Everything up to the `output` of an expired retransmission timer. -/
def rexmtBegun (s : Endpoint) : Endpoint :=
  let s : Endpoint := { s with cb.tRexmt := s.cb.tRexmt - 1 }
  let s := { s with cb.rxtshift := s.cb.rxtshift + 1 }
  s.backoffRexmt.rewindAll.handlePacketLost.clearSndBufFlags

/-- Everything up to the `output` of an expired persist timer. -/
def persistBegun (s : Endpoint) : Endpoint :=
  let s : Endpoint := { s with cb.tPersist := s.cb.tPersist - 1 }
  let s := s.enterPersist.validateFirstPkt
  { s with cb.force := true }

/-- The state in which `connect` calls `output`. -/
def connecting (s : Endpoint) (h : Nat) : Endpoint :=
  let s := { s with sk.connectHandler := some h }.doReceive
  { s with
    cb := { s.cb with state := .synSent, tKeep := TCPTV_KEEP_INIT, iss := sIss }.tcpSendseqinit }

/-- The state in which `shutdown` calls `output`, when it does. -/
def closing (s : Endpoint) (h : Nat) : Endpoint :=
  let s := { s with sk.shutdownHandler := some h }
  match s.cb.state with
  | .established => { s with cb.state := .finWait1 }
  | .closeWait => { s with cb.state := .lastAck }
  | _ => s

def queueSend (s : Endpoint) (op : SendOperation) : Endpoint :=
  { s with
    sk.sendOps := s.sk.sendOps ++ [op]
    sk.pendingData := s.sk.pendingData + BitVec.ofNat 32 op.buf.size }

theorem asyncSend_eq (s : Endpoint) (op : SendOperation) : s.asyncSend op =
    if !s.sk.nextLayer then s
    else if op.buf.size = 0 ∨ op.buf.data = none ∨ s.cb.lastError ≠ .succeed then
      s.post (.sent op s.cb.lastError 0)
    else if (s.queueSend op).consumePendingData.1 ≠ 0 then (s.queueSend op).consumePendingData.2.output
    else (s.queueSend op).consumePendingData.2 := rfl

/-- The end of `handle_slow_timo`. -/
def ticked (s : Endpoint) : Endpoint :=
  { s with
    cb.rtt := if s.cb.rtt ≠ 0 then s.cb.rtt + 1 else s.cb.rtt
    cb.idle := s.cb.idle + 1
    cb.tick := s.cb.tick + 1 }

/-- `close` after `cancel`. -/
def closed (s : Endpoint) : Endpoint :=
  { s with
    cb := { s.cb with state := .closed }.canceltimers
    sk := { s.sk with
      nextLayer := false, sndBuf := s.sk.sndBuf.clear, rcvBuf := s.sk.rcvBuf.clear } }

end Endpoint

open Endpoint in
inductive Block : Endpoint → Tag → Endpoint → Prop
  | output {s t} (block : Output s t) : Block s .inner t
  | read {s} : Block s .inner (s.recvDataLoop s.sk.recvOps).2
  | delayed {s n} : Block s .inner ({ s with sk.delayWaits := n }.delayedLoop s.sk.recvOps)
  | notifySends {s} : Block s .post
      (s.sk.sendOps.foldl (fun s op => s.post (.sent op .disconnected 0)) s)
  | notifyHandlers {s} : Block s .post (s.postHandlers .disconnected)
  | notified {s} : Block s .post { s with disconnects := s.disconnects ++ [s.posted] }
  | cancel {s} : Block s .cancel s.cancel
  | disconnect {s} (due : s.cb.flags.notifyDrop = true ∨ s.cb.lastError ≠ .succeed) :
      Block s .disconnect s.onDisconnected
  -- one packet
  | arrived {s p} : Block s .input
      { s with cb.pseq := p, cb.idle := 0, cb.tKeep := sKeepidle }
  | sampled {s ack} : Block s .input (s.updateRtt ack)
  | hangup {s e reset} (named : e ≠ .succeed) : Block s .input { s with
      cb.lastError := e, cb.flags.notifyDrop := true, cb.flags.needReset := reset }
  | windowed {s} : Block s .input s.withRcvWnd
  | owed {s} : Block s .input { s with cb.flags.acknow := true }
  | ackPredicted {s p} (state : s.cb.state = .established) (isAck : hasAck p.hdr.flags = true)
      (above : seqGt p.hdr.ack s.cb.sndUna) (sent : seqLe p.hdr.ack s.cb.sndMax)
      (win : p.hdr.win.setWidth 32 = s.cb.sndWnd) :
      Block s (.ack p) (s.ackPredicted p.hdr.ack)
  | storePredicted {s p rb} (state : s.cb.state = .established)
      (next : p.hdr.seq = s.cb.rcvNxt) (empty : s.sk.rcvBuf.reasmPkts = [])
      (fits : s.sk.rcvBuf.append p = some rb) :
      Block s (.store p) (s.storePredicted p.hdr.len rb)
  | syn {s p} (alive : s.cb.state ≠ .closed) (isSyn : hasSyn p.hdr.flags = true) :
      Block s (.syn p) (s.handleSyn p).2.2
  | reass {s p} (alive : s.cb.state ≠ .closed) : Block s (.store p) (s.TCP_REASS p)
  | ackAll {s p} (isAck : hasAck p.hdr.flags = true) (all : s.cb.sndMax = p.hdr.ack) :
      Block s (.ackAll p) s.updateAckState
  | fack {s ack} : Block s .input { s with cb := s.cb.updateSndFack ack }
  | sacked {s p block front q back} (queue : s.sk.sndBuf.pkts = front ++ q :: back)
      (start : seqGe q.hdr.seq block.1) (stop : seqLe q.endSeq block.2) :
      Block s (.sack p block) (s.dropSndPkt front q back)
  | cwnd {s cwnd} : Block s .input (s.handleOptionCwnd cwnd)
  | rewrite {s buffer mem} : Block s .input (s.rewritePkt buffer mem)
  | window {s p} (isAck : hasAck p.hdr.flags = true) (same : p.hdr.ack = s.cb.sndUna)
      (other : p.hdr.win.setWidth 32 ≠ s.cb.sndWnd) :
      Block s (.window p) (s.ackWindow (p.hdr.win.setWidth 32))
  | late {s} : Block s .input { s with cb := { s.cb with dupacks := 0 }.resetRexmtTimer }
  | duplicate {s} :
      Block s .input { s with cb := { s.cb with dupacks := s.cb.dupacks + 1 }.resetRexmtTimer }
  | recovering {s} : Block s .input
      { s with cb.dupacks := s.cb.dupacks + 1, cb.flags.needOutput := true }
  | fastRexmt {s p} (same : p.hdr.ack = s.cb.sndUna) (running : s.cb.tRexmt ≠ 0) :
      Block s (.fastRexmt p)
        ({ s with cb.dupacks := s.cb.dupacks + 1, cb.rtt := 0 }.doFastRexmt p.hdr.ack)
  | ackNew {s p} (isAck : hasAck p.hdr.flags = true) (above : seqGt p.hdr.ack s.cb.sndUna)
      (sent : seqLe p.hdr.ack s.cb.sndMax) : Block s (.ack p) (s.ackNewData p.hdr)
  | fin {s} : Block s .fin s.handleFin
  -- what a packet has asked for
  | reset {s} : Block s .rest { s.resetPeer with cb.flags.needReset := false }
  | readDone {s} : Block s .rest { s with cb.flags.notifyRead := false }
  | writeDone {s} : Block s .rest { s with cb.flags.notifyWrite := false }
  | failed {s e} (named : e ≠ .succeed) : Block s .rest { s with cb.lastError := e }
  | dropped {s} : Block s .rest { s with cb.state := .closed }
  | dropDone {s} : Block s .rest { s with cb.flags.notifyDrop := false }
  | consumed {s} : Block s .rest { s with cb.flags.packetConsumed := false }
  | receiving {s} : Block s .rest s.doReceive
  | released {s} : Block s .rest { s with sk.rcvPkt := none }
  -- the timers
  | delackDue {s} (due : s.cb.flags.delack = true) : Block s .fast
      { s with cb.flags := { s.cb.flags with delack := false, acknow := true } }
  | rexmtTick {s} (running : s.cb.tRexmt ≠ 0) : Block s .rest { s with cb.tRexmt := s.cb.tRexmt - 1 }
  | rexmtExceeded {s} (running : s.cb.tRexmt ≠ 0) (last : s.cb.tRexmt - 1 = 0) : Block s .rest
      { s with cb.tRexmt := s.cb.tRexmt - 1, cb.rxtshift := TCP_MAXRXTSHIFT }
  | rexmtBegun {s} (running : s.cb.tRexmt ≠ 0) (last : s.cb.tRexmt - 1 = 0)
      (within : ¬ TCP_MAXRXTSHIFT.toInt < (s.cb.rxtshift + 1).toInt) :
      Block s .rest s.rexmtBegun
  | persistTick {s} (running : s.cb.tPersist ≠ 0) :
      Block s .rest { s with cb.tPersist := s.cb.tPersist - 1 }
  | persistBegun {s} (running : s.cb.tPersist ≠ 0) (last : s.cb.tPersist - 1 = 0) :
      Block s .rest s.persistBegun
  | forced {s} : Block s .rest { s with cb.force := false }
  | keep {s t} : Block s .rest { s with cb.tKeep := t }
  | keepProbe {s} : Block s .rest (s.respond s.cb.rcvNxt (s.cb.sndUna - 1) UdtHdr.TH_ACK)
  | twoMslTick {s} : Block s .rest { s with cb.t2msl := s.cb.t2msl - 1 }
  | ticked {s} : Block s .rest s.ticked
  | waited {s n} : Block s .rest { s with sk.delayWaits := n }
  -- the user
  | connect {s h} (alive : s.sk.nextLayer = true) (state : s.cb.state = .closed) :
      Block s (.connect h) (s.connecting h)
  | connectBusy {s h} (alive : s.sk.nextLayer = true) (state : s.cb.state ≠ .closed) :
      Block s (.connect h) { s with sk.connectHandler := some h }.doReceive
  | accept {s h} (alive : s.sk.nextLayer = true) (state : s.cb.state = .closed) :
      Block s (.accept h) { { s with sk.acceptHandler := some h }.doReceive with cb.state := .listen }
  | acceptBusy {s h} (alive : s.sk.nextLayer = true) (state : s.cb.state ≠ .closed) :
      Block s (.accept h) { s with sk.acceptHandler := some h }.doReceive
  | shutdown {s h} (alive : s.sk.nextLayer = true) : Block s (.shutdown h) (s.closing h)
  | sendRefused {s op} (alive : s.sk.nextLayer = true)
      (bad : op.buf.size = 0 ∨ op.buf.data = none ∨ s.cb.lastError ≠ .succeed) :
      Block s (.send op) (s.post (.sent op s.cb.lastError 0))
  | sendQueued {s op} (alive : s.sk.nextLayer = true) (size : op.buf.size ≠ 0)
      (data : op.buf.data ≠ none) (fine : s.cb.lastError = .succeed) :
      Block s (.send op) (s.queueSend op)
  | receiveRefused {s op} (alive : s.sk.nextLayer = true)
      (bad : op.buf.size = 0 ∨ op.buf.isNull ∨ s.cb.lastError ≠ .succeed) :
      Block s (.receive op) (s.post (.received op s.cb.lastError []))
  | receiveQueued {s op} (alive : s.sk.nextLayer = true) (fine : s.cb.lastError = .succeed) :
      Block s (.receive op) { s with sk.recvOps := s.sk.recvOps ++ [op] }
  | mtu {s} : Block s .rest { s with cb := s.cb.setMtu 1006 }
  | keepalive {s on} : Block s .rest (s.setKeepalive on)
  | sndLimit {s v} : Block s .limit (s.setSndBuf v)
  | rcvLimit {s v} : Block s .limit (s.setRcvBuf v)
  | close {s} : Block s .close s.closed

end UdtBoost
