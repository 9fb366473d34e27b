import UdtBoost.EventBlocks

/-! What a function with a loop or a chain of branches leaves behind, as one record update. A
field that does not occur in the update is the same before and after. -/
namespace UdtBoost

/-- What `on_disconnected` posts for the handlers that are not in a queue. -/
def UdtSocket.handlers (k : UdtSocket) (e : UdtError) : List Completion :=
  (match k.connectHandler, k.acceptHandler with
    | some h, _ => [.connected h e]
    | none, some h => [.accepted h e]
    | none, none => []) ++ k.shutdownHandler.toList.map (.shutdown · e)

namespace Endpoint

theorem notifySends_eq (s : Endpoint) (ops : List SendOperation) :
    ops.foldl (fun s op => s.post (.sent op .disconnected 0)) s =
      { s with posted := s.posted ++ ops.map (.sent · .disconnected 0) } := by
  induction ops generalizing s with
  | nil => simp
  | cons op ops ih =>
      rw [List.foldl_cons, ih]
      simp [post]

theorem postHandlers_eq (s : Endpoint) (e : UdtError) :
    s.postHandlers e = { s with posted := s.posted ++ s.sk.handlers e } := by
  unfold postHandlers UdtSocket.handlers
  rcases s.sk.connectHandler with _ | h <;> rcases s.sk.acceptHandler with _ | h' <;>
    rcases shut : s.sk.shutdownHandler with _ | h'' <;> simp [post, shut]

theorem dispatchRecvOperation_eq (s : Endpoint) (op : RecvOperation) :
    ∃ bytes rb, s.dispatchRecvOperation op =
        (true, { s with
          sk.rcvBuf.toUdtBuf := rb
          posted := s.posted ++ [.received op s.cb.lastError bytes] }) ∨
      s.cb.lastError = .succeed ∧
        s.dispatchRecvOperation op = (false, { s with sk.rcvBuf.toUdtBuf := rb }) := by
  rw [dispatchRecvOperation]
  generalize s.sk.rcvBuf.toUdtBuf.copy op.buf.size.toNat true = copied
  obtain ⟨bytes, rb⟩ := copied
  refine ⟨bytes, rb, ?_⟩
  dsimp only
  split
  · exact .inl rfl
  · next nothing => exact .inr ⟨not_not.mp (not_or.mp nothing).2, rfl⟩

/-- The operations completed are a prefix of the queue, and all of it once an error is set. -/
theorem recvDataLoop_spec (s : Endpoint) (ops : List RecvOperation) :
    ∃ (done : List (RecvOperation × List UChar)) (rest : List RecvOperation) (rb : UdtBuf)
      (waits : Nat), ops = done.map Prod.fst ++ rest ∧
      (s.cb.lastError ≠ .succeed → rest = []) ∧
      (s.recvDataLoop ops).2 =
        { s with
          sk.rcvBuf.toUdtBuf := rb
          sk.recvOps := rest
          sk.delayWaits := waits
          posted := s.posted ++ done.map fun d => .received d.1 s.cb.lastError d.2 } := by
  induction ops generalizing s with
  | nil =>
      exact ⟨[], [], s.sk.rcvBuf.toUdtBuf, s.sk.delayWaits, rfl, fun _ => rfl, by simp [recvDataLoop]⟩
  | cons op ops ih =>
      rw [recvDataLoop]
      split
      · next short =>
          refine ⟨[], op :: ops, s.sk.rcvBuf.toUdtBuf, s.sk.delayWaits + 1, rfl, ?_, ?_⟩
          · intro failed
            exact absurd short.1 failed
          · simp [delayRecvOperation]
      · obtain ⟨bytes, rb, completed | ⟨fine, kept⟩⟩ := s.dispatchRecvOperation_eq op
        · rw [completed]
          obtain ⟨done, rest, rb', waits, split, all, result⟩ := ih
            { s with
              sk.rcvBuf.toUdtBuf := rb
              posted := s.posted ++ [.received op s.cb.lastError bytes] }
          refine ⟨(op, bytes) :: done, rest, rb', waits, by simp [split], all, ?_⟩
          dsimp only
          rw [result]
          simp
        · rw [kept]
          refine ⟨[], op :: ops, rb, s.sk.delayWaits, rfl, fun failed => absurd fine failed, ?_⟩
          simp

theorem delayedLoop_spec (s : Endpoint) (ops : List RecvOperation) :
    ∃ (done : List (RecvOperation × List UChar)) (rest : List RecvOperation) (rb : UdtBuf),
      ops = done.map Prod.fst ++ rest ∧
      s.delayedLoop ops =
        { s with
          sk.rcvBuf.toUdtBuf := rb
          sk.recvOps := rest
          posted := s.posted ++ done.map fun d => .received d.1 s.cb.lastError d.2 } := by
  induction ops generalizing s with
  | nil => exact ⟨[], [], s.sk.rcvBuf.toUdtBuf, rfl, by simp [delayedLoop]⟩
  | cons op ops ih =>
      rw [delayedLoop]
      obtain ⟨bytes, rb, completed | ⟨_, kept⟩⟩ := s.dispatchRecvOperation_eq op
      · rw [completed]
        obtain ⟨done, rest, rb', split, result⟩ := ih
          { s with
            sk.rcvBuf.toUdtBuf := rb
            posted := s.posted ++ [.received op s.cb.lastError bytes] }
        refine ⟨(op, bytes) :: done, rest, rb', by simp [split], ?_⟩
        dsimp only
        rw [result]
        simp
      · rw [kept]
        exact ⟨[], op :: ops, rb, rfl, by simp⟩

theorem doReceive_eq (s : Endpoint) :
    ∃ pkt next receives,
      s.doReceive = { s with sk.rcvPkt := pkt, sk.nextBuffer := next, receives } := by
  unfold doReceive
  split
  · split
    · exact ⟨_, _, _, rfl⟩
    · exact ⟨s.sk.rcvPkt, s.sk.nextBuffer, _, rfl⟩
  · exact ⟨s.sk.rcvPkt, s.sk.nextBuffer, s.receives, rfl⟩

theorem consumePendingData_spec (s : Endpoint) :
    ∃ ops rest b, s.sk.sendOps = ops ++ rest ∧
      s.sk.sndBuf.appendOps s.cb.maxseg.toNat ops = some b ∧
      s.consumePendingData = ((ops.map (·.buf.size)).sum,
        { s with
          sk.sndBuf := b
          sk.sendOps := rest
          sk.pendingData := s.sk.pendingData - BitVec.ofNat 32 (ops.map (·.buf.size)).sum
          posted := s.posted ++ ops.map fun op => .sent op .succeed op.buf.size }) := by
  obtain ⟨ops, rest, b, queue, appended, result⟩ := s.consumePendingLoop_spec s.sk.sendOps
  exact ⟨ops, rest, b, queue, appended, by rw [consumePendingData, result]⟩

theorem dropAckedData_spec (s : Endpoint) (ack : Word) :
    ∃ gone rest, s.sk.sndBuf.pkts = gone ++ rest ∧
      (∀ q ∈ gone, seqLt q.hdr.seq ack) ∧
      (∀ q, rest.head? = some q → seqGe q.hdr.seq ack) ∧
      s.dropAckedData ack =
        { s with
          cb := { s.cb with
            retransData := gone.foldl retransLeft s.cb.retransData }.updateSndUna ack
          sk.sndBuf := s.sk.sndBuf.dropFront gone rest
          dropped := s.dropped ++ dropLog s.cb.retransData gone } := by
  obtain ⟨gone, rest, split, below, kept, result⟩ :=
    s.dropAckedLoop_spec ack s.sk.sndBuf.pkts rfl
  exact ⟨gone, rest, split, below, kept, by rw [dropAckedData, result]⟩

theorem mergeReasmPkts_eq (s : Endpoint) :
    ∃ rb nxt read, s.mergeReasmPkts =
      { s with sk.rcvBuf := rb, cb.rcvNxt := nxt, cb.flags.notifyRead := read } := by
  obtain ⟨run, kept, _, _, _, merged, _⟩ := s.mergeLoop_spec s.sk.rcvBuf.reasmPkts
  rw [mergeReasmPkts, merged]
  dsimp only
  split
  · exact ⟨_, _, _, rfl⟩
  · exact ⟨_, _, s.cb.flags.notifyRead, rfl⟩

/-- Storing a packet changes the receive side and raises flags. -/
theorem TCP_REASS_eq (s : Endpoint) (p : UdtPacket) :
    ∃ rb nxt acknow delack consumed read, s.TCP_REASS p =
      { s with
        sk.rcvBuf := rb, cb.rcvNxt := nxt
        cb.flags :=
          { s.cb.flags with
            acknow := acknow, delack := delack, packetConsumed := consumed, notifyRead := read } } := by
  unfold TCP_REASS
  split
  · split
    · exact ⟨_, _, s.cb.flags.acknow, _, _, _, rfl⟩
    · exact ⟨s.sk.rcvBuf, s.cb.rcvNxt, s.cb.flags.acknow, s.cb.flags.delack,
        s.cb.flags.packetConsumed, s.cb.flags.notifyRead, rfl⟩
  · unfold tcpReass
    split
    · exact ⟨s.sk.rcvBuf, s.cb.rcvNxt, _, s.cb.flags.delack,
        s.cb.flags.packetConsumed, s.cb.flags.notifyRead, rfl⟩
    · next q inserted =>
        obtain ⟨rb, nxt, read, merged⟩ := mergeReasmPkts_eq
          ({ s with sk.rcvBuf.reasmPkts := q, cb.flags.packetConsumed := true } : Endpoint)
        rw [merged]
        exact ⟨rb, nxt, _, s.cb.flags.delack, _, read, rfl⟩

theorem onConnected_eq (s : Endpoint) :
    ∃ connect accept posted, s.onConnected =
      { s with
        connected := true
        sk.connectHandler := connect
        sk.acceptHandler := accept
        sk.sndBuf := if s.sk.nextLayer then s.sk.sndBuf.setInitSeq s.cb.sndNxt else s.sk.sndBuf
        posted := posted } := by
  unfold onConnected
  by_cases alive : s.sk.nextLayer = true
  case neg =>
    refine ⟨s.sk.connectHandler, s.sk.acceptHandler, s.posted, ?_⟩
    dsimp only
    rw [if_neg alive, if_neg alive]
  case pos =>
    rcases connect : s.sk.connectHandler with _ | h
    · rcases accept : s.sk.acceptHandler with _ | h
      · exact ⟨none, none, s.posted, by simp [alive, connect, accept]⟩
      · exact ⟨none, none, _, by simp [alive, connect, accept, post]; rfl⟩
    · exact ⟨none, s.sk.acceptHandler, _, by simp [alive, connect, post]; rfl⟩

theorem xmitTimer_eq (s : Endpoint) (rtt : Half) :
    ∃ srtt rttvar rxtcur, s.xmitTimer rtt =
      { s with
        cb.srtt := srtt, cb.rttvar := rttvar, cb.rtt := 0, cb.rxtshift := 0, cb.rxtcur := rxtcur
        backoffRead := s.backoffRead ++ [0] } := by
  unfold xmitTimer
  dsimp only
  split <;> exact ⟨_, _, _, rfl⟩

theorem timeHandshake_eq (s : Endpoint) :
    ∃ srtt rttvar rtt rxtshift rxtcur read, s.timeHandshake =
      { s with
        cb.srtt := srtt, cb.rttvar := rttvar, cb.rtt := rtt
        cb.rxtshift := rxtshift, cb.rxtcur := rxtcur, backoffRead := read } := by
  unfold timeHandshake
  split
  · obtain ⟨srtt, rttvar, rxtcur, result⟩ := s.xmitTimer_eq s.cb.rtt
    exact ⟨srtt, rttvar, 0, 0, rxtcur, _, result⟩
  · exact ⟨s.cb.srtt, s.cb.rttvar, s.cb.rtt, s.cb.rxtshift, s.cb.rxtcur, s.backoffRead, rfl⟩

theorem ackFin_eq (s : Endpoint) :
    ∃ state tRexmt tPersist tKeep t2msl drop, s.ackFin =
        { s with
          cb.state := state
          cb.tRexmt := tRexmt, cb.tPersist := tPersist, cb.tKeep := tKeep, cb.t2msl := t2msl
          cb.flags.notifyDrop := drop } ∧
      state = if s.cb.state = .synSent ∨ s.cb.state = .synReceived then s.cb.state
        else s.cb.state.acked s.cb.flags.sentfin := by
  have same : s = { s with
      cb.state := s.cb.state
      cb.tRexmt := s.cb.tRexmt, cb.tPersist := s.cb.tPersist, cb.tKeep := s.cb.tKeep
      cb.t2msl := s.cb.t2msl, cb.flags.notifyDrop := s.cb.flags.notifyDrop } := rfl
  unfold ackFin
  by_cases sentfin : s.cb.flags.sentfin = true
  case neg =>
    rw [if_neg sentfin]
    refine ⟨_, _, _, _, _, _, same, ?_⟩
    cases s.cb.state <;> simp [TcpState.acked, sentfin]
  case pos =>
    rw [if_pos sentfin]
    cases state : s.cb.state
    case finWait1 | closing | lastAck =>
      exact ⟨_, _, _, _, _, _, rfl, by simp [TcpState.acked, sentfin, UdtCb.canceltimers]⟩
    all_goals exact ⟨_, _, _, _, _, _, same, by simp [TcpState.acked, state]⟩

/-- The two halves of `update_ack_state` as one update. -/
theorem updateAckState_eq (s : Endpoint) :
    ∃ srtt rttvar rtt rxtshift rxtcur tRexmt tPersist tKeep t2msl drop connect accept posted read,
      s.updateAckState =
        { s with
          cb.state := s.cb.state.acked s.cb.flags.sentfin
          cb.srtt := srtt, cb.rttvar := rttvar, cb.rtt := rtt, cb.rxtshift := rxtshift
          cb.rxtcur := rxtcur, cb.tRexmt := tRexmt, cb.tPersist := tPersist, cb.tKeep := tKeep
          cb.t2msl := t2msl
          cb.flags :=
            { s.cb.flags with
              acknow := s.cb.flags.acknow || decide (s.cb.state = .synSent), notifyDrop := drop }
          connected := s.connected || s.cb.state == .synReceived
          sk.connectHandler := connect
          sk.acceptHandler := accept
          sk.sndBuf := if s.sk.nextLayer ∧ s.cb.state = .synReceived
            then s.sk.sndBuf.setInitSeq s.cb.sndNxt else s.sk.sndBuf
          posted := posted
          backoffRead := read } := by
  rw [updateAckState, ackHandshake]
  cases state : s.cb.state with
  | synReceived =>
      dsimp only
      obtain ⟨srtt, rttvar, rtt, rxtshift, rxtcur, read, timed⟩ :=
        ({ s with cb.state := .established } : Endpoint).timeHandshake_eq
      rw [timed]
      obtain ⟨connect, accept, posted, connected⟩ := onConnected_eq
        ({ s with
          cb.state := .established, cb.srtt := srtt, cb.rttvar := rttvar, cb.rtt := rtt
          cb.rxtshift := rxtshift, cb.rxtcur := rxtcur, backoffRead := read } : Endpoint)
      rw [connected]
      refine ⟨srtt, rttvar, rtt, rxtshift, rxtcur, s.cb.tRexmt, s.cb.tPersist, s.cb.tKeep,
        s.cb.t2msl, s.cb.flags.notifyDrop, connect, accept, posted, read, ?_⟩
      simp [ackFin, TcpState.acked]
  | synSent =>
      refine ⟨s.cb.srtt, s.cb.rttvar, s.cb.rtt, s.cb.rxtshift, s.cb.rxtcur, s.cb.tRexmt,
        s.cb.tPersist, s.cb.tKeep, s.cb.t2msl, s.cb.flags.notifyDrop, s.sk.connectHandler,
        s.sk.acceptHandler, s.posted, s.backoffRead, ?_⟩
      simp [ackFin, TcpState.acked]
  | _ =>
      obtain ⟨_, tRexmt, tPersist, tKeep, t2msl, drop, result, rfl⟩ := s.ackFin_eq
      dsimp only
      rw [result]
      refine ⟨s.cb.srtt, s.cb.rttvar, s.cb.rtt, s.cb.rxtshift, s.cb.rxtcur, tRexmt, tPersist, tKeep,
        t2msl, drop, s.sk.connectHandler, s.sk.acceptHandler, s.posted, s.backoffRead, ?_⟩
      simp [state]

/-- `handle_syn`'s state: a SYN outside the handshake still sets the send window. -/
theorem handleSyn_eq (s : Endpoint) (p : UdtPacket) :
    ∃ wl1 wl2 tKeep, (s.handleSyn p).2.2 =
      if s.cb.state = .listen ∨ s.cb.state = .synSent ∨ s.cb.state = .synReceived then
        { s with
          cb :=
            { (if s.cb.state = .listen then { s.cb with iss := sIss }.tcpSendseqinit else s.cb) with
              state := .synReceived, irs := p.hdr.seq + 1, rcvNxt := p.hdr.seq + 1
              rcvAdv := p.hdr.seq + 1, sndWnd := p.hdr.win.setWidth 32, sndWl1 := wl1
              sndWl2 := wl2, tKeep := tKeep, flags := { s.cb.flags with acknow := true } }
          synAccepted := s.synAccepted ++ [p.hdr.seq] }
      else
        { s with
          cb.sndWnd := p.hdr.win.setWidth 32, cb.sndWl1 := wl1, cb.sndWl2 := wl2, cb.tKeep := tKeep
          cb.flags.acknow := true } := by
  unfold handleSyn
  dsimp only
  cases state : s.cb.state
  case listen | synSent | synReceived | established => exact ⟨_, _, _, rfl⟩
  all_goals exact ⟨_, _, s.cb.tKeep, rfl⟩

theorem handleFin_state (x : Endpoint) : ∃ t2msl drop, (match x.cb.state with
    | .established | .closeWait => { x with cb.state := .closeWait }
    | .finWait1 | .closing => { x with cb.state := .closing }
    | .finWait2 | .timeWait =>
        { x with cb.state := .timeWait, cb.t2msl := 2 * TCPTV_MSL, cb.flags.notifyDrop := true }
    | _ => x : Endpoint) =
    { x with cb.state := x.cb.state.finned, cb.t2msl := t2msl, cb.flags.notifyDrop := drop } := by
  cases state : x.cb.state
  case finWait2 | timeWait => exact ⟨_, _, rfl⟩
  case established | closeWait | finWait1 | closing =>
    exact ⟨x.cb.t2msl, x.cb.flags.notifyDrop, rfl⟩
  all_goals
    exact ⟨x.cb.t2msl, x.cb.flags.notifyDrop,
      congrArg (fun q => ({ x with cb.state := q } : Endpoint)) state⟩

theorem handleFin_eq (s : Endpoint) :
    ∃ t2msl drop, s.handleFin =
      if s.cb.TCPS_HAVERCVDFIN then
        { s with
          cb.state := s.cb.state.finned, cb.t2msl := t2msl, cb.flags.notifyDrop := drop
          finHandled := true }
      else
        { s with
          cb.state := s.cb.state.finned, cb.t2msl := t2msl, cb.rcvNxt := s.cb.rcvNxt + 1
          cb.lastError := .eof
          cb.flags := { s.cb.flags with notifyDrop := drop, acknow := true, notifyRead := true }
          finHandled := true } := by
  rw [handleFin]
  dsimp only
  cases fin : s.cb.TCPS_HAVERCVDFIN with
  | true =>
      obtain ⟨t2msl, drop, result⟩ := handleFin_state { s with finHandled := true }
      exact ⟨t2msl, drop, result⟩
  | false =>
      obtain ⟨t2msl, drop, result⟩ := handleFin_state { s with
        cb.rcvNxt := s.cb.rcvNxt + 1, cb.lastError := .eof
        cb.flags := { s.cb.flags with acknow := true, notifyRead := true }, finHandled := true }
      exact ⟨t2msl, drop, result⟩

theorem updateSndUna_eq (c : UdtCb) (ack : Word) :
    ∃ fack, c.updateSndUna ack =
      { c with
        sndUna := ack, sndNxt := if seqLt c.sndNxt ack then ack else c.sndNxt, sndFack := fack } := by
  unfold UdtCb.updateSndUna UdtCb.updateSndFack
  dsimp only
  split <;> split <;> exact ⟨_, rfl⟩

theorem updateSndWnd_eq (c : UdtCb) (win : Word) :
    ∃ most, c.updateSndWnd win = { c with sndWnd := win, maxSndwnd := most } := by
  unfold UdtCb.updateSndWnd
  dsimp only
  split <;> exact ⟨_, rfl⟩

theorem resetRexmtTimer_eq (c : UdtCb) :
    ∃ tRexmt need, c.resetRexmtTimer = { c with tRexmt := tRexmt, flags.needOutput := need } := by
  unfold UdtCb.resetRexmtTimer
  split
  · exact ⟨_, _, rfl⟩
  · split
    · exact ⟨_, c.flags.needOutput, rfl⟩
    · exact ⟨c.tRexmt, c.flags.needOutput, rfl⟩

theorem ackPredicted_eq (s : Endpoint) (ack : Word) :
    ∃ gone rest fack tRexmt need, s.sk.sndBuf.pkts = gone ++ rest ∧
      (∀ q ∈ gone, seqLt q.hdr.seq ack) ∧
      (∀ q, rest.head? = some q → seqGe q.hdr.seq ack) ∧
      s.ackPredicted ack =
        { s with
          cb.sndUna := ack
          cb.sndNxt := if seqLt s.cb.sndNxt ack then ack else s.cb.sndNxt
          cb.sndFack := fack, cb.retransData := gone.foldl retransLeft s.cb.retransData
          cb.tRexmt := tRexmt
          cb.flags := { s.cb.flags with notifyWrite := true, needOutput := need }
          sk.sndBuf := s.sk.sndBuf.dropFront gone rest
          dropped := s.dropped ++ dropLog s.cb.retransData gone } := by
  obtain ⟨gone, rest, split, below, kept, result⟩ := s.dropAckedData_spec ack
  obtain ⟨data, left⟩ : ∃ data, gone.foldl retransLeft s.cb.retransData = data := ⟨_, rfl⟩
  rw [left] at result
  obtain ⟨fack, una⟩ := updateSndUna_eq { s.cb with retransData := data } ack
  rw [una] at result
  rw [ackPredicted, result]
  obtain ⟨tRexmt, need, timer⟩ := resetRexmtTimer_eq { s.cb with
    retransData := data, sndUna := ack
    sndNxt := if seqLt s.cb.sndNxt ack then ack else s.cb.sndNxt, sndFack := fack }
  dsimp only at timer ⊢
  rw [timer]
  exact ⟨gone, rest, fack, tRexmt, need, split, below, kept, by rw [left]⟩

theorem ackWindow_eq (s : Endpoint) (win : Word) :
    ∃ most tRexmt, s.ackWindow win =
      { s with
        cb.sndWnd := win, cb.maxSndwnd := most, cb.tRexmt := tRexmt, cb.flags.needOutput := true } := by
  obtain ⟨most, wnd⟩ := updateSndWnd_eq s.cb win
  rw [ackWindow, wnd]
  unfold UdtCb.resetRexmtTimer
  dsimp only
  split
  · exact ⟨most, _, rfl⟩
  · split <;> exact ⟨most, _, rfl⟩

theorem ackNewData_eq (s : Endpoint) (ti : UdtHdr) :
    ∃ gone rest fack cwnd most tRexmt, s.sk.sndBuf.pkts = gone ++ rest ∧
      (∀ q ∈ gone, seqLt q.hdr.seq ti.ack) ∧
      (∀ q, rest.head? = some q → seqGe q.hdr.seq ti.ack) ∧
      s.ackNewData ti =
        { s with
          cb.sndUna := ti.ack
          cb.sndNxt := if seqLt s.cb.sndNxt ti.ack then ti.ack else s.cb.sndNxt
          cb.sndFack := fack, cb.retransData := gone.foldl retransLeft s.cb.retransData
          cb.sndWnd := ti.win.setWidth 32, cb.maxSndwnd := most
          cb.sndCwnd := cwnd, cb.dupacks := 0, cb.tRexmt := tRexmt
          cb.flags := { s.cb.flags with notifyWrite := true, needOutput := true }
          sk.sndBuf := s.sk.sndBuf.dropFront gone rest
          dropped := s.dropped ++ dropLog s.cb.retransData gone } := by
  have window : s.ackNewData ti = (dropAckedData { s with
      cb := { ({ s.cb with flags.notifyWrite := true } : UdtCb).incrSndCwnd with dupacks := 0 } }
      ti.ack).ackWindow (ti.win.setWidth 32) := rfl
  have opened : ∃ cwnd, ({ s.cb with flags.notifyWrite := true } : UdtCb).incrSndCwnd =
      { s.cb with flags.notifyWrite := true, sndCwnd := cwnd } := ⟨_, rfl⟩
  obtain ⟨cwnd, opened⟩ := opened
  rw [opened] at window
  obtain ⟨gone, rest, split, below, kept, result⟩ := dropAckedData_spec
    ({ s with cb := { s.cb with flags.notifyWrite := true, sndCwnd := cwnd, dupacks := 0 } } :
      Endpoint) ti.ack
  dsimp only at split result
  obtain ⟨data, left⟩ : ∃ data, gone.foldl retransLeft s.cb.retransData = data := ⟨_, rfl⟩
  rw [left] at result
  obtain ⟨fack, una⟩ := updateSndUna_eq { s.cb with
    flags.notifyWrite := true, sndCwnd := cwnd, dupacks := 0, retransData := data } ti.ack
  dsimp only at result una window
  rw [una] at result
  obtain ⟨most, tRexmt, moved⟩ := ackWindow_eq
    ({ s with
      cb := { s.cb with
        flags.notifyWrite := true, sndCwnd := cwnd, dupacks := 0, retransData := data
        sndUna := ti.ack, sndNxt := if seqLt s.cb.sndNxt ti.ack then ti.ack else s.cb.sndNxt
        sndFack := fack }
      sk.sndBuf := s.sk.sndBuf.dropFront gone rest
      dropped := s.dropped ++ dropLog s.cb.retransData gone } : Endpoint) (ti.win.setWidth 32)
  rw [window, result, moved]
  exact ⟨gone, rest, fack, cwnd, most, tRexmt, split, below, kept, by rw [left]⟩

theorem enterPersist_eq (s : Endpoint) :
    ∃ tPersist rxtshift, s.enterPersist =
      { s with
        cb.tPersist := tPersist, cb.rxtshift := rxtshift
        persistEntered := s.persistEntered ++ [s.cb.tRexmt]
        backoffRead := s.backoffRead ++ [s.cb.rxtshift] } := by
  unfold enterPersist
  dsimp only
  split
  · exact ⟨_, _, rfl⟩
  · exact ⟨_, s.cb.rxtshift, rfl⟩

theorem handlePacketLost_eq (s : Endpoint) :
    ∃ first second third cwnd env, s.handlePacketLost =
      { s with
        cb.tstampFirst := first, cb.tstampSecond := second, cb.tstampThird := third
        cb.sndCwnd := cwnd, env := env } := by
  unfold handlePacketLost UdtCb.decrSndCwnd
  dsimp only
  split
  · exact ⟨_, _, _, _, _, rfl⟩
  · exact ⟨_, _, _, s.cb.sndCwnd, _, rfl⟩

theorem validateFirstPkt_eq (s : Endpoint) :
    ∃ data pkts log, s.validateFirstPkt =
        { s with cb.retransData := data, sk.sndBuf.pkts := pkts, validated := log } ∧
      pkts.map UdtPacket.unflagged = s.sk.sndBuf.pkts.map UdtPacket.unflagged := by
  unfold validateFirstPkt
  cases queue : s.sk.sndBuf.pkts with
  | nil => exact ⟨s.cb.retransData, s.sk.sndBuf.pkts, s.validated, rfl, by rw [queue]⟩
  | cons p rest =>
      dsimp only
      split
      · exact ⟨_, _, _, rfl, rfl⟩
      · exact ⟨s.cb.retransData, _, _, rfl, rfl⟩

/-- The state in which `do_fast_rexmt` calls `output`. -/
theorem beginFastRexmt_eq (s : Endpoint) (ack : Word) :
    ∃ first second third cwnd env data pkts log, s.handlePacketLost.beginFastRexmt ack =
        { s with
          cb.tstampFirst := first, cb.tstampSecond := second, cb.tstampThird := third
          cb.sndCwnd := cwnd, cb.tRexmt := 0, cb.sndNxt := ack, cb.retransData := data
          sk.sndBuf.pkts := pkts, env := env, validated := log } ∧
      pkts.map UdtPacket.unflagged = s.sk.sndBuf.pkts.map UdtPacket.unflagged := by
  obtain ⟨first, second, third, cwnd, env, lost⟩ := s.handlePacketLost_eq
  rw [lost, beginFastRexmt]
  dsimp only
  obtain ⟨data, pkts, log, result, same⟩ := validateFirstPkt_eq
    ({ s with
      cb.tstampFirst := first, cb.tstampSecond := second, cb.tstampThird := third
      cb.tRexmt := 0, cb.sndNxt := ack
      cb.sndCwnd := UdtCb.bytesInflight
        { s.cb with
          tstampFirst := first, tstampSecond := second, tstampThird := third, sndCwnd := cwnd
          tRexmt := 0, sndNxt := ack } + s.cb.maxseg.setWidth 32
      env := env } : Endpoint)
  exact ⟨first, second, third, _, env, data, pkts, log, result, same⟩

theorem rexmtBegun_eq (s : Endpoint) :
    ∃ srtt rttvar rxtcur tRexmt first second third cwnd env read, s.rexmtBegun =
      { s with
        cb.srtt := srtt, cb.rttvar := rttvar, cb.rxtcur := rxtcur, cb.tRexmt := tRexmt
        cb.rxtshift := s.cb.rxtshift + 1, cb.rtt := 0
        cb.sndNxt := s.cb.sndUna, cb.sndFack := s.cb.sndUna
        cb.tstampFirst := first, cb.tstampSecond := second, cb.tstampThird := third
        cb.sndCwnd := cwnd, cb.retransData := 0
        sk.sndBuf.pkts := clearFlagsLoop s.cb.sndMax s.sk.sndBuf.pkts
        env := env, backoffRead := read } := by
  have retimed : ∃ srtt rttvar rxtcur tRexmt read, ({ s with
      cb.tRexmt := s.cb.tRexmt - 1, cb.rxtshift := s.cb.rxtshift + 1 } : Endpoint).backoffRexmt =
      { s with
        cb.srtt := srtt, cb.rttvar := rttvar, cb.rxtcur := rxtcur, cb.tRexmt := tRexmt
        cb.rxtshift := s.cb.rxtshift + 1, backoffRead := read } := by
    unfold backoffRexmt
    dsimp only
    split
    · exact ⟨_, _, _, _, _, rfl⟩
    · exact ⟨s.cb.srtt, s.cb.rttvar, _, _, _, rfl⟩
  obtain ⟨srtt, rttvar, rxtcur, tRexmt, read, retimed⟩ := retimed
  rw [rexmtBegun, retimed, rewindAll]
  obtain ⟨first, second, third, cwnd, env, lost⟩ := handlePacketLost_eq
    ({ s with
      cb.srtt := srtt, cb.rttvar := rttvar, cb.rxtcur := rxtcur, cb.tRexmt := tRexmt
      cb.rxtshift := s.cb.rxtshift + 1, cb.rtt := 0
      cb.sndNxt := s.cb.sndUna, cb.sndFack := s.cb.sndUna, backoffRead := read } : Endpoint)
  dsimp only
  rw [lost]
  exact ⟨srtt, rttvar, rxtcur, tRexmt, first, second, third, cwnd, env, read, rfl⟩

theorem persistBegun_eq (s : Endpoint) :
    ∃ tPersist rxtshift data pkts log, s.persistBegun =
        { s with
          cb.tPersist := tPersist, cb.rxtshift := rxtshift, cb.force := true
          cb.retransData := data, sk.sndBuf.pkts := pkts, validated := log
          persistEntered := s.persistEntered ++ [s.cb.tRexmt]
          backoffRead := s.backoffRead ++ [s.cb.rxtshift] } ∧
      pkts.map UdtPacket.unflagged = s.sk.sndBuf.pkts.map UdtPacket.unflagged := by
  obtain ⟨tPersist, rxtshift, entered⟩ :=
    enterPersist_eq ({ s with cb.tPersist := s.cb.tPersist - 1 } : Endpoint)
  rw [persistBegun, entered]
  obtain ⟨data, pkts, log, result, same⟩ := validateFirstPkt_eq
    ({ s with
      cb.tPersist := tPersist, cb.rxtshift := rxtshift
      persistEntered := s.persistEntered ++ [s.cb.tRexmt]
      backoffRead := s.backoffRead ++ [s.cb.rxtshift] } : Endpoint)
  dsimp only at result ⊢
  rw [result]
  exact ⟨tPersist, rxtshift, data, pkts, log, rfl, same⟩

theorem ready_eq (s : Endpoint) (pkt : Option UdtPacket) :
    ∃ tPersist rxtshift, s.ready pkt = { s with cb.tPersist := tPersist, cb.rxtshift := rxtshift } := by
  unfold ready UdtCb.leavePersist
  split
  · split
    · exact ⟨_, _, rfl⟩
    · exact ⟨s.cb.tPersist, s.cb.rxtshift, rfl⟩
  · exact ⟨s.cb.tPersist, s.cb.rxtshift, rfl⟩

theorem advanceNxt_eq (s : Endpoint) (flags : UChar) (len : Word) :
    s.advanceNxt flags len = { s with
      cb.sndNxt := s.cb.sndNxt + synLen flags + finLen flags + len
      cb.flags.sentfin := s.cb.flags.sentfin || hasFin flags } := by
  unfold advanceNxt synLen finLen
  cases syn : hasSyn flags <;> cases fin : hasFin flags <;> simp

theorem raiseSndMax_eq (s : Endpoint) (startseq : Word) :
    ∃ rtt rtseq, s.raiseSndMax startseq =
      { s with cb.sndMax := seqMax s.cb.sndNxt s.cb.sndMax, cb.rtt := rtt, cb.rtseq := rtseq } := by
  unfold raiseSndMax seqMax
  split
  · dsimp only
    split
    · exact ⟨_, _, rfl⟩
    · exact ⟨s.cb.rtt, s.cb.rtseq, rfl⟩
  · exact ⟨s.cb.rtt, s.cb.rtseq, rfl⟩

theorem armRexmt_eq (s : Endpoint) :
    ∃ tRexmt tPersist rxtshift, s.armRexmt =
      { s with cb.tRexmt := tRexmt, cb.tPersist := tPersist, cb.rxtshift := rxtshift } := by
  unfold armRexmt UdtCb.leavePersist
  split
  · dsimp only
    split
    · exact ⟨_, _, _, rfl⟩
    · exact ⟨_, s.cb.tPersist, s.cb.rxtshift, rfl⟩
  · exact ⟨s.cb.tRexmt, s.cb.tPersist, s.cb.rxtshift, rfl⟩

/-- Where the segment after the `send` label ends; a forced probe does not count its SYN or FIN. -/
def sendEnd (s : Endpoint) (flags : UChar) (len : Word) : Word :=
  s.toConn.core.rewound flags s.cb.sndNxt +
    if s.probing then len else synLen flags + finLen flags + len

/-- `m_snd_nxt` after the `send` label: a forced probe leaves it where the segment starts. -/
def sendNxt (s : Endpoint) (flags : UChar) (len : Word) : Word :=
  if s.probing then s.toConn.core.rewound flags s.cb.sndNxt else s.sendEnd flags len

theorem outputAdvance_eq (s : Endpoint) (flags : UChar) (len : Word) :
    ∃ rtt rtseq tRexmt tPersist rxtshift, (s.outputRewind flags).outputAdvance flags len =
      { s with
        cb.sndNxt := s.sendNxt flags len
        cb.sndMax := seqMax (s.sendEnd flags len) s.cb.sndMax
        cb.flags.sentfin := s.cb.flags.sentfin || (!s.probing && hasFin flags)
        cb.rtt := rtt, cb.rtseq := rtseq, cb.tRexmt := tRexmt
        cb.tPersist := tPersist, cb.rxtshift := rxtshift } := by
  rw [outputRewind_eq]
  unfold outputAdvance sendNxt sendEnd
  have probe := s.not_probing_iff
  split
  · next unforced =>
      rw [probe.mpr unforced, advanceNxt_eq]
      obtain ⟨rtt, rtseq, raised⟩ := raiseSndMax_eq
        ({ s with
          cb.sndNxt := s.toConn.core.rewound flags s.cb.sndNxt + synLen flags + finLen flags + len
          cb.flags.sentfin := s.cb.flags.sentfin || hasFin flags } : Endpoint)
        (s.toConn.core.rewound flags s.cb.sndNxt)
      rw [raised]
      obtain ⟨tRexmt, tPersist, rxtshift, armed⟩ := armRexmt_eq
        ({ s with
          cb.sndNxt := s.toConn.core.rewound flags s.cb.sndNxt + synLen flags + finLen flags + len
          cb.sndMax := seqMax
            (s.toConn.core.rewound flags s.cb.sndNxt + synLen flags + finLen flags + len)
            s.cb.sndMax
          cb.flags.sentfin := s.cb.flags.sentfin || hasFin flags
          cb.rtt := rtt, cb.rtseq := rtseq } : Endpoint)
      rw [armed]
      refine ⟨rtt, rtseq, tRexmt, tPersist, rxtshift, ?_⟩
      simp [BitVec.add_assoc]
  · next forced =>
      have probing : s.probing = true := by
        rw [← Bool.not_eq_false, probe]
        exact forced
      rw [probing]
      refine ⟨s.cb.rtt, s.cb.rtseq, s.cb.tRexmt, s.cb.tPersist, s.cb.rxtshift, ?_⟩
      dsimp only
      generalize s.toConn.core.rewound flags s.cb.sndNxt = start
      by_cases above : seqGt (start + len) s.cb.sndMax <;> simp [seqMax, above]

/-- Everything the code after the `send` label changes. -/
theorem outputSend_eq (s : Endpoint) (flags : UChar) (pkt : Option UdtPacket) (raw : Word) :
    ∃ rtt rtseq tRexmt tPersist rxtshift rcvAdv, (s.outputSend flags pkt raw).2 =
      { s with
        cb.sndNxt := s.sendNxt flags (Conn.pktLen pkt)
        cb.sndMax := seqMax (s.sendEnd flags (Conn.pktLen pkt)) s.cb.sndMax
        cb.rtt := rtt, cb.rtseq := rtseq, cb.tRexmt := tRexmt
        cb.tPersist := tPersist, cb.rxtshift := rxtshift, cb.rcvAdv := rcvAdv
        cb.flags :=
          { s.cb.flags with
            sentfin := s.cb.flags.sentfin || (!s.probing && hasFin flags)
            acknow := false, delack := false, needOutput := false }
        wire := s.wire ++ [(s.outputSend flags pkt raw).1] } := by
  obtain ⟨rtt, rtseq, tRexmt, tPersist, rxtshift, advanced⟩ :=
    s.outputAdvance_eq flags (Conn.pktLen pkt)
  rw [outputSend]
  dsimp only
  rw [advanced]
  unfold outputSent
  dsimp only
  split
  · exact ⟨rtt, rtseq, tRexmt, tPersist, rxtshift, _, rfl⟩
  · exact ⟨rtt, rtseq, tRexmt, tPersist, rxtshift, s.cb.rcvAdv, rfl⟩

theorem transmit_eq (u : Endpoint) (pkt : Option UdtPacket) (raw : Word) (t : Transmission) :
    ∃ rtt rtseq tRexmt tPersist rxtshift rcvAdv wire, u.transmit pkt raw t =
      { u with
        cb.sndNxt := u.sendNxt (u.sendFlags pkt) (Conn.pktLen pkt)
        cb.sndMax := seqMax (u.sendEnd (u.sendFlags pkt) (Conn.pktLen pkt)) u.cb.sndMax
        cb.rtt := rtt, cb.rtseq := rtseq, cb.tRexmt := tRexmt
        cb.tPersist := tPersist, cb.rxtshift := rxtshift, cb.rcvAdv := rcvAdv
        cb.flags :=
          { u.cb.flags with
            sentfin := u.cb.flags.sentfin || (!u.probing && hasFin (u.sendFlags pkt))
            acknow := false, delack := false, needOutput := false }
        wire := wire
        sent := u.sent ++ [t] } := by
  obtain ⟨rtt, rtseq, tRexmt, tPersist, rxtshift, rcvAdv, result⟩ :=
    u.outputSend_eq (u.sendFlags pkt) pkt raw
  rw [transmit, result]
  exact ⟨rtt, rtseq, tRexmt, tPersist, rxtshift, rcvAdv, _, rfl⟩

/-- The header after the `send` label. -/
theorem outputSend_hdr (s : Endpoint) (flags : UChar) (pkt : Option UdtPacket) (raw : Word) :
    let d := (s.outputSend flags pkt raw).1.hdr.ntoh
    d.flags = flags ∧ d.ack = s.cb.rcvNxt ∧ d.len = (Conn.pktLen pkt).setWidth 16 ∧
      d.seq = if Conn.pktLen pkt ≠ 0 ∨ hasFlag flags (UdtHdr.TH_SYN ||| UdtHdr.TH_FIN) ∨
        s.cb.tPersist ≠ 0 then s.toConn.core.rewound flags s.cb.sndNxt else s.cb.sndMax := by
  rw [outputSend, outputRewind_eq]
  dsimp only
  rw [outputDatagram_hdr]
  exact ⟨rfl, rfl, rfl, rfl⟩

/-- What `get_snd_pkt` and the branches around it choose, and the state they leave. -/
inductive Selects (s : Endpoint) : Option UdtPacket → Endpoint → Prop
  | nothing : Selects s none s
  | closedWindow : Selects s none { s with cb.sndNxt := s.cb.sndUna, cb.tRexmt := 0 }
  | fresh {front p back} (queue : s.sk.sndBuf.pkts = front ++ p :: back)
      (skipped : ∀ q ∈ front, isCandidate s.cb.sndNxt q = false)
      (candidate : isCandidate s.cb.sndNxt p = true) (new : ¬ seqLt p.hdr.seq s.cb.sndMax) :
      Selects s (some p) { s with cb.sndNxt := p.hdr.seq }
  | again {front p back} (queue : s.sk.sndBuf.pkts = front ++ p :: back)
      (skipped : ∀ q ∈ front, isCandidate s.cb.sndNxt q = false)
      (candidate : isCandidate s.cb.sndNxt p = true) (old : seqLt p.hdr.seq s.cb.sndMax) :
      Selects s (some { p with hdr.flags := p.hdr.flags ||| UdtHdr.TH_RETRANS })
        { s with
          cb.retransData := s.cb.retransData + p.hdr.len.setWidth 32
          cb.sndNxt := p.hdr.seq
          sk.sndBuf.pkts :=
            front ++ { p with hdr.flags := p.hdr.flags ||| UdtHdr.TH_RETRANS } :: back }

theorem getSndPktLoop_selects (s : Endpoint) (len : Word) (front pkts : List UdtPacket)
    (queue : s.sk.sndBuf.pkts = front ++ pkts)
    (skipped : ∀ q ∈ front, isCandidate s.cb.sndNxt q = false) :
    s.Selects (s.getSndPktLoop len front pkts).1 (s.getSndPktLoop len front pkts).2 := by
  induction pkts generalizing front with
  | nil => exact .nothing
  | cons p back ih =>
      rw [getSndPktLoop]
      by_cases candidate : seqGe p.hdr.seq s.cb.sndNxt ∧ !hasRexmt p.hdr.flags
      case neg =>
        rw [if_neg candidate]
        refine ih (front ++ [p]) (by rw [queue, List.append_assoc, List.singleton_append]) ?_
        intro q member
        rcases List.mem_append.mp member with inside | last
        · exact skipped q inside
        · rw [List.mem_singleton.mp last]
          simpa [isCandidate] using candidate
      case pos =>
        have is : isCandidate s.cb.sndNxt p = true := by simpa [isCandidate] using candidate
        rw [if_pos candidate]
        split
        · split
          · next old => exact .again queue skipped is old
          · next new => exact .fresh queue skipped is new
        · exact .nothing

theorem outputSelect_selects {s u : Endpoint} {canSend : Word} {pkt : Option UdtPacket}
    (select : s.outputSelect canSend = (pkt, u)) : s.Selects pkt u := by
  unfold outputSelect at select
  split at select
  · have selects := s.getSndPktLoop_selects canSend [] s.sk.sndBuf.pkts rfl (by simp)
    rw [getSndPkt] at select
    rwa [select] at selects
  · split at select
    · cases select
      exact .closedWindow
    · cases select
      exact .nothing

end Endpoint

namespace Endpoint

/-- The state without what `output` may change. -/
def outside (s : Endpoint) : Endpoint :=
  { s with
    cb :=
      { s.cb with
        sndNxt := 0, sndMax := 0, retransData := 0, sndCwnd := 0, rcvAdv := 0
        rxtshift := 0, rtt := 0, rtseq := 0, tRexmt := 0, tPersist := 0
        flags := { s.cb.flags with
          sentfin := false, acknow := false, delack := false, needOutput := false } }
    sk := { s.sk with sendOps := [], sndBuf := UdtBuf.init 0, pendingData := 0 }
    env := Env.zero, wire := [], posted := [], sent := [], calls := []
    persistEntered := [], backoffRead := [] }

theorem Selects.outside {s u : Endpoint} {pkt : Option UdtPacket} (selects : s.Selects pkt u) :
    u.outside = s.outside := by
  cases selects <;> rfl

theorem ready_outside {s u : Endpoint} {pkt : Option UdtPacket} (selects : s.Selects pkt u) :
    (u.ready pkt).outside = s.outside := by
  obtain ⟨tPersist, rxtshift, result⟩ := u.ready_eq pkt
  rw [result]
  exact selects.outside

theorem Output.outside {s t : Endpoint} (block : Output s t) : t.outside = s.outside := by
  cases block with
  | idle =>
      unfold outputIdle UdtCb.slowStart
      split
      · split <;> rfl
      · rfl
  | consume =>
      obtain ⟨ops, rest, b, _, _, result⟩ := s.consumePendingData_spec
      rw [result]
      rfl
  | @send u canSend raw pkt env t alive select must before dgram =>
      have ready := ready_outside (outputSelect_selects select)
      obtain ⟨_, _, _, _, _, _, _, result⟩ := transmit_eq { u.ready pkt with env } pkt raw t
      rw [result]
      exact ready
  | @persist u canSend pkt select can =>
      have ready := ready_outside (outputSelect_selects select)
      obtain ⟨tPersist, shift, result⟩ := enterPersist_eq { u.ready pkt with cb.rxtshift := 0 }
      rw [result]
      exact ready
  | wait select => exact ready_outside (outputSelect_selects select)
  | record => rfl

theorem output_outside (s : Endpoint) : s.output.outside = s.outside :=
  s.output_blocks.keeps (I := fun t => t.outside = s.outside) rfl
    fun _ _ same block => block.outside.trans same

end Endpoint

/-- What neither `output` nor a read by the user changes. -/
structure Steady where
  state : TcpState
  force : Bool
  maxseg : Half
  sndUna : Word
  iss : Word
  rcvNxt : Word
  sndWnd : Word
  t2msl : Half
  lastError : UdtError
  packetConsumed : Bool
  notifyRead : Bool
  notifyWrite : Bool
  notifyDrop : Bool
  needReset : Bool
  nextLayer : Bool
  connectHandler : Option Nat
  acceptHandler : Option Nat
  shutdownHandler : Option Nat
  reasmPkts : List UdtPacket
  rcvPkt : Option Nat
  nextBuffer : Nat
  synAccepted : List Word
  connected : Bool
  finHandled : Bool
  receives : List Nat

namespace Endpoint

def steady (s : Endpoint) : Steady where
  state := s.cb.state
  force := s.cb.force
  maxseg := s.cb.maxseg
  sndUna := s.cb.sndUna
  iss := s.cb.iss
  rcvNxt := s.cb.rcvNxt
  sndWnd := s.cb.sndWnd
  t2msl := s.cb.t2msl
  lastError := s.cb.lastError
  packetConsumed := s.cb.flags.packetConsumed
  notifyRead := s.cb.flags.notifyRead
  notifyWrite := s.cb.flags.notifyWrite
  notifyDrop := s.cb.flags.notifyDrop
  needReset := s.cb.flags.needReset
  nextLayer := s.sk.nextLayer
  connectHandler := s.sk.connectHandler
  acceptHandler := s.sk.acceptHandler
  shutdownHandler := s.sk.shutdownHandler
  reasmPkts := s.sk.rcvBuf.reasmPkts
  rcvPkt := s.sk.rcvPkt
  nextBuffer := s.sk.nextBuffer
  synAccepted := s.synAccepted
  connected := s.connected
  finHandled := s.finHandled
  receives := s.receives

theorem steady_of_outside {s t : Endpoint} (same : t.outside = s.outside) : t.steady = s.steady := by
  have fields : t.outside.steady = s.outside.steady := congrArg steady same
  exact fields

theorem Selects.steady {s u : Endpoint} {pkt : Option UdtPacket} (selects : s.Selects pkt u) :
    u.steady = s.steady :=
  steady_of_outside selects.outside

theorem ready_steady {s u : Endpoint} {pkt : Option UdtPacket} (selects : s.Selects pkt u) :
    (u.ready pkt).steady = s.steady :=
  steady_of_outside (ready_outside selects)

theorem Output.steady {s t : Endpoint} (block : Output s t) : t.steady = s.steady :=
  steady_of_outside block.outside

theorem output_steady (s : Endpoint) : s.output.steady = s.steady :=
  steady_of_outside s.output_outside

theorem inner_steady {s t : Endpoint} (block : Block s .inner t) : t.steady = s.steady := by
  cases block with
  | output block => exact block.steady
  | read =>
      obtain ⟨done, rest, rb, waits, _, _, result⟩ := s.recvDataLoop_spec s.sk.recvOps
      rw [result]
      rfl
  | @delayed n =>
      obtain ⟨done, rest, rb, _, result⟩ :=
        ({ s with sk.delayWaits := n } : Endpoint).delayedLoop_spec s.sk.recvOps
      rw [result]
      rfl

theorem path_inner_steady {s t : Endpoint} (path : BlockPath Tag.Inner s t) :
    t.steady = s.steady :=
  path.invariant (I := fun t => t.steady = s.steady) rfl fun _ a _ same inner block => by
    obtain rfl : a = .inner := inner
    exact (inner_steady block).trans same

/-- What the user's requests and the end of a connection leave of the other fields. -/
theorem connecting_eq (s : Endpoint) (h : Nat) :
    ∃ pkt next receives, s.connecting h =
      { s with
        cb :=
          { s.cb with
            state := .synSent, tKeep := TCPTV_KEEP_INIT, iss := sIss, sndFack := sIss
            sndUna := sIss, sndNxt := sIss, sndMax := sIss }
        sk.connectHandler := some h, sk.rcvPkt := pkt, sk.nextBuffer := next, receives } := by
  obtain ⟨pkt, next, receives, result⟩ :=
    ({ s with sk.connectHandler := some h } : Endpoint).doReceive_eq
  rw [connecting, result]
  exact ⟨pkt, next, receives, rfl⟩

theorem closing_eq (s : Endpoint) (h : Nat) :
    s.closing h =
      { s with
        cb.state := if s.cb.state = .established then .finWait1
          else if s.cb.state = .closeWait then .lastAck else s.cb.state
        sk.shutdownHandler := some h } := by
  unfold Endpoint.closing
  dsimp only
  split
  · next state => rw [if_pos state]
  · next state => rw [if_neg (by simp [state]), if_pos state]
  · next open_ waiting => rw [if_neg open_, if_neg waiting]

end Endpoint

/-- How a block changes the state of the connection. -/
inductive StateChange (sentfin : Bool) : TcpState → Tag → TcpState → Prop
  | same {q a} : StateChange sentfin q a q
  | syn {q p} (handshake : q = .listen ∨ q = .synSent ∨ q = .synReceived) :
      StateChange sentfin q (.syn p) .synReceived
  | acked {q p} : StateChange sentfin q (.ackAll p) (q.acked sentfin)
  | fin {q} : StateChange sentfin q .fin q.finned
  | dropped {q} : StateChange sentfin q .rest .closed
  | connect {h} : StateChange sentfin .closed (.connect h) .synSent
  | accept {h} : StateChange sentfin .closed (.accept h) .listen
  | shutdown {q h} : StateChange sentfin q (.shutdown h)
      (if q = .established then .finWait1 else if q = .closeWait then .lastAck else q)
  | close {q} : StateChange sentfin q .close .closed

namespace Endpoint

theorem doFastRexmt_steady (s : Endpoint) (ack : Word) :
    (s.doFastRexmt ack).steady = s.steady := by
  obtain ⟨_, _, _, _, _, _, _, _, result, _⟩ := s.beginFastRexmt_eq ack
  have begun : (s.handlePacketLost.beginFastRexmt ack).steady = s.steady := by
    rw [result]
    rfl
  have sent := output_steady (s.handlePacketLost.beginFastRexmt ack)
  rw [doFastRexmt]
  dsimp only
  generalize (s.handlePacketLost.beginFastRexmt ack).output = x at sent ⊢
  exact Eq.trans sent begun

theorem block_state {s t : Endpoint} {a : Tag} (block : Block s a t) (whole : a ≠ .disconnect) :
    StateChange s.cb.flags.sentfin s.cb.state a t.cb.state := by
  have kept : ∀ {q}, q = s.cb.state → StateChange s.cb.flags.sentfin s.cb.state a q := by
    rintro _ rfl
    exact .same
  cases block with
  | output block => exact kept (congrArg Steady.state block.steady)
  | read => exact kept (congrArg Steady.state (inner_steady .read))
  | delayed => exact kept (congrArg Steady.state (inner_steady .delayed))
  | notifySends =>
      rw [notifySends_eq]
      exact .same
  | notifyHandlers =>
      rw [postHandlers_eq]
      exact .same
  | disconnect => exact absurd rfl whole
  | sampled =>
      unfold updateRtt
      split
      · obtain ⟨srtt, rttvar, rxtcur, result⟩ := s.xmitTimer_eq s.cb.rtt
        rw [result]
        exact .same
      · exact .same
  | @ackPredicted p =>
      obtain ⟨_, _, _, _, _, _, _, _, result⟩ := s.ackPredicted_eq p.hdr.ack
      rw [result]
      exact .same
  | @syn p alive isSyn =>
      obtain ⟨wl1, wl2, tKeep, result⟩ := s.handleSyn_eq p
      rw [result]
      split
      · next handshake => exact .syn handshake
      · exact .same
  | @reass p =>
      obtain ⟨_, _, _, _, _, _, result⟩ := s.TCP_REASS_eq p
      rw [result]
      exact .same
  | ackAll =>
      obtain ⟨_, _, _, _, _, _, _, _, _, _, _, _, _, _, result⟩ := s.updateAckState_eq
      rw [result]
      exact .acked
  | fack =>
      unfold UdtCb.updateSndFack
      split <;> exact .same
  | sacked =>
      unfold dropSndPkt
      dsimp only
      split <;> exact .same
  | @window p =>
      obtain ⟨_, _, result⟩ := s.ackWindow_eq (p.hdr.win.setWidth 32)
      rw [result]
      exact .same
  | late =>
      obtain ⟨_, _, result⟩ := resetRexmtTimer_eq { s.cb with dupacks := 0 }
      rw [result]
      exact .same
  | duplicate =>
      obtain ⟨_, _, result⟩ := resetRexmtTimer_eq { s.cb with dupacks := s.cb.dupacks + 1 }
      rw [result]
      exact .same
  | @fastRexmt p => exact kept (congrArg Steady.state (doFastRexmt_steady _ p.hdr.ack))
  | @ackNew p =>
      obtain ⟨_, _, _, _, _, _, _, _, _, result⟩ := s.ackNewData_eq p.hdr
      rw [result]
      exact .same
  | fin =>
      obtain ⟨_, _, result⟩ := s.handleFin_eq
      rw [result]
      split <;> exact .fin
  | dropped => exact .dropped
  | receiving =>
      obtain ⟨pkt, next, _, result⟩ := s.doReceive_eq
      rw [result]
      exact .same
  | rexmtBegun =>
      obtain ⟨_, _, _, _, _, _, _, _, _, _, result⟩ := s.rexmtBegun_eq
      rw [result]
      exact .same
  | persistBegun =>
      obtain ⟨_, _, _, _, _, result, _⟩ := s.persistBegun_eq
      rw [result]
      exact .same
  | @connect h alive state =>
      obtain ⟨pkt, next, _, result⟩ := s.connecting_eq h
      rw [result, state]
      exact .connect
  | @connectBusy h =>
      obtain ⟨pkt, next, _, result⟩ := ({ s with sk.connectHandler := some h } : Endpoint).doReceive_eq
      rw [result]
      exact .same
  | @accept h alive state =>
      rw [state]
      exact .accept
  | @acceptBusy h =>
      obtain ⟨pkt, next, _, result⟩ := ({ s with sk.acceptHandler := some h } : Endpoint).doReceive_eq
      rw [result]
      exact .same
  | @shutdown h =>
      rw [closing_eq]
      exact .shutdown
  | mtu =>
      unfold UdtCb.setMtu
      split <;> exact .same
  | close => exact .close
  | _ => exact .same

end Endpoint
end UdtBoost
